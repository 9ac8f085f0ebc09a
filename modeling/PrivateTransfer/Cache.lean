import PrivateTransfer.Keyspace
import PrivateTransfer.RateLimit
import PrivateTransfer.RedisTree

/-!
`backend/src/cache.rs`: one Redis with text under text. The trees, cursors and cached
lists of all pools and the counters of all addresses are kept in it under keys that are
put together from the address, and an access to one of them is about no other's.
-/

namespace PrivateTransfer.Cache

open MerkleService Script

/-! Redis, with times in milliseconds. -/
section Redis

structure Entry where
  value : String
  expiresAt : Option Nat
  deriving DecidableEq

abbrev Redis := String → Option Entry

/-- A key is gone from its expiry on. -/
def live (now : Nat) : Option Entry → Option Entry
  | some ⟨value, some expiry⟩ => if expiry ≤ now then none else some ⟨value, some expiry⟩
  | entry => entry

inductive Command where
  | get (key : String)
  | set (key value : String)
  | setEx (key value : String) (ttlSecs : Nat)
  | del (keys : List String)
  | incr (key : String)
  | expire (key : String) (ttlSecs : Nat)

@[reducible] def Answer : Command → Type
  | .get _ => Option String
  | .incr _ => Int
  | .set _ _ | .setEx _ _ _ | .del _ | .expire _ _ => Unit

abbrev RedisError := String

/-- Text counts as a number if it is how a number of 64 bits is printed. -/
def integer (value : String) : Option Int :=
  let number : Int := match value.toList with
    | '-' :: digits => -(Nat.ofDigitChars 10 digits 0 : Int)
    | digits => Nat.ofDigitChars 10 digits 0
  if toString number = value ∧ -2 ^ 63 ≤ number ∧ number < 2 ^ 63 then some number else none

/-- `INCR` keeps the expiry of a key and gives none to a new one. -/
def increment (now : Nat) (entry : Option Entry) : Except RedisError (Int × Entry) :=
  match live now entry with
  | none => .ok (1, ⟨"1", none⟩)
  | some held =>
      match integer held.value with
      | none => .error "value is not an integer or out of range"
      | some number =>
          if number + 1 < 2 ^ 63 then
            .ok (number + 1, { held with value := toString (number + 1) })
          else .error "increment or decrement would overflow"

def serve (now : Nat) : (command : Command) → Redis → Except RedisError (Answer command) × Redis
  | .get key, redis => (.ok ((live now (redis key)).map Entry.value), redis)
  | .set key value, redis => (.ok (), Function.update redis key (some ⟨value, none⟩))
  | .setEx key value ttlSecs, redis =>
      (.ok (), Function.update redis key (some ⟨value, some (now + 1000 * ttlSecs)⟩))
  | .del keys, redis => (.ok (), fun key => if key ∈ keys then none else redis key)
  | .incr key, redis =>
      match increment now (redis key) with
      | .ok (number, entry) => (.ok number, Function.update redis key (some entry))
      | .error error => (.error error, redis)
  | .expire key ttlSecs, redis =>
      (.ok (), Function.update redis key ((live now (redis key)).map fun held =>
        { held with expiresAt := some (now + 1000 * ttlSecs) }))

end Redis

/-- `serde_json` on arrays of strings. -/
structure Json where
  toString : List String → String
  fromStr : String → Option (List String)
  reads : ∀ hashes : List Hex64,
    fromStr (toString (hashes.map Hex64.text)) = some (hashes.map Hex64.text)

/-- `str::parse::<usize>`: digits, with or without a plus in front. -/
def parseUsize (text : String) : Option Nat :=
  let digits := if text.toList.head? = some '+' then text.toList.tail else text.toList
  if digits ≠ [] ∧ digits.all Char.isDigit ∧ Nat.ofDigitChars 10 digits 0 < 2 ^ 64 then
    some (Nat.ofDigitChars 10 digits 0)
  else none

section Methods
variable (json : Json) (poolAddress : String)

abbrev Work (Result : Type) := Program Command Answer RedisError Result

def get (key : String) : Work (Option String) := perform (Command.get key)

def set (key value : String) : Work Unit := perform (Command.set key value)

def setEx (key value : String) (ttlSecs : Nat) : Work Unit :=
  perform (Command.setEx key value ttlSecs)

/-- Nothing is ever stored under the second key. -/
def invalidatePool : Work Unit :=
  perform (Command.del ["commitments:" ++ poolAddress, "root:" ++ poolAddress])

/-- Text that does not parse counts as an empty level. -/
def getTreeLevel (level : Nat) : Work (Option (List String)) := do
  let stored ← get ("tree:" ++ poolAddress ++ ":level:" ++ toString level)
  pure (stored.map fun text => (json.fromStr text).getD [])

def setTreeLevel (level : Nat) (hashes : List String) : Work Unit :=
  set ("tree:" ++ poolAddress ++ ":level:" ++ toString level) (json.toString hashes)

def getTreeRoot : Work (Option String) := get ("tree:" ++ poolAddress ++ ":root")

def setTreeRoot (root : String) : Work Unit := set ("tree:" ++ poolAddress ++ ":root") root

/-- Text that does not parse counts as absent. -/
def getTreeSize : Work (Option Nat) := do
  let stored ← get ("tree:" ++ poolAddress ++ ":size")
  pure (stored.bind parseUsize)

def setTreeSize (size : Nat) : Work Unit := set ("tree:" ++ poolAddress ++ ":size") (toString size)

def getEmptyHash (level : Nat) : Work (Option String) :=
  get ("tree:" ++ poolAddress ++ ":empty:" ++ toString level)

def setEmptyHash (level : Nat) (hash : String) : Work Unit :=
  set ("tree:" ++ poolAddress ++ ":empty:" ++ toString level) hash

def getLastSignature : Work (Option String) := get ("indexer:" ++ poolAddress ++ ":last_signature")

def setLastSignature (signature : String) : Work Unit :=
  set ("indexer:" ++ poolAddress ++ ":last_signature") signature

/-- The count is read as an unsigned number. -/
def incr (key : String) : Work Nat := do
  let number ← perform (Command.incr key)
  if number < 0 then fail "not an unsigned number" else pure number.toNat

def expire (key : String) (ttlSecs : Nat) : Work Unit := perform (Command.expire key ttlSecs)

def incrRateLimit (key : String) (ttlSecs : Nat) : Work Nat := do
  let count ← incr key
  if count = 1 then do
    expire key ttlSecs
    pure count
  else pure count

end Methods

/-! The keys, of any pool and any address. -/
section Keys

inductive Slot where
  | level (d : Nat)
  | empty (d : Nat)
  | root
  | size
  deriving DecidableEq

inductive Route where
  | withdraw
  | read
  deriving DecidableEq

inductive Key where
  | tree (poolAddress : String) (slot : Slot)
  | lastSignature (poolAddress : String)
  | commitments (poolAddress : String)
  | root (poolAddress : String)
  | limiter (route : Route) (ip : String)
  deriving DecidableEq

def Slot.text : Slot → String
  | level d => ":level:" ++ toString d
  | empty d => ":empty:" ++ toString d
  | root => ":root"
  | size => ":size"

def limiterKey : Route → String → String
  | .withdraw, ip => "ratelimit:withdraw:" ++ ip
  | .read, ip => "ratelimit:read:" ++ ip

def Key.text : Key → String
  | tree poolAddress slot => "tree:" ++ poolAddress ++ slot.text
  | lastSignature poolAddress => "indexer:" ++ poolAddress ++ ":last_signature"
  | commitments poolAddress => "commitments:" ++ poolAddress
  | root poolAddress => "root:" ++ poolAddress
  | limiter route ip => limiterKey route ip

/-- What stands behind the last of some separators is determined. -/
theorem cut_unique {Symbol : Type} {separator : Symbol} {left right front back : List Symbol}
    (same : left ++ separator :: front = right ++ separator :: back)
    (free : separator ∉ front) (clear : separator ∉ back) : left = right ∧ front = back := by
  rcases List.append_eq_append_iff.mp same with ⟨between, rfl, rest⟩ | ⟨between, rfl, rest⟩
  · cases between with
    | nil => exact ⟨(List.append_nil left).symm, (List.cons.inj rest).2⟩
    | cons first between =>
        exact absurd (by rw [(List.cons.inj rest).2]; simp) free
  · cases between with
    | nil => exact ⟨List.append_nil right, (List.cons.inj rest).2.symm⟩
    | cons first between =>
        exact absurd (by rw [(List.cons.inj rest).2]; simp) clear

theorem digits_free (d : Nat) : ':' ∉ Nat.toDigits 10 d := by
  intro member
  have digit := Nat.isDigit_of_mem_toDigits (by decide) (by decide) member
  exact absurd digit (by decide)

theorem digits_injective {d e : Nat} (same : Nat.toDigits 10 d = Nat.toDigits 10 e) : d = e := by
  have numbers := congrArg (fun digits => Nat.ofDigitChars 10 digits 0) same
  simpa [Nat.ofDigitChars_ten_toDigits] using numbers

/-- What stands in front of the last colon of a slot, and behind it. -/
def Slot.front : Slot → List Char
  | level _ => ':' :: "level".toList
  | empty _ => ':' :: "empty".toList
  | root | size => []

def Slot.last : Slot → List Char
  | level d | empty d => Nat.toDigits 10 d
  | root => "root".toList
  | size => "size".toList

theorem slot_text (slot : Slot) : slot.text.toList = slot.front ++ ':' :: slot.last := by
  cases slot <;> simp [Slot.text, Slot.front, Slot.last]

theorem last_free (slot : Slot) : ':' ∉ slot.last := by
  cases slot with
  | level d => exact digits_free d
  | empty d => exact digits_free d
  | root => decide
  | size => decide

theorem digits_apart (d : Nat) {word : List Char} (letter : word.all Char.isDigit = false) :
    Nat.toDigits 10 d ≠ word := by
  rintro rfl
  have digits : (Nat.toDigits 10 d).all Char.isDigit = true :=
    List.all_eq_true.mpr fun _ member => Nat.isDigit_of_mem_toDigits (by decide) (by decide) member
  rw [digits] at letter
  cases letter

/-- The last word tells two slots apart, unless both are numbers. -/
theorem last_unique {slot other : Slot} (same : slot.last = other.last) :
    slot = other ∨
      ∃ d, slot = .level d ∧ other = .empty d ∨ slot = .empty d ∧ other = .level d := by
  have word : ∀ d, Nat.toDigits 10 d ≠ "root".toList ∧ Nat.toDigits 10 d ≠ "size".toList :=
    fun d => ⟨digits_apart d (by decide), digits_apart d (by decide)⟩
  cases slot with
  | level d =>
      cases other with
      | level e => exact Or.inl (congrArg Slot.level (digits_injective same))
      | empty e => exact Or.inr ⟨d, Or.inl ⟨rfl, congrArg Slot.empty (digits_injective same).symm⟩⟩
      | root => exact absurd same (word d).1
      | size => exact absurd same (word d).2
  | empty d =>
      cases other with
      | level e => exact Or.inr ⟨d, Or.inr ⟨rfl, congrArg Slot.level (digits_injective same).symm⟩⟩
      | empty e => exact Or.inl (congrArg Slot.empty (digits_injective same))
      | root => exact absurd same (word d).1
      | size => exact absurd same (word d).2
  | root =>
      cases other with
      | level e => exact absurd same.symm (word e).1
      | empty e => exact absurd same.symm (word e).1
      | root => exact Or.inl rfl
      | size => exact absurd same (by decide)
  | size =>
      cases other with
      | level e => exact absurd same.symm (word e).2
      | empty e => exact absurd same.symm (word e).2
      | root => exact absurd same (by decide)
      | size => exact Or.inl rfl

theorem level_empty_apart {left right : List Char} :
    left ++ ':' :: "level".toList ≠ right ++ ':' :: "empty".toList := by
  intro same
  exact absurd (cut_unique same (by decide) (by decide)).2 (by decide)

/-- Whatever stands in front of them, slots are told apart. -/
theorem slot_unique {left right : List Char} {slot other : Slot}
    (same : left ++ slot.text.toList = right ++ other.text.toList) :
    left = right ∧ slot = other := by
  rw [slot_text, slot_text, ← List.append_assoc, ← List.append_assoc] at same
  obtain ⟨fronts, lasts⟩ := cut_unique same (last_free slot) (last_free other)
  rcases last_unique lasts with rfl | ⟨d, ⟨rfl, rfl⟩ | ⟨rfl, rfl⟩⟩
  · exact ⟨List.append_cancel_right fronts, rfl⟩
  · exact absurd fronts level_empty_apart
  · exact absurd fronts.symm level_empty_apart

/-- What a key is for tells what it begins with. -/
inductive Kind where
  | tree
  | indexer
  | commitments
  | root
  | limiter (route : Route)

def Kind.word : Kind → List Char
  | tree => "tree:".toList
  | indexer => "indexer:".toList
  | commitments => "commitments:".toList
  | root => "root:".toList
  | limiter .withdraw => "ratelimit:withdraw:".toList
  | limiter .read => "ratelimit:read:".toList

def Key.kind : Key → Kind
  | tree _ _ => .tree
  | lastSignature _ => .indexer
  | commitments _ => .commitments
  | root _ => .root
  | limiter route _ => .limiter route

/-- What is put behind it. -/
def Key.rest : Key → List Char
  | tree poolAddress slot => poolAddress.toList ++ slot.text.toList
  | lastSignature poolAddress => poolAddress.toList ++ ":last_signature".toList
  | commitments poolAddress | root poolAddress => poolAddress.toList
  | limiter _ ip => ip.toList

theorem kinds_apart {kind other : Kind} (begins : kind.word <+: other.word) : kind = other := by
  revert begins
  rcases kind with _ | _ | _ | _ | (_ | _) <;> rcases other with _ | _ | _ | _ | (_ | _) <;>
    first | exact fun _ => rfl | exact fun begins => absurd begins (by decide)

theorem key_text (key : Key) : key.text.toList = key.kind.word ++ key.rest := by
  cases key with
  | limiter route ip => cases route <;> exact String.toList_append
  | tree poolAddress slot =>
      rw [Key.text, String.toList_append, String.toList_append, List.append_assoc]
      rfl
  | lastSignature poolAddress =>
      rw [Key.text, String.toList_append, String.toList_append, List.append_assoc]
      rfl
  | commitments poolAddress => exact String.toList_append
  | root poolAddress => exact String.toList_append

theorem kind_unique {key other : Key} (same : key.text = other.text) :
    key.kind = other.kind ∧ key.rest = other.rest := by
  have symbols := congrArg String.toList same
  rw [key_text, key_text] at symbols
  have kinds : key.kind = other.kind := by
    rcases List.prefix_or_prefix_of_prefix (List.prefix_append key.kind.word key.rest)
      (symbols ▸ List.prefix_append other.kind.word other.rest) with before | behind
    · exact kinds_apart before
    · exact (kinds_apart behind).symm
  rw [kinds] at symbols
  exact ⟨kinds, List.append_cancel_left symbols⟩

/-- No two keys are one text, whatever the addresses are. -/
theorem text_injective {key other : Key} (same : key.text = other.text) : key = other := by
  obtain ⟨kinds, rests⟩ := kind_unique same
  cases key with
  | tree poolAddress slot =>
      cases other with
      | tree address held =>
          obtain ⟨pools, rfl⟩ := slot_unique rests
          rw [String.toList_inj.mp pools]
      | _ => cases kinds
  | lastSignature poolAddress =>
      cases other with
      | lastSignature address => rw [String.toList_inj.mp (List.append_cancel_right rests)]
      | _ => cases kinds
  | commitments poolAddress =>
      cases other with
      | commitments address => rw [String.toList_inj.mp rests]
      | _ => cases kinds
  | root poolAddress =>
      cases other with
      | root address => rw [String.toList_inj.mp rests]
      | _ => cases kinds
  | limiter route ip =>
      cases other with
      | limiter held address =>
          cases kinds
          rw [String.toList_inj.mp rests]
      | _ => cases kinds

end Keys

/-! Numbers are read back from how they are printed. -/
section Numbers

theorem printed_number (number : Nat) :
    (toString (number : Int)) = toString number ∧
      (toString number).toList = Nat.toDigits 10 number := by
  refine ⟨rfl, ?_⟩
  rw [Nat.toString_eq_ofList_toDigits, String.toList_ofList]

theorem integer_printed {number : Nat} (small : number < 2 ^ 63) :
    integer (toString number) = some (number : Int) := by
  obtain ⟨own, digits⟩ := printed_number number
  have read : (match (toString number).toList with
      | '-' :: digits => -(Nat.ofDigitChars 10 digits 0 : Int)
      | digits => Nat.ofDigitChars 10 digits 0) = (number : Int) := by
    rw [digits]
    split
    · rename_i rest minus
      have member : '-' ∈ Nat.toDigits 10 number := by
        rw [minus]
        exact List.mem_cons_self
      exact absurd (Nat.isDigit_of_mem_toDigits (by decide) (by decide) member) (by decide)
    · rw [Nat.ofDigitChars_ten_toDigits]
  rw [integer, read]
  exact if_pos ⟨own, by omega, by omega⟩

theorem parse_usize_printed {number : Nat} (small : number < 2 ^ 64) :
    parseUsize (toString number) = some number := by
  obtain ⟨_, digits⟩ := printed_number number
  have all : (Nat.toDigits 10 number).all Char.isDigit = true :=
    List.all_eq_true.mpr fun _ member => Nat.isDigit_of_mem_toDigits (by decide) (by decide) member
  have unsigned : (Nat.toDigits 10 number).head? ≠ some '+' := by
    intro plus
    have digit := Nat.isDigit_of_mem_toDigits (by decide) (by decide) (List.mem_of_head? plus)
    exact absurd digit (by decide)
  rw [parseUsize, digits, if_neg unsigned, Nat.ofDigitChars_ten_toDigits]
  exact if_pos ⟨Nat.toDigits_ne_nil, all, small⟩

end Numbers

/-! The accesses of all who use it. -/
section Accesses

inductive Owner where
  | tree (poolAddress : String)
  | indexer (poolAddress : String)
  | listing (poolAddress : String)
  | limiter (route : Route) (ip : String)
  deriving DecidableEq

def Key.owner : Key → Owner
  | tree poolAddress _ => .tree poolAddress
  | lastSignature poolAddress => .indexer poolAddress
  | commitments poolAddress | root poolAddress => .listing poolAddress
  | limiter route ip => .limiter route ip

def Owner.keys (owner : Owner) (text : String) : Prop :=
  ∃ key : Key, key.owner = owner ∧ key.text = text

theorem keys_apart (owner other : Owner) (text : String) (mine : owner.keys text)
    (others : other.keys text) : owner = other := by
  obtain ⟨key, rfl, rfl⟩ := mine
  obtain ⟨held, rfl, same⟩ := others
  rw [text_injective same]

/-- One command each. A tree also asks for hashes, which is not a matter of Redis, and
`incr_rate_limit` is an `incr` and may be an `expire`. -/
inductive Access where
  | tree (poolAddress : String) (request : RedisTree.Request)
  | getLastSignature (poolAddress : String)
  | setLastSignature (poolAddress signature : String)
  | getCommitments (poolAddress : String)
  | setCommitments (poolAddress response : String)
  | invalidatePool (poolAddress : String)
  | incr (route : Route) (ip : String)
  | expire (route : Route) (ip : String)

def Access.owner : Access → Owner
  | tree poolAddress _ => .tree poolAddress
  | getLastSignature poolAddress | setLastSignature poolAddress _ => .indexer poolAddress
  | getCommitments poolAddress | setCommitments poolAddress _ | invalidatePool poolAddress =>
      .listing poolAddress
  | incr route ip | expire route ip => .limiter route ip

@[reducible] def TreeReply : RedisTree.Request → Type
  | .getLevel _ => Option (List String)
  | .getEmpty _ | .getRoot => Option String
  | .getSize => Option Nat
  | .hash _ _ => String
  | .setLevel _ _ | .setEmpty _ _ | .setRoot _ | .setSize _ => Unit

@[reducible] def Access.Reply : Access → Type
  | tree _ request => TreeReply request
  | getLastSignature _ | getCommitments _ => Option String
  | setLastSignature _ _ | setCommitments _ _ | invalidatePool _ | expire _ _ => Unit
  | incr _ _ => Nat

variable (json : Json) (compress : Hex64 → Hex64 → Hex64)

def treeScript (poolAddress : String) : (request : RedisTree.Request) → Work (TreeReply request)
  | .getLevel d => getTreeLevel json poolAddress d
  | .setLevel d level => setTreeLevel json poolAddress d (level.map Hex64.text)
  | .getEmpty d => getEmptyHash poolAddress d
  | .setEmpty d hash => setEmptyHash poolAddress d hash.text
  | .getRoot => getTreeRoot poolAddress
  | .setRoot root => setTreeRoot poolAddress root.text
  | .getSize => getTreeSize poolAddress
  | .setSize size => setTreeSize poolAddress size
  | .hash left right => pure (compress left right).text

def Access.script : (access : Access) → Work access.Reply
  | tree poolAddress request => treeScript json compress poolAddress request
  | getLastSignature poolAddress => Cache.getLastSignature poolAddress
  | setLastSignature poolAddress signature => Cache.setLastSignature poolAddress signature
  | getCommitments poolAddress => get ("commitments:" ++ poolAddress)
  | setCommitments poolAddress response => setEx ("commitments:" ++ poolAddress) response 30
  | invalidatePool poolAddress => Cache.invalidatePool poolAddress
  | incr route ip => Cache.incr (limiterKey route ip)
  | expire route ip => Cache.expire (limiterKey route ip) 60

/-- The middleware's count is these two accesses. -/
theorem incr_rate_limit_accesses (route : Route) (ip : String) :
    incrRateLimit (limiterKey route ip) 60 =
      (do
        let count ← (Access.incr route ip).script json compress
        if count = 1 then do
          (Access.expire route ip).script json compress
          pure count
        else pure count) := rfl

/-- An access and when Redis executes it. -/
abbrev Timed := Nat × Access

def serveRedis (timed : Timed) (redis : Redis) : Except RedisError timed.2.Reply × Redis :=
  run (serve timed.1) (timed.2.script json compress) redis

end Accesses

/-! An access stays with the keys of its owner. -/
section Locality
open Keyspace

def Command.names : Command → String → Prop
  | get key | set key _ | setEx key _ _ | incr key | expire key _ => (· = key)
  | del keys => (· ∈ keys)

theorem update_agrees {keys : String → Prop} {left right : Redis} (agree : Agree keys left right)
    (key : String) (entry : Option Entry) :
    Agree keys (Function.update left key entry) (Function.update right key entry) := by
  intro other own
  by_cases same : other = key
  · rw [same, Function.update_self, Function.update_self]
  · rw [Function.update_of_ne same, Function.update_of_ne same, agree other own]

theorem command_agrees (now : Nat) {keys : String → Prop} {command : Command}
    (within : ∀ key, command.names key → keys key) {left right : Redis}
    (agree : Agree keys left right) :
    (serve now command left).1 = (serve now command right).1 ∧
      Agree keys (serve now command left).2 (serve now command right).2 := by
  cases command with
  | get key => exact ⟨by rw [serve, serve, agree key (within key rfl)], agree⟩
  | set key value => exact ⟨rfl, update_agrees agree _ _⟩
  | setEx key value ttlSecs => exact ⟨rfl, update_agrees agree _ _⟩
  | del dropped =>
      refine ⟨rfl, ?_⟩
      intro key own
      simp only [serve, agree key own]
  | incr key =>
      simp only [serve, agree key (within key rfl)]
      cases increment now (right key) with
      | error error => exact ⟨rfl, agree⟩
      | ok counted => exact ⟨rfl, update_agrees agree _ _⟩
  | expire key ttlSecs =>
      rw [serve, serve, agree key (within key rfl)]
      exact ⟨rfl, update_agrees agree _ _⟩

theorem command_frame (now : Nat) {command : Command} {key : String} (apart : ¬ command.names key)
    (redis : Redis) : (serve now command redis).2 key = redis key := by
  cases command with
  | get other => rfl
  | set other value => exact Function.update_of_ne apart _ _
  | setEx other value ttlSecs => exact Function.update_of_ne apart _ _
  | del dropped => exact if_neg apart
  | incr other =>
      simp only [serve]
      cases increment now (redis other) with
      | error error => rfl
      | ok counted => exact Function.update_of_ne apart _ _
  | expire other ttlSecs => exact Function.update_of_ne apart _ _

/-- Every command of the script is about these keys. -/
def Within {Result : Type} (keys : String → Prop) : Work Result → Prop
  | .done _ => True
  | .ask command next => (∀ key, command.names key → keys key) ∧ ∀ answer, Within keys (next answer)

theorem within_bind {Value Result : Type} {keys : String → Prop} {script : Work Value}
    {next : Value → Work Result} (front : Within keys script)
    (rest : ∀ value, Within keys (next value)) : Within keys (script >>= next) := by
  change Within keys (andThen script next)
  induction script with
  | done result =>
      cases result with
      | ok value => exact rest value
      | error failure => trivial
  | ask command continue' ih => exact ⟨front.1, fun answer => ih answer (front.2 answer)⟩

theorem run_within (now : Nat) {Result : Type} {keys : String → Prop} {script : Work Result}
    (within : Within keys script) :
    (∀ left right, Agree keys left right →
      (run (serve now) script left).1 = (run (serve now) script right).1 ∧
        Agree keys (run (serve now) script left).2 (run (serve now) script right).2) ∧
      ∀ redis key, ¬ keys key → (run (serve now) script redis).2 key = redis key := by
  induction script with
  | done result => exact ⟨fun _ _ agree => ⟨rfl, agree⟩, fun _ _ _ => rfl⟩
  | ask command next ih =>
      obtain ⟨named, rest⟩ := within
      constructor
      · intro left right agree
        obtain ⟨same, agreed⟩ := command_agrees now named agree
        rw [run, run, same]
        exact (ih _ (rest _)).1 _ _ agreed
      · intro redis key apart
        rw [run, (ih _ (rest _)).2 _ key apart]
        exact command_frame now (fun names => apart (named key names)) redis

end Locality

end PrivateTransfer.Cache
