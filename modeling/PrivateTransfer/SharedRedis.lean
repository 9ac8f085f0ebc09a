import PrivateTransfer.Cache

/-!
The stores that the other modules work with, one for each tree, cursor, cached list and
counter, beside the one Redis they are kept in. Whoever uses it is answered as from a
store of its own.
-/

namespace PrivateTransfer.SharedRedis

open Cache Keyspace MerkleService Script

/-! Every access is about the keys of its owner. -/
section Locality
variable (json : Json) (compress : Hex64 → Hex64 → Hex64)

theorem named_within {command : Command} {owner : Owner}
    (named : ∀ text, command.names text → owner.keys text) :
    Within owner.keys (perform command : Work (Answer command)) :=
  ⟨named, fun _ => trivial⟩

theorem key_within (key : Key) {command : Command}
    (named : ∀ text, command.names text → text = key.text) :
    Within key.owner.keys (perform command : Work (Answer command)) :=
  named_within fun text names => ⟨key, rfl, (named text names).symm⟩

theorem level_key (poolAddress : String) (d : Nat) :
    "tree:" ++ poolAddress ++ ":level:" ++ toString d = (Key.tree poolAddress (.level d)).text := by
  rw [Key.text, Slot.text, String.append_assoc]

theorem empty_key (poolAddress : String) (d : Nat) :
    "tree:" ++ poolAddress ++ ":empty:" ++ toString d = (Key.tree poolAddress (.empty d)).text := by
  rw [Key.text, Slot.text, String.append_assoc]

theorem tree_within (poolAddress : String) (request : RedisTree.Request) :
    Within (Owner.tree poolAddress).keys (treeScript json compress poolAddress request) := by
  cases request with
  | getLevel d =>
      rw [treeScript, getTreeLevel, level_key]
      exact within_bind (key_within (.tree poolAddress (.level d)) fun _ => id) fun _ => trivial
  | setLevel d level =>
      rw [treeScript, setTreeLevel, level_key]
      exact key_within (.tree poolAddress (.level d)) fun _ => id
  | getEmpty d =>
      rw [treeScript, getEmptyHash, empty_key]
      exact key_within (.tree poolAddress (.empty d)) fun _ => id
  | setEmpty d hash =>
      rw [treeScript, setEmptyHash, empty_key]
      exact key_within (.tree poolAddress (.empty d)) fun _ => id
  | getRoot => exact key_within (.tree poolAddress .root) fun _ => id
  | setRoot root => exact key_within (.tree poolAddress .root) fun _ => id
  | getSize => exact within_bind (key_within (.tree poolAddress .size) fun _ => id) fun _ => trivial
  | setSize size => exact key_within (.tree poolAddress .size) fun _ => id
  | hash left right => trivial

theorem access_within (access : Access) :
    Within access.owner.keys (access.script json compress) := by
  cases access with
  | tree poolAddress request => exact tree_within json compress poolAddress request
  | getLastSignature poolAddress => exact key_within (.lastSignature poolAddress) fun _ => id
  | setLastSignature poolAddress signature =>
      exact key_within (.lastSignature poolAddress) fun _ => id
  | getCommitments poolAddress => exact key_within (.commitments poolAddress) fun _ => id
  | setCommitments poolAddress response => exact key_within (.commitments poolAddress) fun _ => id
  | invalidatePool poolAddress =>
      refine named_within fun text names => ?_
      rcases List.mem_pair.mp names with rfl | rfl
      · exact ⟨.commitments poolAddress, rfl, rfl⟩
      · exact ⟨.root poolAddress, rfl, rfl⟩
  | incr route ip =>
      refine within_bind (key_within (.limiter route ip) fun _ => id) fun number => ?_
      by_cases negative : number < 0
      · rw [if_pos negative]
        trivial
      · rw [if_neg negative]
        trivial
  | expire route ip => exact key_within (.limiter route ip) fun _ => id

theorem access_local (timed : Timed) :
    Local (serveRedis json compress) timed.2.owner.keys timed := by
  obtain ⟨agrees, frame⟩ := run_within timed.1 (access_within json compress timed.2)
  exact ⟨fun left right agree => (agrees left right agree).1,
    fun left right agree => (agrees left right agree).2, frame⟩

end Locality

/-! The stores of their own. -/
section Stores

structure Stores where
  tree : String → RedisTree.Store
  lastSignature : String → Option String
  listing : String → Option Entry
  counter : Route → String → Option RateLimit.Counter

def Stores.empty : Stores where
  tree _ := ⟨fun _ => none, fun _ => none, none, none⟩
  lastSignature _ := none
  listing _ := none
  counter _ _ := none

variable (compress : Hex64 → Hex64 → Hex64)

/-- A tree's service, which never fails. -/
def served : (request : RedisTree.Request) → RedisTree.Store →
    RedisTree.Answer request × RedisTree.Store
  | .getLevel d, store => (store.level d, store)
  | .setLevel d level, store => ((), store.setLevel d level)
  | .getEmpty d, store => (store.empty d, store)
  | .setEmpty d hash, store => ((), store.setEmpty d hash)
  | .getRoot, store => (store.root, store)
  | .setRoot root, store => ((), { store with root := some root })
  | .getSize, store => (store.size, store)
  | .setSize size, store => ((), { store with size := some size })
  | .hash left right, store => (compress left right, store)

theorem tree_served (request : RedisTree.Request) (store : RedisTree.Store) :
    RedisTree.serve compress request store =
      (.ok (served compress request store).1, (served compress request store).2) := by
  cases request <;> rfl

/-- An answer with its hashes as text. -/
def printed : (request : RedisTree.Request) → RedisTree.Answer request → TreeReply request
  | .getLevel _, (level : Option (List Hex64)) => level.map (List.map Hex64.text)
  | .getEmpty _, (hash : Option Hex64) => hash.map Hex64.text
  | .getRoot, (root : Option Hex64) => root.map Hex64.text
  | .getSize, (size : Option Nat) => size
  | .hash _ _, (hash : Hex64) => hash.text
  | .setLevel _ _, _ | .setEmpty _ _, _ | .setRoot _, _ | .setSize _, _ => ()

def Stores.setTree (stores : Stores) (poolAddress : String) (store : RedisTree.Store) : Stores :=
  { stores with tree := Function.update stores.tree poolAddress store }

def Stores.setSignature (stores : Stores) (poolAddress signature : String) : Stores :=
  { stores with
    lastSignature := Function.update stores.lastSignature poolAddress (some signature) }

def Stores.setListing (stores : Stores) (poolAddress : String) (entry : Option Entry) : Stores :=
  { stores with listing := Function.update stores.listing poolAddress entry }

def Stores.setCounter (stores : Stores) (route : Route) (ip : String)
    (counter : Option RateLimit.Counter) : Stores :=
  { stores with
    counter := Function.update stores.counter route
      (Function.update (stores.counter route) ip counter) }

@[simp] theorem set_tree_self (stores : Stores) (poolAddress : String) (store : RedisTree.Store) :
    (stores.setTree poolAddress store).tree poolAddress = store := Function.update_self ..

theorem set_tree_other (stores : Stores) {poolAddress address : String} (store : RedisTree.Store)
    (apart : address ≠ poolAddress) :
    (stores.setTree poolAddress store).tree address = stores.tree address :=
  Function.update_of_ne apart ..

@[simp] theorem set_signature_self (stores : Stores) (poolAddress signature : String) :
    (stores.setSignature poolAddress signature).lastSignature poolAddress = some signature :=
  Function.update_self ..

theorem set_signature_other (stores : Stores) {poolAddress address : String} (signature : String)
    (apart : address ≠ poolAddress) :
    (stores.setSignature poolAddress signature).lastSignature address =
      stores.lastSignature address :=
  Function.update_of_ne apart ..

@[simp] theorem set_listing_self (stores : Stores) (poolAddress : String) (entry : Option Entry) :
    (stores.setListing poolAddress entry).listing poolAddress = entry := Function.update_self ..

theorem set_listing_other (stores : Stores) {poolAddress address : String} (entry : Option Entry)
    (apart : address ≠ poolAddress) :
    (stores.setListing poolAddress entry).listing address = stores.listing address :=
  Function.update_of_ne apart ..

@[simp] theorem set_counter_self (stores : Stores) (route : Route) (ip : String)
    (counter : Option RateLimit.Counter) :
    (stores.setCounter route ip counter).counter route ip = counter :=
  (congrFun (Function.update_self ..) ip).trans (Function.update_self ..)

theorem set_counter_other (stores : Stores) {route held : Route} {ip address : String}
    (counter : Option RateLimit.Counter)
    (apart : Key.limiter held address ≠ .limiter route ip) :
    (stores.setCounter route ip counter).counter held address = stores.counter held address := by
  by_cases same : held = route
  · subst same
    have address_apart : address ≠ ip := fun addresses => apart (congrArg _ addresses)
    exact (congrFun (Function.update_self ..) address).trans
      (Function.update_of_ne address_apart ..)
  · exact congrFun (Function.update_of_ne same _ _) address

def serveStores : (timed : Timed) → Stores → Except RedisError timed.2.Reply × Stores
  | (_, .tree poolAddress request), stores =>
      (.ok (printed request (served compress request (stores.tree poolAddress)).1),
        stores.setTree poolAddress (served compress request (stores.tree poolAddress)).2)
  | (_, .getLastSignature poolAddress), stores => (.ok (stores.lastSignature poolAddress), stores)
  | (_, .setLastSignature poolAddress signature), stores =>
      (.ok (), stores.setSignature poolAddress signature)
  | (now, .getCommitments poolAddress), stores =>
      (.ok ((live now (stores.listing poolAddress)).map Entry.value), stores)
  | (now, .setCommitments poolAddress response), stores =>
      (.ok (), stores.setListing poolAddress (some ⟨response, some (now + 1000 * 30)⟩))
  | (_, .invalidatePool poolAddress), stores => (.ok (), stores.setListing poolAddress none)
  | (now, .incr route ip), stores =>
      (.ok (RateLimit.incremented now (stores.counter route ip)).count,
        stores.setCounter route ip (some (RateLimit.incremented now (stores.counter route ip))))
  | (now, .expire route ip), stores =>
      (.ok (), stores.setCounter route ip (RateLimit.expiring now 60 (stores.counter route ip)))

end Stores

/-! What Redis holds for them. -/
section Represents
variable (json : Json)

def printCounter (counter : RateLimit.Counter) : Entry :=
  ⟨toString counter.count, counter.expiresAt⟩

def slotEntry (store : RedisTree.Store) : Slot → Option Entry
  | .level d => (store.level d).map fun level => ⟨json.toString (level.map Hex64.text), none⟩
  | .empty d => (store.empty d).map fun hash => ⟨hash.text, none⟩
  | .root => store.root.map fun root => ⟨root.text, none⟩
  | .size => store.size.map fun size => ⟨toString size, none⟩

def Stores.entry (stores : Stores) : Key → Option Entry
  | .tree poolAddress slot => slotEntry json (stores.tree poolAddress) slot
  | .lastSignature poolAddress => (stores.lastSignature poolAddress).map fun signature =>
      ⟨signature, none⟩
  | .commitments poolAddress => stores.listing poolAddress
  | .root _ => none
  | .limiter route ip => (stores.counter route ip).map printCounter

/-- No counter gets too big in the accesses that are left. -/
structure Represents (left : Nat) (redis : Redis) (stores : Stores) : Prop where
  entries : ∀ key : Key, redis key.text = stores.entry json key
  sizes : ∀ poolAddress size, (stores.tree poolAddress).size = some size → size < 2 ^ 64
  counts : ∀ route ip counter, stores.counter route ip = some counter →
    counter.count + left < 2 ^ 63
  few : left < 2 ^ 63

variable {json} {redis : Redis} {stores : Stores}

theorem set_entries {next : Stores} (entries : ∀ key : Key, redis key.text = stores.entry json key)
    (key : Key) {entry : Option Entry}
    (changed : next.entry json = Function.update (stores.entry json) key entry) (other : Key) :
    Function.update redis key.text entry other.text = next.entry json other := by
  rw [changed]
  by_cases same : other = key
  · rw [same, Function.update_self, Function.update_self]
  · rw [Function.update_of_ne same, Function.update_of_ne fun texts => same (text_injective texts),
      entries]

theorem set_level_entry (store : RedisTree.Store) (d : Nat) (level : List Hex64) :
    slotEntry json (store.setLevel d level) = Function.update (slotEntry json store) (.level d)
      (some ⟨json.toString (level.map Hex64.text), none⟩) := by
  funext slot
  cases slot with
  | level e =>
      by_cases same : e = d
      · rw [same, Function.update_self, slotEntry, RedisTree.set_level_self, Option.map_some]
      · rw [Function.update_of_ne fun slots => same (Slot.level.inj slots), slotEntry,
          RedisTree.set_level_other store level same, slotEntry]
  | _ => rfl

theorem set_empty_entry (store : RedisTree.Store) (d : Nat) (hash : Hex64) :
    slotEntry json (store.setEmpty d hash) = Function.update (slotEntry json store) (.empty d)
      (some ⟨hash.text, none⟩) := by
  funext slot
  cases slot with
  | empty e =>
      by_cases same : e = d
      · rw [same, Function.update_self, slotEntry, RedisTree.set_empty_self, Option.map_some]
      · rw [Function.update_of_ne fun slots => same (Slot.empty.inj slots), slotEntry,
          RedisTree.set_empty_other store hash same, slotEntry]
  | _ => rfl

theorem set_root_entry (store : RedisTree.Store) (root : Hex64) :
    slotEntry json { store with root := some root } =
      Function.update (slotEntry json store) .root (some ⟨root.text, none⟩) := by
  funext slot
  cases slot <;> rfl

theorem set_size_entry (store : RedisTree.Store) (size : Nat) :
    slotEntry json { store with size := some size } =
      Function.update (slotEntry json store) .size (some ⟨toString size, none⟩) := by
  funext slot
  cases slot <;> rfl

theorem set_tree_entry (poolAddress : String) {store : RedisTree.Store} {slot : Slot}
    {entry : Option Entry}
    (changed : slotEntry json store =
      Function.update (slotEntry json (stores.tree poolAddress)) slot entry) :
    (stores.setTree poolAddress store).entry json =
      Function.update (stores.entry json) (.tree poolAddress slot) entry := by
  funext key
  cases key with
  | tree address held =>
      by_cases same : address = poolAddress
      · subst same
        rw [Stores.entry, set_tree_self, changed]
        by_cases slots : held = slot
        · rw [slots, Function.update_self, Function.update_self]
        · rw [Function.update_of_ne slots,
            Function.update_of_ne fun keys => slots (Key.tree.inj keys).2, Stores.entry]
      · rw [Function.update_of_ne fun keys => same (Key.tree.inj keys).1, Stores.entry,
          set_tree_other stores store same, Stores.entry]
  | _ => rfl

theorem set_signature_entry (poolAddress signature : String) :
    (stores.setSignature poolAddress signature).entry json =
      Function.update (stores.entry json) (.lastSignature poolAddress)
        (some ⟨signature, none⟩) := by
  funext key
  cases key with
  | lastSignature address =>
      by_cases same : address = poolAddress
      · rw [same, Function.update_self, Stores.entry, set_signature_self, Option.map_some]
      · rw [Function.update_of_ne fun keys => same (Key.lastSignature.inj keys), Stores.entry,
          set_signature_other stores signature same, Stores.entry]
  | _ => rfl

theorem set_listing_entry (poolAddress : String) (entry : Option Entry) :
    (stores.setListing poolAddress entry).entry json =
      Function.update (stores.entry json) (.commitments poolAddress) entry := by
  funext key
  cases key with
  | commitments address =>
      by_cases same : address = poolAddress
      · rw [same, Function.update_self, Stores.entry, set_listing_self]
      · rw [Function.update_of_ne fun keys => same (Key.commitments.inj keys), Stores.entry,
          set_listing_other stores entry same, Stores.entry]
  | _ => rfl

theorem set_counter_entry (route : Route) (ip : String) (counter : Option RateLimit.Counter) :
    (stores.setCounter route ip counter).entry json =
      Function.update (stores.entry json) (.limiter route ip) (counter.map printCounter) := by
  funext key
  cases key with
  | limiter held address =>
      by_cases same : Key.limiter held address = .limiter route ip
      · obtain ⟨rfl, rfl⟩ := Key.limiter.inj same
        rw [Function.update_self, Stores.entry, set_counter_self]
      · rw [Function.update_of_ne same, Stores.entry, set_counter_other stores counter same,
          Stores.entry]
  | _ => rfl

theorem live_counter (now : Nat) (counter : Option RateLimit.Counter) :
    live now (counter.map printCounter) = (RateLimit.live now counter).map printCounter := by
  rcases counter with _ | ⟨count, _ | expiry⟩
  · rfl
  · rfl
  · simp only [Option.map_some, printCounter, live, RateLimit.live]
    split <;> rfl

/-- A counter that is printed and read back counts on. -/
theorem increment_counter (now : Nat) {counter : Option RateLimit.Counter}
    (small : ∀ held, counter = some held → held.count + 1 < 2 ^ 63) :
    increment now (counter.map printCounter) =
      .ok ((RateLimit.incremented now counter).count,
        printCounter (RateLimit.incremented now counter)) := by
  rw [increment, live_counter]
  rcases present : RateLimit.live now counter with _ | held
  · rw [RateLimit.incremented_new present]
    rfl
  · have room := small held (RateLimit.live_some present)
    have read : integer (printCounter held).value = some (held.count : Int) :=
      integer_printed (Nat.lt_of_succ_lt room)
    have below : (held.count : Int) + 1 < 2 ^ 63 := by omega
    simp only [Option.map_some, read, if_pos below, RateLimit.incremented_held present]
    rfl

theorem expiring_counter (now : Nat) (counter : Option RateLimit.Counter) :
    ((live now (counter.map printCounter)).map fun held =>
        ({ held with expiresAt := some (now + 1000 * 60) } : Entry)) =
      (RateLimit.expiring now 60 counter).map printCounter := by
  rw [live_counter, RateLimit.expiring, Option.map_map, Option.map_map]
  rfl

theorem live_lasting {Value : Type} (now : Nat) (print : Value → String) (stored : Option Value) :
    live now (stored.map fun value => ⟨print value, none⟩) =
      stored.map fun value => ⟨print value, none⟩ := by
  cases stored <;> rfl

/-- What was printed for a slot is read back. -/
theorem tree_replies {left : Nat} (represents : Represents json left redis stores)
    (compress : Hex64 → Hex64 → Hex64) (now : Nat) (poolAddress : String)
    (request : RedisTree.Request) :
    (serveRedis json compress (now, .tree poolAddress request) redis).1 =
      (serveStores compress (now, .tree poolAddress request) stores).1 := by
  have entry : ∀ slot, redis (Key.tree poolAddress slot).text =
      slotEntry json (stores.tree poolAddress) slot := fun slot => represents.entries _
  cases request with
  | getLevel d =>
      change Except.ok (((live now (redis _)).map Entry.value).map
        fun text => (json.fromStr text).getD []) = Except.ok _
      rw [level_key, entry, slotEntry, live_lasting, Option.map_map, Option.map_map]
      refine congrArg _ (Option.map_congr fun level _ => ?_)
      simp only [Function.comp_apply, json.reads, Option.getD_some]
  | getEmpty d =>
      change Except.ok ((live now (redis _)).map Entry.value) = Except.ok _
      rw [empty_key, entry, slotEntry, live_lasting, Option.map_map]
      rfl
  | getRoot =>
      change Except.ok ((live now (redis (Key.tree poolAddress .root).text)).map Entry.value) =
        Except.ok _
      rw [entry, slotEntry, live_lasting, Option.map_map]
      rfl
  | getSize =>
      change Except.ok (((live now (redis (Key.tree poolAddress .size).text)).map
        Entry.value).bind parseUsize) = Except.ok _
      rw [entry, slotEntry, live_lasting, Option.map_map]
      rcases stored : (stores.tree poolAddress).size with _ | size
      · simp only [served, stored]
        rfl
      · simp only [served, stored]
        exact congrArg _ (parse_usize_printed (represents.sizes _ _ stored))
  | _ => rfl

/-- A size is a number of 64 bits. -/
def Fits (timed : Timed) : Prop :=
  ∀ poolAddress size, timed.2 = .tree poolAddress (.setSize size) → size < 2 ^ 64

theorem represents_later {left : Nat} (represents : Represents json (left + 1) redis stores) :
    Represents json left redis stores :=
  ⟨represents.entries, represents.sizes,
    fun route ip counter held => Nat.lt_of_succ_lt (represents.counts route ip counter held),
    Nat.lt_of_succ_lt represents.few⟩

/-- A tree is written to; its size still fits. -/
theorem represents_tree {left : Nat} (represents : Represents json left redis stores)
    {poolAddress : String} {store : RedisTree.Store} {slot : Slot} {entry : Option Entry}
    (changed : slotEntry json store =
      Function.update (slotEntry json (stores.tree poolAddress)) slot entry)
    (size : ∀ size, store.size = some size → size < 2 ^ 64) :
    Represents json left (Function.update redis (Key.tree poolAddress slot).text entry)
      (stores.setTree poolAddress store) := by
  refine ⟨set_entries represents.entries _ (set_tree_entry poolAddress changed), ?_,
    represents.counts, represents.few⟩
  intro address number held
  by_cases same : address = poolAddress
  · subst same
    rw [set_tree_self] at held
    exact size number held
  · rw [set_tree_other stores store same] at held
    exact represents.sizes address number held

theorem represents_listing {left : Nat} (represents : Represents json left redis stores)
    (poolAddress : String) (entry : Option Entry) :
    Represents json left (Function.update redis (Key.commitments poolAddress).text entry)
      (stores.setListing poolAddress entry) :=
  ⟨set_entries represents.entries _ (set_listing_entry poolAddress entry), represents.sizes,
    represents.counts, represents.few⟩

theorem represents_counter {left : Nat} (represents : Represents json left redis stores)
    (route : Route) (ip : String) {counter : Option RateLimit.Counter}
    (small : ∀ held, counter = some held → held.count + left < 2 ^ 63) :
    Represents json left
      (Function.update redis (Key.limiter route ip).text (counter.map printCounter))
      (stores.setCounter route ip counter) := by
  refine ⟨set_entries represents.entries _ (set_counter_entry route ip counter), represents.sizes,
    ?_, represents.few⟩
  intro held address number present
  by_cases same : Key.limiter held address = .limiter route ip
  · obtain ⟨rfl, rfl⟩ := Key.limiter.inj same
    rw [set_counter_self] at present
    exact small number present
  · rw [set_counter_other stores counter same] at present
    exact represents.counts held address number present

theorem tree_writes {left : Nat} (represents : Represents json left redis stores)
    (compress : Hex64 → Hex64 → Hex64) (now : Nat) {poolAddress : String}
    {request : RedisTree.Request} (fits : Fits (now, .tree poolAddress request)) :
    Represents json left (serveRedis json compress (now, .tree poolAddress request) redis).2
      (serveStores compress (now, .tree poolAddress request) stores).2 := by
  have size := represents.sizes poolAddress
  have kept : stores.setTree poolAddress (stores.tree poolAddress) = stores := by
    rw [Stores.setTree, Function.update_eq_self]
  cases request with
  | setLevel d level =>
      change Represents json left (Function.update redis _ _) _
      rw [level_key]
      exact represents_tree represents (set_level_entry _ d level) size
  | setEmpty d hash =>
      change Represents json left (Function.update redis _ _) _
      rw [empty_key]
      exact represents_tree represents (set_empty_entry _ d hash) size
  | setRoot root => exact represents_tree represents (set_root_entry _ root) size
  | setSize number =>
      refine represents_tree represents (set_size_entry _ number) ?_
      intro held same
      exact Option.some.inj same ▸ fits poolAddress number rfl
  | getLevel d | getEmpty d | getRoot | getSize | hash first second =>
      change Represents json left redis (stores.setTree poolAddress (stores.tree poolAddress))
      rw [kept]
      exact represents

/-- `DEL` also names the key that is never set. -/
theorem represents_invalidated {left : Nat} (represents : Represents json left redis stores)
    (poolAddress : String) :
    Represents json left
      (fun text => if text ∈ [(Key.commitments poolAddress).text, (Key.root poolAddress).text]
        then none else redis text)
      (stores.setListing poolAddress none) := by
  have listed := represents_listing represents poolAddress none
  refine ⟨?_, listed.sizes, listed.counts, listed.few⟩
  intro key
  rw [← listed.entries key]
  by_cases cached : key.text = (Key.commitments poolAddress).text
  · rw [cached, Function.update_self, if_pos List.mem_cons_self]
  · rw [Function.update_of_ne cached]
    by_cases unused : key.text = (Key.root poolAddress).text
    · rw [unused, if_pos (List.mem_cons_of_mem _ List.mem_cons_self), represents.entries]
      rfl
    · have apart : key.text ∉ [(Key.commitments poolAddress).text, (Key.root poolAddress).text] :=
        fun member => (List.mem_pair.mp member).elim cached unused
      rw [if_neg apart]

/-- `INCR` answers the count, and the next one still fits. -/
theorem incr_represents {left : Nat} (represents : Represents json (left + 1) redis stores)
    (now : Nat) (route : Route) (ip : String) :
    (run (serve now) (incr (limiterKey route ip)) redis).1 =
        .ok (RateLimit.incremented now (stores.counter route ip)).count ∧
      Represents json left (run (serve now) (incr (limiterKey route ip)) redis).2
        (stores.setCounter route ip
          (some (RateLimit.incremented now (stores.counter route ip)))) := by
  have room := represents.few
  have entry : redis (limiterKey route ip) = (stores.counter route ip).map printCounter :=
    represents.entries (.limiter route ip)
  have counted := increment_counter now fun held present =>
    Nat.lt_of_le_of_lt (Nat.add_le_add_left (Nat.succ_pos left) _)
      (represents.counts route ip held present)
  have answered : serve now (.incr (limiterKey route ip)) redis =
      (.ok ((RateLimit.incremented now (stores.counter route ip)).count : Int),
        Function.update redis (limiterKey route ip)
          (some (printCounter (RateLimit.incremented now (stores.counter route ip))))) := by
    rw [serve, entry, counted]
  have finished : run (serve now) (incr (limiterKey route ip)) redis =
      (.ok (RateLimit.incremented now (stores.counter route ip)).count,
        Function.update redis (limiterKey route ip)
          (some (printCounter (RateLimit.incremented now (stores.counter route ip))))) := by
    rw [incr, run_perform_bind _ answered, if_neg (Int.not_lt.mpr (Int.natCast_nonneg _)),
      Int.toNat_natCast, run_pure]
  have small : ∀ held, some (RateLimit.incremented now (stores.counter route ip)) = some held →
      held.count + left < 2 ^ 63 := by
    intro held same
    obtain rfl := Option.some.inj same
    rcases present : RateLimit.live now (stores.counter route ip) with _ | before
    · rw [RateLimit.incremented_new present]
      exact (Nat.add_comm 1 left).trans_lt room
    · rw [RateLimit.incremented_held present]
      have below := represents.counts route ip before (RateLimit.live_some present)
      change before.count + 1 + left < 2 ^ 63
      omega
  rw [finished]
  exact ⟨rfl, represents_counter (represents_later represents) route ip small⟩

/-- One access: Redis answers as the stores do, and goes on holding what they hold. -/
theorem step_represents {left : Nat} (represents : Represents json (left + 1) redis stores)
    (compress : Hex64 → Hex64 → Hex64) {timed : Timed} (fits : Fits timed) :
    (serveRedis json compress timed redis).1 = (serveStores compress timed stores).1 ∧
      Represents json left (serveRedis json compress timed redis).2
        (serveStores compress timed stores).2 := by
  have later := represents_later represents
  obtain ⟨now, access⟩ := timed
  cases access with
  | tree poolAddress request =>
      exact ⟨tree_replies represents compress now poolAddress request,
        tree_writes later compress now fits⟩
  | getLastSignature poolAddress =>
      refine ⟨?_, later⟩
      change Except.ok ((live now (redis (Key.lastSignature poolAddress).text)).map Entry.value) =
        Except.ok _
      rw [represents.entries, Stores.entry, live_lasting, Option.map_map]
      exact congrArg _ (Option.map_id_fun' ▸ rfl)
  | setLastSignature poolAddress signature =>
      exact ⟨rfl, set_entries later.entries _ (set_signature_entry poolAddress signature),
        later.sizes, later.counts, later.few⟩
  | getCommitments poolAddress =>
      refine ⟨?_, later⟩
      change Except.ok ((live now (redis (Key.commitments poolAddress).text)).map Entry.value) =
        Except.ok _
      rw [represents.entries]
      rfl
  | setCommitments poolAddress response =>
      exact ⟨rfl, represents_listing later poolAddress _⟩
  | invalidatePool poolAddress => exact ⟨rfl, represents_invalidated later poolAddress⟩
  | incr route ip => exact incr_represents represents now route ip
  | expire route ip =>
      refine ⟨rfl, ?_⟩
      change Represents json left (Function.update redis _ ((live now (redis
        (Key.limiter route ip).text)).map fun held =>
          ({ held with expiresAt := some (now + 1000 * 60) } : Entry))) _
      rw [represents.entries, Stores.entry, expiring_counter]
      refine represents_counter later route ip ?_
      intro held present
      obtain ⟨before, stored, count, _⟩ := RateLimit.expiring_some present
      rw [count]
      exact later.counts route ip before stored

theorem empty_represents {left : Nat} (few : left < 2 ^ 63) :
    Represents json left (fun _ => none) Stores.empty := by
  refine ⟨?_, nofun, nofun, few⟩
  intro key
  cases key with
  | tree poolAddress slot => cases slot <;> rfl
  | _ => rfl

end Represents

/-- Whatever trees, cursors, lists and limiters of any pools and addresses do with one Redis
and in whichever order, each of them is answered as it would be if the others did nothing
and it had the store its module describes; and its keys end up holding what that store holds. -/
theorem redis_separates (json : Json) (compress : Hex64 → Hex64 → Hex64) (accesses : List Timed)
    (few : accesses.length < 2 ^ 63) (fits : ∀ timed ∈ accesses, Fits timed) (owner : Owner) :
    (answers (serveRedis json compress) accesses fun _ => none).filter
          (fun answered => answered.1.2.owner = owner) =
        answers (serveStores compress) (own (fun timed => timed.2.owner) owner accesses)
          Stores.empty ∧
      ∀ key : Key, key.owner = owner →
        after (serveRedis json compress) accesses (fun _ => none) key.text =
          (after (serveStores compress) (own (fun timed => timed.2.owner) owner accesses)
            Stores.empty).entry json key := by
  have none_yet : Agree owner.keys (fun _ => none : Redis) (fun _ => none) := fun _ _ => rfl
  have alone := answers_own keys_apart (access_local json compress) owner accesses none_yet
  have short : (own (fun timed : Timed => timed.2.owner) owner accesses).length < 2 ^ 63 :=
    Nat.lt_of_le_of_lt (List.length_filter_le _ _) few
  have allowed : ∀ timed ∈ own (fun timed : Timed => timed.2.owner) owner accesses, Fits timed :=
    fun timed member => fits timed (List.mem_of_mem_filter member)
  have held := answers_related (serveRedis json compress)
    (fun left timed redis stores fitting represents =>
      step_represents represents compress fitting) allowed (empty_represents short)
  refine ⟨alone.1.trans held.1, ?_⟩
  intro key mine
  rw [alone.2 key.text ⟨key, mine, rfl⟩]
  exact held.2.entries key

/-! A pool whose address looks like a key of another one. -/
section Sample

def quoted (text : String) : List Char := '"' :: text.toList ++ ['"']

def itemsText (texts : List String) : List Char := texts.flatMap fun text => ',' :: quoted text

/-- An array without blanks; the comma in front of its first text is left out. -/
def arrayText : List String → String
  | [] => "[]"
  | first :: rest => String.ofList ('[' :: quoted first ++ itemsText rest ++ [']'])

/-- Texts in quotes, each behind a comma, as far as the bracket. -/
def readItems : (fuel : Nat) → List Char → Option (List String)
  | _, [']'] => some []
  | fuel + 1, ',' :: '"' :: rest =>
      match rest.span (· != '"') with
      | (text, '"' :: behind) => (readItems fuel behind).map (String.ofList text :: ·)
      | _ => none
  | _, _ => none

def readArray (text : String) : Option (List String) :=
  match text.toList with
  | ['[', ']'] => some []
  | '[' :: items => readItems items.length (',' :: items)
  | _ => none

theorem span_quoted {text behind : List Char} (plain : '"' ∉ text) :
    (text ++ '"' :: behind).span (· != '"') = (text, '"' :: behind) := by
  have inside : ∀ symbol ∈ text, (symbol != '"') = true :=
    fun symbol member => bne_iff_ne.mpr fun same => plain (same ▸ member)
  rw [List.span_eq_takeWhile_dropWhile, List.takeWhile_append_of_pos inside,
    List.dropWhile_append_of_pos inside, List.takeWhile_cons_of_neg (by decide),
    List.dropWhile_cons_of_neg (by decide), List.append_nil]

theorem read_items {texts : List String} (plain : ∀ text ∈ texts, '"' ∉ text.toList) {fuel : Nat}
    (enough : texts.length ≤ fuel) : readItems fuel (itemsText texts ++ [']']) = some texts := by
  induction texts generalizing fuel with
  | nil => cases fuel <;> rfl
  | cons text rest ih =>
      cases fuel with
      | zero => exact absurd enough (Nat.not_succ_le_zero _)
      | succ fuel =>
          have opened : itemsText (text :: rest) ++ [']'] =
              ',' :: '"' :: (text.toList ++ '"' :: (itemsText rest ++ [']'])) := by
            simp [itemsText, quoted]
          rw [opened, readItems, span_quoted (plain text List.mem_cons_self)]
          simp only [ih (fun later member => plain later (List.mem_cons_of_mem _ member))
            (Nat.le_of_succ_le_succ enough), Option.map_some, String.ofList_toList]

theorem hex_plain (hash : Hex64) : '"' ∉ hash.text.toList := by
  intro member
  have digit := List.all_eq_true.mp hash.digits _ member
  exact absurd digit (by decide)

theorem items_length (texts : List String) : texts.length ≤ (itemsText texts).length := by
  induction texts with
  | nil => exact Nat.le_refl 0
  | cons text rest ih =>
      simp only [itemsText, List.flatMap_cons, List.length_append, List.length_cons] at ih ⊢
      omega

theorem read_array {texts : List String} (plain : ∀ text ∈ texts, '"' ∉ text.toList) :
    readArray (arrayText texts) = some texts := by
  cases texts with
  | nil => rfl
  | cons first rest =>
      have items : (arrayText (first :: rest)).toList =
          '[' :: (quoted first ++ itemsText rest ++ [']']) := by
        rw [arrayText, String.toList_ofList]
        rfl
      have commas : ',' :: (quoted first ++ itemsText rest ++ [']']) =
          itemsText (first :: rest) ++ [']'] := by
        simp [itemsText]
      have enough : (first :: rest).length ≤ (quoted first ++ itemsText rest ++ [']']).length := by
        have some' := items_length rest
        simp only [List.length_append, List.length_cons, quoted]
        omega
      rw [readArray, items]
      exact (congrArg _ commas).trans (read_items plain enough)

def sampleJson : Json where
  toString := arrayText
  fromStr := readArray
  reads hashes := read_array fun _ member => by
    obtain ⟨hash, _, rfl⟩ := List.mem_map.mp member
    exact hex_plain hash

/-- The second pool's address looks like the first part of a key of the first one. -/
def hostileAccesses : List Timed :=
  [(0, .tree "pool" (.setLevel 0 [emptyLeaf])), (1, .tree "pool:level:0" (.setRoot emptyLeaf)),
    (2, .incr .read "pool"), (3, .invalidatePool "pool"), (4, .tree "pool" (.getLevel 0)),
    (5, .tree "pool" .getRoot)]

theorem hostile_address :
    ((answers (serveRedis sampleJson fun left _ => left) hostileAccesses fun _ => none).filter
      fun answered => answered.1.2.owner = .tree "pool") =
        [⟨(0, .tree "pool" (.setLevel 0 [emptyLeaf])), .ok ()⟩,
          ⟨(4, .tree "pool" (.getLevel 0)), .ok (some [emptyLeaf.text])⟩,
          ⟨(5, .tree "pool" .getRoot), .ok none⟩] := by
  have fits : ∀ timed ∈ hostileAccesses, Fits timed := by
    intro timed member poolAddress size same
    simp only [hostileAccesses, List.mem_cons, List.not_mem_nil, or_false] at member
    rcases member with rfl | rfl | rfl | rfl | rfl | rfl <;> cases same
  exact (redis_separates sampleJson (fun left _ => left) hostileAccesses (by decide) fits
    (.tree "pool")).1

end Sample

end PrivateTransfer.SharedRedis
