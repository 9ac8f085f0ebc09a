import Mathlib.Data.List.TakeWhile
import PrivateTransfer.Base64
import PrivateTransfer.PoolState

/-!
Events as the program writes them to the transaction log and as
`backend/src/indexer.rs` reads them back: a line `Program data: ..` with the
Base64 of a discriminator and the fields, recognised by the number of bytes.
-/

namespace PrivateTransfer.EventLog

open PoolState

/-! The writing side, from `events.rs` and the generated event codecs. -/
section Emitting

def depositEventDiscriminator : List UInt8 := [120, 248, 61, 83, 31, 142, 107, 144]

def withdrawEventDiscriminator : List UInt8 := [22, 9, 133, 26, 160, 44, 71, 192]

/-- The eight bytes of a word, least significant first. -/
def leBytes (word : UInt64) : List UInt8 := (BigEndian.digits 8 word.toNat).reverse

def eventBytes : Event → List UInt8
  | .deposit event =>
      depositEventDiscriminator ++ event.commitment.toList ++ leBytes event.leafIndex ++
        leBytes event.timestamp.toUInt64 ++ event.newRoot.toList
  | .withdraw event =>
      withdrawEventDiscriminator ++ event.nullifierHash.toList ++ event.recipient.toList ++
        leBytes event.timestamp.toUInt64

def eventLine (event : Event) : String :=
  "Program data: " ++ String.ofList (Base64.encode (eventBytes event))

end Emitting

/-! String functions of the reading side. -/
section Text

/-- `char::is_whitespace`. -/
def isWhitespace (char : Char) : Bool :=
  let code := char.toNat
  (9 ≤ code && code ≤ 13) || code == 0x20 || code == 0x85 || code == 0xA0 || code == 0x1680 ||
    (0x2000 ≤ code && code ≤ 0x200A) || code == 0x2028 || code == 0x2029 || code == 0x202F ||
    code == 0x205F || code == 0x3000

def trim (text : List Char) : List Char :=
  ((text.dropWhile isWhitespace).reverse.dropWhile isWhitespace).reverse

/-- `replace(pattern, "")`, with `skip` characters of a match still to drop. -/
def removeFrom (pattern : List Char) : (skip : Nat) → List Char → List Char
  | _, [] => []
  | skip + 1, _ :: rest => removeFrom pattern skip rest
  | 0, char :: rest =>
      if pattern.isPrefixOf (char :: rest) then removeFrom pattern (pattern.length - 1) rest
      else char :: removeFrom pattern 0 rest

def remove (pattern text : List Char) : List Char := removeFrom pattern 0 text

theorem trim_free {text : List Char} (free : ∀ char ∈ text, isWhitespace char = false) :
    trim text = text := by
  have kept : ∀ {chars : List Char}, (∀ char ∈ chars, isWhitespace char = false) →
      chars.dropWhile isWhitespace = chars := by
    intro chars free
    rw [List.dropWhile_eq_self_iff]
    intro inside
    simp [free _ (List.getElem_mem inside)]
  rw [trim, kept free, kept (fun char member => free char (List.mem_reverse.mp member)),
    List.reverse_reverse]

/-- A text without one of the pattern's characters has no match. -/
theorem remove_free {pattern text : List Char} {char : Char} (needed : char ∈ pattern)
    (free : char ∉ text) : remove pattern text = text := by
  induction text with
  | nil => rfl
  | cons first rest ih =>
      have unmatched : ¬ pattern.isPrefixOf (first :: rest) = true := by
        intro found
        exact free ((List.isPrefixOf_iff_prefix.mp found).subset needed)
      have later := ih (fun member => free (List.mem_cons_of_mem _ member))
      rw [remove] at later ⊢
      rw [removeFrom, if_neg unmatched, later]

theorem remove_skip (pattern front text : List Char) :
    removeFrom pattern front.length (front ++ text) = remove pattern text := by
  induction front with
  | nil => rfl
  | cons char rest ih => exact ih

theorem remove_front (char : Char) (rest text : List Char) :
    remove (char :: rest) (char :: rest ++ text) = remove (char :: rest) text := by
  have found : (char :: rest).isPrefixOf (char :: rest ++ text) = true :=
    List.isPrefixOf_iff_prefix.mpr (List.prefix_append _ _)
  rw [remove, List.cons_append, removeFrom, ← List.cons_append, if_pos found]
  exact remove_skip (char :: rest) rest text

end Text

section Reading

/-- What `process_transaction` takes out of a log line. -/
inductive Payload where
  | deposit (leafIndex : Int64) (commitment newRoot : Bytes32)
  | withdraw (nullifierHash : Bytes32) (recipient : Pubkey)
  deriving DecidableEq

/-- `bytes[start..start + 32]`. -/
def slice32 (bytes : List UInt8) (start : Nat) : Bytes32 :=
  Vector.ofFn fun i => bytes.getD (start + i.val) 0

/-- `i64::from_le_bytes(bytes[start..start + 8])`. -/
def i64At (bytes : List UInt8) (start : Nat) : Int64 :=
  (UInt64.ofNat (BigEndian.value ((bytes.drop start).take 8).reverse)).toInt64

/-- Only the number of bytes is looked at, not the discriminator. -/
def payloadOf (bytes : List UInt8) : Option Payload :=
  if bytes.length = 88 then
    some (.deposit (i64At bytes 40) (slice32 bytes 8) (slice32 bytes 56))
  else if bytes.length = 80 then
    some (.withdraw (slice32 bytes 8) (slice32 bytes 40))
  else none

def parseLog (log : String) : Option Payload :=
  if "Program data:".toList.isPrefixOf log.toList then do
    let b64 := trim (remove "Program data: ".toList log.toList)
    let bytes ← Base64.decode b64
    payloadOf bytes
  else none

/-- What the program's own event reads as. -/
def Payload.ofEvent : Event → Payload
  | .deposit event => .deposit event.leafIndex.toInt64 event.commitment event.newRoot
  | .withdraw event => .withdraw event.nullifierHash event.recipient

end Reading

/-! What the program writes is read back as it was. -/
section RoundTrip

@[simp] theorem le_bytes_length (word : UInt64) : (leBytes word).length = 8 := by
  rw [leBytes, List.length_reverse, BigEndian.digits_length]

theorem slice_middle (before after : List UInt8) {bytes : List UInt8} {start : Nat} (word : Bytes32)
    (layout : bytes = before ++ word.toList ++ after) (width : before.length = start) :
    slice32 bytes start = word := by
  subst layout width
  apply Vector.ext
  intro i inside
  have within : i < word.toList.length := by rwa [Vector.length_toList]
  rw [slice32, Vector.getElem_ofFn, List.append_assoc, List.getD_eq_getElem?_getD,
    List.getElem?_append_right (Nat.le_add_right _ _), Nat.add_sub_cancel_left,
    List.getElem?_append_left within, List.getElem?_eq_getElem within, Option.getD_some,
    Vector.getElem_toList]

theorem i64_middle {before after bytes : List UInt8} {start : Nat} (word : UInt64)
    (layout : bytes = before ++ leBytes word ++ after) (width : before.length = start) :
    i64At bytes start = word.toInt64 := by
  subst layout width
  have bound : word.toNat % 256 ^ 8 = word.toNat := Nat.mod_eq_of_lt word.toNat_lt
  have eight : ((before ++ leBytes word ++ after).drop before.length).take 8 = leBytes word := by
    rw [List.append_assoc, List.drop_left, List.take_left' (le_bytes_length word)]
  rw [i64At, eight, leBytes, List.reverse_reverse, BigEndian.value_digits, bound,
    UInt64.ofNat_toNat]

theorem payload_event (event : Event) : payloadOf (eventBytes event) = some (.ofEvent event) := by
  cases event with
  | deposit event =>
      have length : (eventBytes (.deposit event)).length = 88 := by
        simp [eventBytes, depositEventDiscriminator]
      have index : i64At (eventBytes (.deposit event)) 40 = event.leafIndex.toInt64 := by
        refine i64_middle event.leafIndex (List.append_assoc _ _ _) ?_
        simp [depositEventDiscriminator]
      have commitment : slice32 (eventBytes (.deposit event)) 8 = event.commitment := by
        refine slice_middle depositEventDiscriminator (leBytes event.leafIndex ++
          leBytes event.timestamp.toUInt64 ++ event.newRoot.toList) event.commitment ?_ rfl
        simp only [eventBytes, List.append_assoc]
      have root : slice32 (eventBytes (.deposit event)) 56 = event.newRoot := by
        refine slice_middle _ [] event.newRoot (List.append_nil _).symm ?_
        simp [depositEventDiscriminator]
      rw [payloadOf, if_pos length, index, commitment, root]
      rfl
  | withdraw event =>
      have length : (eventBytes (.withdraw event)).length = 80 := by
        simp [eventBytes, withdrawEventDiscriminator]
      have nullifier : slice32 (eventBytes (.withdraw event)) 8 = event.nullifierHash := by
        refine slice_middle withdrawEventDiscriminator (event.recipient.toList ++
          leBytes event.timestamp.toUInt64) event.nullifierHash ?_ rfl
        simp only [eventBytes, List.append_assoc]
      have recipient : slice32 (eventBytes (.withdraw event)) 40 = event.recipient := by
        refine slice_middle _ _ event.recipient rfl ?_
        simp [withdrawEventDiscriminator]
      rw [payloadOf, length, if_neg (by decide), if_pos rfl, nullifier, recipient]
      rfl

/-- The symbols of Base64 are neither blank nor those of the line's label. -/
theorem symbol_plain {char : Char} (symbol : Base64.isSymbol char = true) :
    isWhitespace char = false ∧ char ≠ ' ' := by
  obtain ⟨low, high⟩ := Base64.symbol_range symbol
  constructor
  · simp only [isWhitespace, Bool.or_eq_false_iff, Bool.and_eq_false_iff, decide_eq_false_iff_not,
      beq_eq_false_iff_ne]
    omega
  · rintro rfl
    exact absurd low (by decide)

theorem parse_event (event : Event) : parseLog (eventLine event) = some (.ofEvent event) := by
  have symbols := Base64.encode_symbols (eventBytes event)
  have line : (eventLine event).toList =
      "Program data: ".toList ++ Base64.encode (eventBytes event) := by
    rw [eventLine, String.toList_append, String.toList_ofList, String.toList_ofList]
  have labelled : "Program data:".toList.isPrefixOf (eventLine event).toList = true := by
    rw [line]
    exact List.isPrefixOf_iff_prefix.mpr (List.prefix_append "Program data:".toList (' ' :: _))
  have free : ' ' ∉ Base64.encode (eventBytes event) :=
    fun member => (symbol_plain (symbols _ member)).2 rfl
  have stripped : trim (remove "Program data: ".toList (eventLine event).toList) =
      Base64.encode (eventBytes event) := by
    rw [line]
    -- `replace` would take off a second label, but no symbol is a blank
    have front := remove_front 'P' "rogram data: ".toList (Base64.encode (eventBytes event))
    have rest : remove "Program data: ".toList (Base64.encode (eventBytes event)) = _ :=
      remove_free (by decide) free
    exact (congrArg trim (front.trans rest)).trans
      (trim_free fun char member => (symbol_plain (symbols char member)).1)
  rw [parseLog, if_pos labelled]
  simp only [stripped, Base64.decode_encode, Option.bind_eq_bind, Option.bind_some, payload_event]

end RoundTrip

end PrivateTransfer.EventLog
