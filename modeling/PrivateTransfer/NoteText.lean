import Mathlib.Data.List.TakeWhile
import PrivateTransfer.DepositClient

/-!
The text of a deposit note: `copyNote` of `DepositForm.vue` and `copyAll` of
`DepositNote.vue` print it, `handleWithdraw` of `WithdrawForm.vue` reads it and
`withdraw` of `useWithdraw.ts` takes it to the circuit. The form reads the first two
lines only; its amount is a constant of its own.
-/

namespace PrivateTransfer.NoteText

open ClientHex DepositClient MerkleService

/-! What the language does with text. -/
section Text

/-- `text.replace(pattern, "")`: the first occurrence goes. -/
def removeFirst (pattern : List Char) : List Char → List Char
  | [] => []
  | char :: rest =>
      if pattern.isPrefixOf (char :: rest) then (char :: rest).drop pattern.length
      else char :: removeFirst pattern rest

/-- White space and line terminators. -/
def isSpace (char : Char) : Bool :=
  (9 ≤ char.toNat && char.toNat ≤ 13) || (0x2000 ≤ char.toNat && char.toNat ≤ 0x200a) ||
    [0x20, 0xa0, 0x1680, 0x2028, 0x2029, 0x202f, 0x205f, 0x3000, 0xfeff].contains char.toNat

def trim (text : List Char) : List Char :=
  ((text.dropWhile isSpace).reverse.dropWhile isSpace).reverse

/-- `text.replace(/^0x/, "")`. -/
def dropHexPrefix (text : List Char) : List Char :=
  if ['0', 'x'].isPrefixOf text then text.drop 2 else text

def lowerCase (text : List Char) : List Char := text.map Char.toLower

theorem remove_first_label {label : List Char} (some : label ≠ []) (rest : List Char) :
    removeFirst label (label ++ rest) = rest := by
  cases label with
  | nil => exact absurd rfl some
  | cons first label =>
      rw [List.cons_append, removeFirst, if_pos]
      · rw [← List.cons_append, List.drop_left]
      · rw [List.isPrefixOf_iff_prefix]
        exact List.prefix_append (first :: label) rest

theorem drop_while_none {text : List Char} (solid : ∀ char ∈ text, isSpace char = false) :
    text.dropWhile isSpace = text := by
  rw [List.dropWhile_eq_self_iff]
  intro inside
  simp [solid _ (List.getElem_mem inside)]

theorem trim_solid {text : List Char} (solid : ∀ char ∈ text, isSpace char = false) :
    trim text = text := by
  rw [trim, drop_while_none solid, drop_while_none, List.reverse_reverse]
  intro char member
  exact solid char (List.mem_reverse.mp member)

theorem trim_some {text : List Char} {char : Char} (member : char ∈ text)
    (solid : isSpace char = false) : trim text ≠ [] := by
  intro empty
  have spaces : ∀ other ∈ text.dropWhile isSpace, isSpace other = true := fun other inside =>
    List.dropWhile_eq_nil_iff.mp (List.reverse_eq_nil_iff.mp empty) other
      (List.mem_reverse.mpr inside)
  rw [← List.takeWhile_append_dropWhile (p := isSpace) (l := text), List.mem_append] at member
  rcases member with front | back
  · exact Bool.false_ne_true (solid.symm.trans (List.mem_takeWhile_imp front))
  · exact Bool.false_ne_true (solid.symm.trans (spaces char back))

theorem hex_char_solid : ∀ digit < 16,
    isSpace (hexChar digit) = false ∧ hexChar digit ≠ 'x' := by decide

theorem hex_solid (bytes : List UInt8) : ∀ char ∈ (bytesToHex bytes).toList,
    isSpace char = false ∧ char ≠ 'x' := by
  intro char member
  rw [bytesToHex, String.toList_ofList] at member
  obtain ⟨byte, _, member⟩ := List.mem_flatMap.mp member
  obtain ⟨high, low⟩ := byte_halves byte
  rcases List.mem_pair.mp member with rfl | rfl
  · exact hex_char_solid _ high
  · exact hex_char_solid _ low

theorem hex_trim (bytes : List UInt8) :
    trim (bytesToHex bytes).toList = (bytesToHex bytes).toList :=
  trim_solid fun char member => (hex_solid bytes char member).1

theorem hex_prefix (bytes : List UInt8) :
    dropHexPrefix (bytesToHex bytes).toList = (bytesToHex bytes).toList := by
  rw [dropHexPrefix, if_neg]
  intro opens
  obtain ⟨rest, whole⟩ := List.isPrefixOf_iff_prefix.mp opens
  have member : 'x' ∈ (bytesToHex bytes).toList := by simp [← whole]
  exact (hex_solid bytes 'x' member).2 rfl

end Text

/-! The two printers, with an amount printed as the decimal number it is. -/
section Printers

def decimals (count number : Nat) : List Char :=
  (List.range count).reverse.map fun k => Nat.digitChar (number / 10 ^ k % 10)

/-- Digits behind a point, without the zeros at the end. -/
def fractionText (digits : List Char) : String :=
  let kept := (digits.reverse.dropWhile (· == '0')).reverse
  if kept = [] then "" else "." ++ String.ofList kept

/-- `amount / 1_000_000_000` as text; below `1e-6` a number is printed with an exponent. Up to
2^23 SOL doubles lie closer together than lamports, and the shortest digits are these. -/
def solText (lamports : Nat) : String :=
  let digits := Nat.toDigits 10 lamports
  if lamports ≠ 0 ∧ digits.length ≤ 3 then
    String.ofList (digits.take 1) ++ fractionText (digits.drop 1) ++
      "e-" ++ toString (10 - digits.length)
  else
    toString (lamports / 1_000_000_000) ++
      fractionText (decimals 9 (lamports % 1_000_000_000))

/-- The whole number nearest to a fraction, on a tie the even one. -/
def nearest (numerator denominator : Nat) : Nat :=
  let below := numerator / denominator
  let beyond := numerator % denominator
  if 2 * beyond < denominator ∨ (2 * beyond = denominator ∧ below % 2 = 0) then below
  else below + 1

/-- `numerator / denominator` as the double nearest to it, over a power of two. -/
def quotient (numerator denominator : Nat) : Nat × Nat :=
  let scale := 2 ^ (54 + denominator.log2)
  let unit := 2 ^ ((numerator * scale / denominator).log2 - 52)
  (nearest (numerator * scale) (denominator * unit) * unit, scale)

/-- `(amount / 1_000_000_000).toFixed(4)` below `1e21`: the double is rounded, half up. -/
def solFixed (lamports : Nat) : String :=
  let sol := quotient lamports 1_000_000_000
  let rounded := (2 * 10_000 * sol.1 + sol.2) / (2 * sol.2)
  toString (rounded / 10_000) ++ "." ++ String.ofList (decimals 4 (rounded % 10_000))

-- the double below 0.01005
example : solFixed 10_050_000 = "0.0100" ∧ solFixed 10_150_000 = "0.0101" := by decide +kernel

def copyNote (note : DepositNote) : String :=
  "Nullifier Secret: " ++ note.nullifierSecret ++ "\nSecret: " ++ note.secret ++
    "\nAmount: " ++ solText note.amount ++ " SOL\nCommitment: " ++ note.commitment

def copyAll (note : DepositNote) : String :=
  "=== DEPOSIT NOTE ===\n" ++ "Nullifier Secret: " ++ note.nullifierSecret ++ "\n" ++
    "Secret: " ++ note.secret ++ "\n" ++ "Amount: " ++ solFixed note.amount ++ " SOL\n" ++
    "Commitment: " ++ note.commitment ++ "\n" ++ "Nullifier Hash: " ++ note.nullifierHash ++
    "\n" ++ "====================="

inductive Copy where
  | depositForm
  | depositNote
  deriving DecidableEq

def Copy.text : Copy → DepositNote → String
  | depositForm => copyNote
  | depositNote => copyAll

end Printers

section Withdraw
variable (poseidon2Permutation : Vector Field 4 → Vector Field 4)

structure ProofResponse where
  proof : List String
  isEven : List Bool
  root : String

/-- The wallet, the store of notes and what the services answer. -/
structure Environment where
  connected : Bool
  notes : List DepositNote
  hashes : Except String Unit
  commitments : Except String (List CommitmentEntry)
  proof : Nat → Except String ProofResponse
  publicKey : String → Except String Bytes32

/-- What `generateWithdrawalWitness` runs the circuit with. -/
structure WitnessInputs where
  root : List UInt8
  nullifierHash : Bytes32
  recipient : Bytes32
  amount : Nat
  nullifierSecret : List UInt8
  secret : List UInt8
  merkleProof : List (List UInt8)
  isEven : List Bool

def orError {Value : Type} (message : String) : Option Value → Except String Value
  | some value => .ok value
  | none => .error message

def fieldOfBytes (bytes : List UInt8) : Field := Fin.ofNat bn254Modulus (BigEndian.value bytes)

/-- `noir.execute` takes only numbers below the modulus for a field, and some digits. -/
def computeNullifierHash (nullifierSecret : List UInt8) : Option Bytes32 :=
  if nullifierSecret ≠ [] ∧ BigEndian.value nullifierSecret < bn254Modulus then
    some (bytesOf (Circuit.hash1 poseidon2Permutation (fieldOfBytes nullifierSecret)))
  else none

def sameHex (commitment : String) (bytes : List UInt8) : Bool :=
  lowerCase (bytesToHex bytes).toList == lowerCase (dropHexPrefix commitment.toList)

/-- `withdraw` as far as the circuit. -/
def withdraw (environment : Environment) (nullifierSecretHex secretHex : String)
    (amountLamports : Nat) (recipientAddress : String) : Except String WitnessInputs := do
  let _ ← orError "Wallet not connected" (if environment.connected then some () else none)
  let nullifierSecret ← orError "invalid hex" (hexToBytes nullifierSecretHex)
  let _ ← environment.hashes
  let nullifierHash ← orError "not a field element"
    (computeNullifierHash poseidon2Permutation nullifierSecret)
  let note ← orError "Deposit note not found in local storage"
    (environment.notes.find? fun note => note.nullifierHash == bytesToHex nullifierHash.toList)
  let _ ← orError "This deposit has already been withdrawn" (if note.used then none else some ())
  let entries ← environment.commitments
  let sortedCommitments ← orError "invalid hex" (existingCommitments entries)
  let _ ← orError "No commitments in database" sortedCommitments.head?
  let leafIndex ← orError "Your commitment not found in pool"
    (sortedCommitments.findIdx? (sameHex note.commitment))
  let proofResponse ← environment.proof leafIndex
  let merkleProof ← orError "invalid hex" (proofResponse.proof.mapM hexToBytes)
  let latestRoot ← orError "invalid hex" (hexToBytes proofResponse.root)
  let recipient ← environment.publicKey recipientAddress
  let secret ← orError "invalid hex" (hexToBytes secretHex)
  -- neither the commitment of these secrets nor the amount is compared with the note
  .ok
    { root := latestRoot, nullifierHash := nullifierHash
      recipient := WithdrawClient.reduceToField recipient, amount := amountLamports
      nullifierSecret := nullifierSecret, secret := secret, merkleProof := merkleProof
      isEven := proofResponse.isEven }

/-- The form's `ref(0.01)`, which no input is bound to, in lamports. -/
def formAmount : Nat := 10_000_000

/-- A line without its label, or nothing where there is no such line. -/
def lineAt (text : String) (index : Nat) (label : String) : String :=
  match (text.toList.splitOn '\n')[index]? with
  | some line => String.ofList (trim (removeFirst label.toList line))
  | none => ""

/-- What the circuit is run with, if it is. Errors are only logged. -/
def handleWithdraw (environment : Environment) (nullifierNote recipient : String) :
    Option WitnessInputs :=
  if trim nullifierNote.toList ≠ [] ∧ trim recipient.toList ≠ [] ∧
      environment.connected = true then
    (withdraw poseidon2Permutation environment (lineAt nullifierNote 0 "Nullifier Secret: ")
      (lineAt nullifierNote 1 "Secret: ") formAmount recipient).toOption
  else none

/-- A note that some deposit ends with. -/
def Created (note : DepositNote) : Prop :=
  ∃ weather config amount draft id, Signs poseidon2Permutation weather config amount draft ∧
    note = noteOf draft id config.now

/-- The circuit is run with the note's secrets and amount, and they open its commitment. -/
structure Exact (inputs : WitnessInputs) (note : DepositNote) : Prop where
  nullifierSecret : bytesToHex inputs.nullifierSecret = note.nullifierSecret
  secret : bytesToHex inputs.secret = note.secret
  amount : inputs.amount = note.amount
  opens : bytesToHex (bytesOf (Circuit.hash3 poseidon2Permutation
    (fieldOfBytes inputs.nullifierSecret) (fieldOfBytes inputs.secret)
    (Fin.ofNat bn254Modulus inputs.amount))).toList = note.commitment

def RoundTrips (environment : Environment) (recipient : String) (note : DepositNote)
    (copy : Copy) : Prop :=
  ∃ inputs, handleWithdraw poseidon2Permutation environment (copy.text note) recipient =
    some inputs ∧ Exact poseidon2Permutation inputs note

end Withdraw

/-- The deposit is stored, unspent and indexed, and the services answer. -/
structure InOrder (environment : Environment) (recipient : String) (note : DepositNote) : Prop where
  connected : environment.connected = true
  named : trim recipient.toList ≠ []
  key : ∃ key, environment.publicKey recipient = .ok key
  loaded : environment.hashes = .ok ()
  stored : environment.notes.find? (fun other => other.nullifierHash == note.nullifierHash) =
    some note
  unused : note.used = false
  listed : ∃ entries commitments, environment.commitments = .ok entries ∧
    existingCommitments entries = some commitments ∧
    ∃ bytes ∈ commitments, bytesToHex bytes = note.commitment
  proved : ∀ leafIndex, ∃ response path root, environment.proof leafIndex = .ok response ∧
    response.proof.mapM hexToBytes = some path ∧ hexToBytes response.root = some root

/-! What the form reads out of either text. -/
section Lines

theorem copy_note_text (note : DepositNote) : ∃ rest, (copyNote note).toList =
    ("Nullifier Secret: ".toList ++ note.nullifierSecret.toList) ++ '\n' ::
      (("Secret: ".toList ++ note.secret.toList) ++ '\n' :: rest) := by
  have second : "\nSecret: ".toList = '\n' :: "Secret: ".toList := by simp
  have third : "\nAmount: ".toList = '\n' :: "Amount: ".toList := by simp
  unfold copyNote
  simp only [String.toList_append, second, third, List.append_assoc, List.cons_append]
  exact ⟨_, rfl⟩

theorem copy_all_text (note : DepositNote) : ∃ rest, (copyAll note).toList =
    "=== DEPOSIT NOTE ===".toList ++ '\n' :: rest := by
  have first : "=== DEPOSIT NOTE ===\n".toList = "=== DEPOSIT NOTE ===".toList ++ ['\n'] := by simp
  unfold copyAll
  simp only [String.toList_append, first, List.append_assoc, List.cons_append, List.nil_append]
  exact ⟨_, rfl⟩

theorem label_plain {label : List Char} (plain : '\n' ∉ label) (bytes : List UInt8) :
    '\n' ∉ label ++ (bytesToHex bytes).toList := by
  rw [List.mem_append]
  rintro (member | member)
  · exact plain member
  · exact absurd (hex_solid bytes '\n' member).1 (by decide)

/-- A label is taken off the hex behind it. -/
theorem label_read {label : List Char} (some : label ≠ []) (bytes : List UInt8) :
    String.ofList (trim (removeFirst label (label ++ (bytesToHex bytes).toList))) =
      bytesToHex bytes := by
  rw [remove_first_label some, hex_trim, String.ofList_toList]

theorem copy_note_read {note : DepositNote} {nullifierSecret secret : List UInt8}
    (first : note.nullifierSecret = bytesToHex nullifierSecret)
    (second : note.secret = bytesToHex secret) :
    lineAt (copyNote note) 0 "Nullifier Secret: " = note.nullifierSecret ∧
      lineAt (copyNote note) 1 "Secret: " = note.secret := by
  obtain ⟨rest, text⟩ := copy_note_text note
  rw [first, second] at text ⊢
  have lines : (copyNote note).toList.splitOn '\n' =
      ("Nullifier Secret: ".toList ++ (bytesToHex nullifierSecret).toList) ::
        ("Secret: ".toList ++ (bytesToHex secret).toList) :: rest.splitOn '\n' := by
    rw [text, List.splitOn_append_cons_self_of_not_mem (label_plain (by decide +kernel) _),
      List.splitOn_append_cons_self_of_not_mem (label_plain (by decide +kernel) _)]
  constructor
  · rw [lineAt, lines]
    exact label_read (by decide +kernel) nullifierSecret
  · rw [lineAt, lines]
    exact label_read (by decide +kernel) secret

/-- The first line of the other text is its heading. -/
theorem copy_all_read (note : DepositNote) :
    hexToBytes (lineAt (copyAll note) 0 "Nullifier Secret: ") = none := by
  obtain ⟨rest, text⟩ := copy_all_text note
  rw [lineAt, text, List.splitOn_append_cons_self_of_not_mem (by decide +kernel)]
  change hexToBytes (String.ofList (trim (removeFirst "Nullifier Secret: ".toList
    "=== DEPOSIT NOTE ===".toList))) = none
  decide +kernel

end Lines

section RoundTrip

/-- A hex text is what it is the hex of. -/
theorem same_hex_iff {bytes other : List UInt8} :
    sameHex (bytesToHex other) bytes = true ↔ bytes = other := by
  have lower : ∀ held : List UInt8, lowerCase (bytesToHex held).toList =
      (bytesToHex held).toList := by
    intro held
    rw [lowerCase, bytesToHex, String.toList_ofList, List.map_flatMap]
    congr 1
    funext byte
    obtain ⟨high, low⟩ := byte_halves byte
    have kept : ∀ digit < 16, (hexChar digit).toLower = hexChar digit := by
      decide
    simp [hexByte, kept _ high, kept _ low]
  rw [sameHex, hex_prefix, lower, lower, beq_iff_eq, String.toList_inj]
  constructor
  · intro same
    have read := congrArg hexToBytes same
    rw [hex_round_trip, hex_round_trip] at read
    exact Option.some.inj read
  · exact congrArg bytesToHex

variable {poseidon2Permutation : Vector Field 4 → Vector Field 4} {environment : Environment}
  {recipient : String} {note : DepositNote}

@[simp] theorem or_error_some {Value Next : Type} (message : String) (value : Value)
    (next : Value → Except String Next) :
    (orError message (some value) >>= next) = next value := rfl

@[simp] theorem ok_bind {Value Next : Type} (value : Value) (next : Value → Except String Next) :
    ((Except.ok value : Except String Value) >>= next) = next value := rfl

/-- The texts of a created note are the hex of its secrets and of what they hash to. -/
theorem created_texts (created : Created poseidon2Permutation note) :
    ∃ nullifierSecret secret : Bytes32,
      note.nullifierSecret = bytesToHex nullifierSecret.toList ∧
      note.secret = bytesToHex secret.toList ∧
      computeNullifierHash poseidon2Permutation nullifierSecret.toList =
        some (bytesOf (Circuit.hash1 poseidon2Permutation (fieldOf nullifierSecret))) ∧
      note.nullifierHash = bytesToHex (bytesOf (Circuit.hash1 poseidon2Permutation
        (fieldOf nullifierSecret))).toList ∧
      note.commitment = bytesToHex (bytesOf (Circuit.hash3 poseidon2Permutation
        (fieldOf nullifierSecret) (fieldOf secret)
        (Fin.ofNat bn254Modulus note.amount))).toList := by
  obtain ⟨weather, config, amount, draft, id, signs, rfl⟩ := created
  obtain ⟨canonical, commits, spends, _⟩ := signs_computed signs
  have full : draft.nullifierSecret.toList ≠ [] :=
    List.ne_nil_of_length_pos (by rw [Vector.length_toList]; decide)
  refine ⟨draft.nullifierSecret, draft.secret, rfl, rfl, if_pos ⟨full, canonical⟩, ?_, ?_⟩
  · exact congrArg (fun hash : Bytes32 => bytesToHex hash.toList) spends
  · exact congrArg (fun hash : Bytes32 => bytesToHex hash.toList) commits

/-- A note in order gets to the circuit with the secrets and the amount it is given. -/
theorem withdraw_runs (inOrder : InOrder environment recipient note)
    {nullifierSecret : List UInt8} {nullifierHash : Bytes32} (secret : List UInt8)
    (hashed : computeNullifierHash poseidon2Permutation nullifierSecret = some nullifierHash)
    (spends : note.nullifierHash = bytesToHex nullifierHash.toList) (amount : Nat) :
    ∃ inputs, withdraw poseidon2Permutation environment (bytesToHex nullifierSecret)
        (bytesToHex secret) amount recipient = .ok inputs ∧
      inputs.nullifierSecret = nullifierSecret ∧ inputs.secret = secret ∧
      inputs.amount = amount := by
  obtain ⟨connected, _, ⟨key, decoded⟩, loaded, stored, unused, ⟨entries, commitments, listed,
    sorted, bytes, member, same⟩, proved⟩ := inOrder
  have found : ∃ leafIndex, commitments.findIdx? (sameHex note.commitment) = some leafIndex := by
    refine Option.ne_none_iff_exists'.mp fun none => ?_
    have differs := List.findIdx?_eq_none_iff.mp none bytes member
    rw [sameHex, ← same, hex_prefix, beq_self_eq_true] at differs
    cases differs
  obtain ⟨leafIndex, index⟩ := found
  obtain ⟨response, path, root, answered, siblings, rooted⟩ := proved leafIndex
  obtain ⟨first, others, rfl⟩ := List.exists_cons_of_ne_nil (List.ne_nil_of_mem member)
  rw [spends] at stored
  unfold withdraw
  simp only [connected, if_true, or_error_some, hex_round_trip, loaded, ok_bind, hashed, stored,
    unused, Bool.false_eq_true, if_false, listed, sorted, List.head?_cons, index, answered,
    siblings, rooted, decoded]
  exact ⟨_, rfl, rfl, rfl, rfl⟩

theorem copy_note_shown (note : DepositNote) : trim (copyNote note).toList ≠ [] := by
  obtain ⟨rest, text⟩ := copy_note_text note
  have member : 'N' ∈ (copyNote note).toList := by
    rw [text]
    exact List.mem_append_left _ (List.mem_append_left _ (by decide +kernel))
  exact trim_some member (by decide)

/-- The short text reaches the circuit, with the amount of the form. -/
theorem copy_note_runs (created : Created poseidon2Permutation note)
    (inOrder : InOrder environment recipient note) :
    ∃ inputs, handleWithdraw poseidon2Permutation environment (copyNote note) recipient =
        some inputs ∧ inputs.amount = formAmount ∧
      (note.amount = formAmount → Exact poseidon2Permutation inputs note) := by
  obtain ⟨nullifierSecret, secret, first, second, hashed, spends, commits⟩ := created_texts created
  obtain ⟨inputs, runs, ownNullifier, ownSecret, amount⟩ :=
    withdraw_runs inOrder secret.toList hashed spends formAmount
  obtain ⟨readFirst, readSecond⟩ := copy_note_read first second
  refine ⟨inputs, ?_, amount, ?_⟩
  · rw [handleWithdraw, if_pos ⟨copy_note_shown note, inOrder.named, inOrder.connected⟩, readFirst,
      readSecond, first, second, runs]
    rfl
  · intro same
    refine ⟨?_, ?_, amount.trans same.symm, ?_⟩
    · rw [ownNullifier, first]
    · rw [ownSecret, second]
    · rw [ownNullifier, ownSecret, amount, ← same, commits]
      rfl

/-- The long text does not. -/
theorem copy_all_refused :
    handleWithdraw poseidon2Permutation environment (copyAll note) recipient = none := by
  rw [handleWithdraw]
  split
  · rename_i valid
    unfold withdraw
    simp only [valid.2.2, if_true, or_error_some, copy_all_read]
    rfl
  · rfl

/-- A created note whose deposit is in order comes back exactly from the short text with the
form's amount. -/
theorem round_trip_iff (poseidon2Permutation : Vector Field 4 → Vector Field 4)
    (environment : Environment) (recipient : String) (note : DepositNote)
    (created : Created poseidon2Permutation note) (inOrder : InOrder environment recipient note)
    (copy : Copy) :
    RoundTrips poseidon2Permutation environment recipient note copy ↔
      copy = .depositForm ∧ note.amount = 10_000_000 := by
  cases copy with
  | depositForm =>
      obtain ⟨inputs, runs, amount, exact⟩ := copy_note_runs created inOrder
      -- the circuit is run in any case, with the form's amount
      constructor
      · rintro ⟨other, ran, own⟩
        cases runs.symm.trans ran
        exact ⟨rfl, own.amount.symm.trans amount⟩
      · rintro ⟨_, same⟩
        exact ⟨inputs, runs, exact same⟩
  | depositNote =>
      constructor
      · rintro ⟨inputs, ran, _⟩
        cases copy_all_refused.symm.trans ran
      · rintro ⟨other, _⟩
        cases other

end RoundTrip

/-! The note of one SOL that the sample deposit makes, with everything in order for it. -/
section Sample
open Poseidon2

def sampleEnvironment (note : DepositNote) : Environment where
  connected := true
  notes := [note]
  hashes := .ok ()
  commitments := .ok [⟨0, note.commitment⟩]
  proof := fun _ => .ok ⟨[], [], ""⟩
  publicKey := fun _ => .ok Bytes32.zero

theorem sample_in_order {note : DepositNote} (created : Created poseidon2Permutation note)
    (unused : note.used = false) : InOrder (sampleEnvironment note) "recipient" note := by
  obtain ⟨nullifierSecret, secret, first, second, hashed, spends, commits⟩ := created_texts created
  constructor
  · rfl
  · decide +kernel
  · exact ⟨_, rfl⟩
  · rfl
  · rw [sampleEnvironment, List.find?_cons_of_pos (by rw [beq_self_eq_true])]
  · exact unused
  · refine ⟨_, _, rfl, ?_, _, List.mem_singleton_self _, commits.symm⟩
    simp [existingCommitments, commits]
  · exact fun _ => ⟨_, [], [], rfl, rfl, rfl⟩

theorem sample_created {amount : Nat} (enough : 10_000_000 ≤ amount)
    (small : amount < bn254Modulus) :
    ∃ note, Created poseidon2Permutation note ∧ note.amount = amount ∧ note.used = false := by
  obtain ⟨draft, signs, same⟩ := unconfirmed_signs enough small
  exact ⟨noteOf draft "" sampleConfig.now, ⟨_, _, _, _, _, signs, rfl⟩, same, rfl⟩

/-- A note of the form's amount. -/
theorem sample_round_trip :
    ∃ note : DepositNote, note.amount = 10_000_000 ∧ ∀ copy,
      RoundTrips poseidon2Permutation (sampleEnvironment note) "recipient" note copy ↔
        copy = .depositForm ∧ note.amount = 10_000_000 := by
  obtain ⟨note, created, amount, unused⟩ := sample_created (Nat.le_refl _) (by decide)
  refine ⟨note, amount, fun copy => ?_⟩
  exact round_trip_iff poseidon2Permutation (sampleEnvironment note) "recipient" note created
    (sample_in_order created unused) copy

/-- A note of one SOL comes back from neither text. -/
theorem one_sol_lost :
    ∃ note environment recipient, Created poseidon2Permutation note ∧
      InOrder environment recipient note ∧
      ∀ copy, ¬ RoundTrips poseidon2Permutation environment recipient note copy := by
  obtain ⟨note, created, amount, unused⟩ :=
    @sample_created 1_000_000_000 (by decide) (by decide)
  have inOrder := sample_in_order created unused
  refine ⟨note, _, _, created, inOrder, ?_⟩
  rintro copy ⟨inputs, ran, own⟩
  cases copy with
  | depositForm =>
      obtain ⟨other, runs, formed, _⟩ := copy_note_runs created inOrder
      cases runs.symm.trans ran
      have clash : 10_000_000 = 1_000_000_000 := formed.symm.trans (own.amount.trans amount)
      exact absurd clash (by decide)
  | depositNote => cases copy_all_refused.symm.trans ran

end Sample

end PrivateTransfer.NoteText
