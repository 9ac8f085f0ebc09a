import PrivateTransfer.Borsh
import PrivateTransfer.WithdrawFlow

/-!
What the backend sees of a withdrawal. `docs/threat-model.md` has the witness stay with the
client and `docs/architecture.md` says why: it holds `nullifierSecret` and `secret`. The
frontend asks for the path of one leaf index and posts the witness.
-/

namespace PrivateTransfer.BackendView

open ClientHex WithdrawFlow
open DepositClient (DepositNote)
open NoteText (Created WitnessInputs created_texts fieldOfBytes)

/-! `generateWithdrawalWitness` of `frontend/src/services/poseidon.ts`. -/
section Witness

abbrev Inputs := Circuit.PublicInputs × Circuit.PrivateInputs

/-- `bytesToFieldHex`, as `noir.execute` reads it. -/
def fieldInput (bytes : List UInt8) : Option Field :=
  if bytes ≠ [] ∧ BigEndian.value bytes < bn254Modulus then some (fieldOfBytes bytes) else none

def amountInput (amount : Nat) : Option Field :=
  if amount < bn254Modulus then some (Fin.ofNat bn254Modulus amount) else none

def sized {Value : Type} (count : Nat) (values : List Value) : Option (Vector Value count) :=
  if full : values.length = count then some ⟨values.toArray, full⟩ else none

/-- Two arrays of twenty and six numbers. -/
def executionInputs (inputs : WitnessInputs) : Option Inputs := do
  let root ← fieldInput inputs.root
  let nullifierHash ← fieldInput inputs.nullifierHash.toList
  let recipient ← fieldInput inputs.recipient.toList
  let amount ← amountInput inputs.amount
  let nullifier ← fieldInput inputs.nullifierSecret
  let secret ← fieldInput inputs.secret
  let siblings ← inputs.merkleProof.mapM fieldInput
  let merkleProof ← sized Circuit.treeDepth siblings
  let isEven ← sized Circuit.treeDepth inputs.isEven
  some (⟨root, nullifierHash, recipient, amount⟩, ⟨nullifier, secret, merkleProof, isEven⟩)

/-- A witness file determines the inputs it was made from. -/
def Determines (world : World) (inputsOf : List UInt8 → Option Inputs) : Prop :=
  ∀ inputs file, world (.execute inputs) = .ok file →
    ∃ given, executionInputs inputs = some given ∧ inputsOf file = some given

theorem field_input_some {bytes : List UInt8} {element : Field}
    (read : fieldInput bytes = some element) :
    BigEndian.value bytes < bn254Modulus ∧ element = fieldOfBytes bytes := by
  rw [fieldInput] at read
  split at read
  · rename_i canonical
    exact ⟨canonical.2, (Option.some.inj read).symm⟩
  · cases read

/-- 32 bytes that pass for a field element are the ones it is written with. -/
theorem field_input_bytes {bytes : Bytes32} {element : Field}
    (read : fieldInput bytes.toList = some element) : bytesOf element = bytes := by
  obtain ⟨canonical, rfl⟩ := field_input_some read
  apply Bytes32.value_injective
  rw [bytesOf, Bytes32.value_ofNat, Nat.mod_eq_of_lt (field_lt_word _), fieldOfBytes]
  exact Nat.mod_eq_of_lt canonical

/-- The secrets are inputs of the circuit. -/
theorem execution_secrets {inputs : WitnessInputs} {given : Inputs}
    (made : executionInputs inputs = some given) :
    fieldInput inputs.nullifierSecret = some given.2.nullifier ∧
      fieldInput inputs.secret = some given.2.secret := by
  simp only [executionInputs, Option.bind_eq_bind, Option.bind_eq_some_iff] at made
  obtain ⟨root, _, nullifierHash, _, recipient, _, amount, _, nullifier, opened, secret, hidden,
    siblings, _, merkleProof, _, isEven, _, made⟩ := made
  cases made
  exact ⟨opened, hidden⟩

end Witness

/-! The requests, less what the instruction makes public. -/
section View

/-- A request with the private half of the inputs in the place of each part of its body. -/
structure Seen where
  method : String
  path : String
  query : List (String × String)
  body : List (String × Option Circuit.PrivateInputs)

def erase (inputsOf : List UInt8 → Option Inputs) (request : HttpRequest) : Seen where
  method := request.method
  path := request.path
  query := request.query
  body := request.body.map fun part =>
    (part.1, ((Base64.decode part.2.toList).bind inputsOf).map Prod.snd)

variable (poseidon2Permutation : Vector Field 4 → Vector Field 4) (world : World)
  (inputsOf : List UInt8 → Option Inputs) (config : Config)

def formOf (note : DepositNote) (recipientAddress : String) : Form where
  nullifierSecretHex := note.nullifierSecret
  secretHex := note.secret
  amountLamports := note.amount
  recipientAddress := recipientAddress

def view (note : DepositNote) (recipientAddress : String) : List Seen :=
  (requests world (withdraw poseidon2Permutation config (formOf note recipientAddress))).map
    (erase inputsOf)

/-- The withdrawal gets as far as the proof. -/
def Posts (note : DepositNote) (recipientAddress : String) : Prop :=
  ∃ witness, Asks world (withdraw poseidon2Permutation config (formOf note recipientAddress))
    (.api (.withdraw witness))

/-- The leaf index and the two secrets, off the view. -/
def learn : List Seen → Option (String × String × String)
  | [_, ⟨_, _, [_, (_, leafIndex)], _⟩, ⟨_, _, _, [(_, some hidden)]⟩] =>
      some (leafIndex, bytesToHex (bytesOf hidden.nullifier).toList,
        bytesToHex (bytesOf hidden.secret).toList)
  | _ => none

/-- The position the note's commitment is found at. -/
def FoundAt (note : DepositNote) (recipientAddress : String) (leafIndex : Nat) : Prop :=
  ∃ wallet nullifierSecret nullifierHash, Locates poseidon2Permutation world config
    (formOf note recipientAddress) wallet nullifierSecret nullifierHash leafIndex

end View

section Knowledge
variable {poseidon2Permutation : Vector Field 4 → Vector Field 4} {world : World}
  {inputsOf : List UInt8 → Option Inputs} {config : Config} {note : DepositNote}
  {recipientAddress : String}

theorem gathers_read {form : Form} {leafIndex : Nat} {draft : Draft}
    (gathers : Gathers poseidon2Permutation world config form leafIndex draft) :
    hexToBytes form.nullifierSecretHex = some draft.inputs.nullifierSecret ∧
      hexToBytes form.secretHex = some draft.inputs.secret := by
  obtain ⟨wallet, nullifierSecret, nullifierHash, _, response, merkleProof, latestRoot, recipient,
    secret, locates, answered, siblings, rooted, decoded, opened⟩ := gathers
  obtain ⟨notes, note, entries, sortedCommitments, connected, read, _⟩ := locates
  exact ⟨read, opened⟩

theorem gathers_found {leafIndex : Nat} {draft : Draft}
    (gathers : Gathers poseidon2Permutation world config (formOf note recipientAddress) leafIndex
      draft) :
    FoundAt poseidon2Permutation world config note recipientAddress leafIndex := by
  obtain ⟨wallet, nullifierSecret, nullifierHash, _, response, merkleProof, latestRoot, recipient,
    secret, locates, _⟩ := gathers
  exact ⟨wallet, nullifierSecret, nullifierHash, locates⟩

/-- A secret that reaches the circuit is written as its field element is. -/
theorem secret_text {secret : Bytes32} {text : String} {bytes : List UInt8} {element : Field}
    (written : text = bytesToHex secret.toList) (read : hexToBytes text = some bytes)
    (input : fieldInput bytes = some element) : bytesToHex (bytesOf element).toList = text := by
  rw [written, hex_round_trip] at read
  cases read
  rw [field_input_bytes input, written]

/-- Whoever sees the requests learns the index and the secrets. -/
theorem learns (faithful : Determines world inputsOf)
    (created : Created poseidon2Permutation note)
    (posts : Posts poseidon2Permutation world config note recipientAddress) :
    ∃ leafIndex, FoundAt poseidon2Permutation world config note recipientAddress leafIndex ∧
      learn (view poseidon2Permutation world inputsOf config note recipientAddress) =
        some (toString leafIndex, note.nullifierSecret, note.secret) := by
  obtain ⟨witness, asked⟩ := posts
  obtain ⟨leafIndex, draft, file, gathers, executed, rfl⟩ := asks_witness.mp asked
  obtain ⟨given, made, determined⟩ := faithful draft.inputs file executed
  obtain ⟨readNullifier, readSecret⟩ := gathers_read gathers
  obtain ⟨nullifier, hidden⟩ := execution_secrets made
  obtain ⟨nullifierSecret, secret, first, second, _⟩ := created_texts created
  have nullifierText := secret_text first readNullifier nullifier
  have secretText := secret_text second readSecret hidden
  have seen : ((Base64.decode (String.ofList (Base64.encode file)).toList).bind inputsOf).map
      Prod.snd = some given.2 := by
    rw [String.toList_ofList, Base64.decode_encode, Option.bind_some, determined, Option.map_some]
  refine ⟨leafIndex, gathers_found gathers, ?_⟩
  rw [view, withdraw_requests gathers executed]
  simp only [List.map_cons, List.map_nil, erase, Api.request, seen, learn, nullifierText,
    secretText]

/-- Two withdrawals of the same amount to the same recipient look alike to the backend exactly
if they are of the same secrets; each tells it the leaf index and both secrets. -/
theorem view_same_iff (poseidon2Permutation : Vector Field 4 → Vector Field 4) (world : World)
    (inputsOf : List UInt8 → Option Inputs) (config : Config) (first second : DepositNote)
    (recipientAddress : String) (faithful : Determines world inputsOf)
    (firstCreated : Created poseidon2Permutation first)
    (secondCreated : Created poseidon2Permutation second) (amount : first.amount = second.amount)
    (firstPosts : Posts poseidon2Permutation world config first recipientAddress)
    (secondPosts : Posts poseidon2Permutation world config second recipientAddress) :
    (view poseidon2Permutation world inputsOf config first recipientAddress =
        view poseidon2Permutation world inputsOf config second recipientAddress ↔
      first.nullifierSecret = second.nullifierSecret ∧ first.secret = second.secret) ∧
    ∀ note, note = first ∨ note = second → ∃ leafIndex,
      FoundAt poseidon2Permutation world config note recipientAddress leafIndex ∧
      learn (view poseidon2Permutation world inputsOf config note recipientAddress) =
        some (toString leafIndex, note.nullifierSecret, note.secret) := by
  have firstLearnt := learns faithful firstCreated firstPosts
  have secondLearnt := learns faithful secondCreated secondPosts
  constructor
  · constructor
    · intro same
      obtain ⟨firstIndex, _, fromFirst⟩ := firstLearnt
      obtain ⟨secondIndex, _, fromSecond⟩ := secondLearnt
      rw [same, fromSecond] at fromFirst
      simp only [Option.some.injEq, Prod.mk.injEq] at fromFirst
      exact ⟨fromFirst.2.1.symm, fromFirst.2.2.symm⟩
    · rintro ⟨nullifierSecret, secret⟩
      rw [view, view, formOf, formOf, nullifierSecret, secret, amount]
  · rintro note (rfl | rfl)
    · exact firstLearnt
    · exact secondLearnt

end Knowledge

section Sample
open Borsh

/-! A witness file with the inputs of the circuit in the order of its parameters. -/

def writeField (element : Field) : List UInt8 := (bytesOf element).toList

def readField : Reader Field := fieldOf <$> array 32

theorem reads_field (element : Field) : Reads readField (writeField element) element := by
  have read := reads_map (reads_array (bytesOf element)) fieldOf
  rwa [fieldOf_bytesOf] at read

def writeBool (flag : Bool) : List UInt8 := littleEndian 1 flag.toNat

def witnessFile (given : Inputs) : List UInt8 :=
  writeField given.1.root ++ (writeField given.1.nullifierHash ++ (writeField given.1.recipient ++
    (writeField given.1.amount ++ (writeField given.2.nullifier ++ (writeField given.2.secret ++
      (given.2.merkleProof.toList.flatMap writeField ++
        given.2.isEven.toList.flatMap writeBool))))))

def readInputs : Reader Inputs := do
  let root ← readField
  let nullifierHash ← readField
  let recipient ← readField
  let amount ← readField
  let nullifier ← readField
  let secret ← readField
  let merkleProof ← vectorOf readField Circuit.treeDepth
  let isEven ← vectorOf bool Circuit.treeDepth
  pure (⟨root, nullifierHash, recipient, amount⟩, ⟨nullifier, secret, merkleProof, isEven⟩)

def sampleInputsOf (file : List UInt8) : Option Inputs := (readInputs.run file).map Prod.fst

theorem reads_inputs (given : Inputs) : Reads readInputs (witnessFile given) given := by
  obtain ⟨shown, hidden⟩ := given
  apply reads_bind (reads_field shown.root)
  apply reads_bind (reads_field shown.nullifierHash)
  apply reads_bind (reads_field shown.recipient)
  apply reads_bind (reads_field shown.amount)
  apply reads_bind (reads_field hidden.nullifier)
  apply reads_bind (reads_field hidden.secret)
  apply reads_bind (reads_vector_of reads_field hidden.merkleProof)
  exact reads_last (reads_vector_of reads_bool hidden.isEven) _

theorem sample_inputs_of (given : Inputs) : sampleInputsOf (witnessFile given) = some given := by
  rw [sampleInputsOf, reads_whole (reads_inputs given), Option.map_some]

/-! Notes of one amount at the first leaves, over any permutation. -/
variable (poseidon2Permutation : Vector Field 4 → Vector Field 4)

def sampleAmount : Nat := 10_000_000

def leafOf (opening : Field × Field) : Field :=
  Circuit.hash3 poseidon2Permutation opening.1 opening.2 (Fin.ofNat bn254Modulus sampleAmount)

def elementHex (element : Field) : String := bytesToHex (bytesOf element).toList

def noteOf (opening : Field × Field) : DepositNote where
  id := ""
  nullifierSecret := elementHex opening.1
  secret := elementHex opening.2
  amount := sampleAmount
  commitment := elementHex (leafOf poseidon2Permutation opening)
  nullifierHash := elementHex (Circuit.hash1 poseidon2Permutation opening.1)
  timestamp := DepositClient.sampleConfig.now
  used := false

def drawnAnswers (opening : Field × Field) :
    (call : DepositClient.Remote) → Except String call.Answer
  | .randomBytes 0 => .ok (bytesOf opening.1)
  | .randomBytes _ => .ok (bytesOf opening.2)
  | call => DepositClient.sampleAnswers call

theorem field_element_bytes (element : Field) :
    DepositClient.bytesToFieldElement (bytesOf element) = bytesOf element := by
  rw [DepositClient.bytesToFieldElement, WithdrawClient.reduce_bytes, fieldOf_bytesOf]

theorem same_amount (first second : Field × Field) :
    (noteOf poseidon2Permutation first).amount = (noteOf poseidon2Permutation second).amount := rfl

theorem drawn_commitment (opening : Field × Field) :
    DepositClient.computeCommitment poseidon2Permutation
      (DepositClient.bytesToFieldElement (bytesOf opening.1))
      (DepositClient.bytesToFieldElement (bytesOf opening.2)) sampleAmount =
        some ⟨bytesOf (leafOf poseidon2Permutation opening),
          bytesOf (Circuit.hash1 poseidon2Permutation opening.1)⟩ := by
  rw [field_element_bytes, field_element_bytes, DepositClient.computeCommitment,
    if_pos ⟨bytes_of_canonical opening.1, bytes_of_canonical opening.2, by decide⟩,
    fieldOf_bytesOf, fieldOf_bytesOf, leafOf]

/-- A deposit with these draws makes the note. -/
theorem note_created (opening : Field × Field) :
    Created poseidon2Permutation (noteOf poseidon2Permutation opening) := by
  obtain ⟨data, written⟩ := DepositClient.instruction_fits
    (bytesOf (leafOf poseidon2Permutation opening)) sampleAmount
    (List.length_replicate (n := 32) (a := 0))
  have unlisted : DepositClient.existingCommitments [] = some [] := by
    simp [DepositClient.existingCommitments]
  have signs : DepositClient.Signs poseidon2Permutation
      ⟨drawnAnswers opening, fun _ => .ok "", none, none⟩ DepositClient.sampleConfig
      sampleAmount _ :=
    DepositClient.Signs.intro ⟨Bytes32.zero, true⟩ _ _ _ _ _ _ _ data _ rfl rfl (by decide) rfl rfl
      rfl (drawn_commitment poseidon2Permutation opening) rfl unlisted rfl (hex_round_trip _)
      written rfl rfl
  refine ⟨_, _, _, _, "", signs, ?_⟩
  rw [DepositClient.noteOf, field_element_bytes, field_element_bytes]
  rfl

/-- The circuit runs on inputs that meet its constraints. -/
def execute (inputs : WitnessInputs) : Except String (List UInt8) :=
  match executionInputs inputs with
  | some given =>
      if Circuit.Accepts poseidon2Permutation given.1 given.2 then .ok (witnessFile given)
      else .error "Circuit execution failed"
  | none => .error "Circuit execution failed"

variable (openings : List (Field × Field))

def sampleLeaf : Nat → Field :=
  MerkleTree.padded 0 (openings.map (leafOf poseidon2Permutation))

def samplePath (leafIndex : Nat) : List (Field × Bool) :=
  MerkleTree.pathFrom (Circuit.hash2 poseidon2Permutation)
    (sampleLeaf poseidon2Permutation openings) 0 Circuit.treeDepth leafIndex

def sampleRoot : Field :=
  MerkleTree.node (Circuit.hash2 poseidon2Permutation)
    (sampleLeaf poseidon2Permutation openings) Circuit.treeDepth 0

def proofResponse (root : Field) (path : List (Field × Bool)) : NoteText.ProofResponse where
  proof := path.map fun step => elementHex step.1
  isEven := path.map Prod.snd
  root := elementHex root

def sampleConfig : Config := ⟨"pool", Bytes32.zero, Bytes32.zero, fun _ => Bytes32.zero⟩

def sampleWorld : World
  | .wallet => .ok (some ⟨Bytes32.zero, true⟩)
  | .hashes => .ok ()
  | .notes => .ok (openings.map (noteOf poseidon2Permutation))
  | .api (.getCommitments _) => .ok (openings.zipIdx.map fun entry =>
      ⟨entry.2, (noteOf poseidon2Permutation entry.1).commitment⟩)
  | .api (.getProof _ leafIndex) => .ok (proofResponse (sampleRoot poseidon2Permutation openings)
      (samplePath poseidon2Permutation openings leafIndex))
  | .api (.withdraw _) => .ok []
  | .publicKey _ => .ok Bytes32.zero
  | .execute inputs => execute poseidon2Permutation inputs
  | .latestBlockhash => .ok ⟨"", 0⟩
  | .signTransaction _ => .ok ()
  | .sendRawTransaction _ => .ok ""
  | .confirmTransaction _ _ => .ok none
  | .markUsed _ => .ok ()
  | .balance _ => .ok 0

theorem sample_determines :
    Determines (sampleWorld poseidon2Permutation openings) sampleInputsOf := by
  intro inputs file executed
  change execute poseidon2Permutation inputs = .ok file at executed
  rw [execute] at executed
  cases made : executionInputs inputs with
  | none => simp [made] at executed
  | some given =>
      rw [made] at executed
      by_cases accepted : Circuit.Accepts poseidon2Permutation given.1 given.2
      · have same : Except.ok (witnessFile given) = Except.ok file :=
          (if_pos accepted).symm.trans executed
        rw [← Except.ok.inj same]
        exact ⟨given, rfl, sample_inputs_of given⟩
      · have refused := (if_neg accepted).symm.trans executed
        exact nomatch refused

theorem element_full (element : Field) : (bytesOf element).toList ≠ [] :=
  List.ne_nil_of_length_pos (by rw [Vector.length_toList]; decide)

theorem element_hashed (element : Field) :
    NoteText.computeNullifierHash poseidon2Permutation (bytesOf element).toList =
      some (bytesOf (Circuit.hash1 poseidon2Permutation element)) := by
  rw [NoteText.computeNullifierHash, if_pos ⟨element_full element, bytes_of_canonical element⟩]
  exact congrArg (fun value => some (bytesOf (Circuit.hash1 poseidon2Permutation value)))
    (fieldOf_bytesOf element)

theorem field_input_of (element : Field) :
    fieldInput (bytesOf element).toList = some element := by
  rw [fieldInput, if_pos ⟨element_full element, bytes_of_canonical element⟩]
  exact congrArg some (fieldOf_bytesOf element)

theorem sized_some {Value : Type} {count : Nat} {values : List Value}
    (full : values.length = count) :
    sized count values = some ⟨values.toArray, full⟩ := dif_pos full

/-- What is gathered for an opening and its path. -/
def pathInputs (root : Field) (path : List (Field × Bool)) (opening : Field × Field) :
    WitnessInputs where
  root := (bytesOf root).toList
  nullifierHash := bytesOf (Circuit.hash1 poseidon2Permutation opening.1)
  recipient := WithdrawClient.reduceToField Bytes32.zero
  amount := sampleAmount
  nullifierSecret := (bytesOf opening.1).toList
  secret := (bytesOf opening.2).toList
  merkleProof := path.map fun step => (bytesOf step.1).toList
  isEven := path.map Prod.snd

theorem execute_accepted {inputs : WitnessInputs} {given : Inputs}
    (made : executionInputs inputs = some given)
    (accepted : Circuit.Accepts poseidon2Permutation given.1 given.2) :
    execute poseidon2Permutation inputs = .ok (witnessFile given) := by
  rw [execute, made]
  exact if_pos accepted

/-- A path that climbs to its root passes the circuit. -/
theorem path_executes {root : Field} {path : List (Field × Bool)} {opening : Field × Field}
    (full : path.length = Circuit.treeDepth)
    (climbs : MerkleTree.climb (Circuit.hash2 poseidon2Permutation)
      (leafOf poseidon2Permutation opening) path = root) :
    ∃ file, execute poseidon2Permutation (pathInputs poseidon2Permutation root path opening) =
      .ok file := by
  have siblingsFull : (path.map Prod.fst).length = Circuit.treeDepth := by
    rw [List.length_map, full]
  have sidesFull : (path.map Prod.snd).length = Circuit.treeDepth := by
    rw [List.length_map, full]
  have siblings : (path.map fun step => (bytesOf step.1).toList).mapM fieldInput =
      some (path.map Prod.fst) := by
    rw [List.mapM_map]
    simp only [Function.comp_def, field_input_of]
    exact List.mapM_pure
  have amount : amountInput sampleAmount = some (Fin.ofNat bn254Modulus sampleAmount) :=
    if_pos (by decide)
  have made : executionInputs (pathInputs poseidon2Permutation root path opening) =
      some (⟨root, Circuit.hash1 poseidon2Permutation opening.1, fieldOf Bytes32.zero,
        Fin.ofNat bn254Modulus sampleAmount⟩, ⟨opening.1, opening.2,
        ⟨(path.map Prod.fst).toArray, siblingsFull⟩,
        ⟨(path.map Prod.snd).toArray, sidesFull⟩⟩) := by
    simp only [executionInputs, pathInputs, WithdrawClient.reduce_bytes, field_input_of, siblings,
      amount, sized_some siblingsFull, sized_some sidesFull, Option.bind_eq_bind, Option.bind_some]
  have whole : (path.map Prod.fst).zip (path.map Prod.snd) = path :=
    (List.zip_of_prod rfl rfl).symm
  have accepted : Circuit.Accepts poseidon2Permutation
      ⟨root, Circuit.hash1 poseidon2Permutation opening.1, fieldOf Bytes32.zero,
        Fin.ofNat bn254Modulus sampleAmount⟩ ⟨opening.1, opening.2,
        ⟨(path.map Prod.fst).toArray, siblingsFull⟩, ⟨(path.map Prod.snd).toArray, sidesFull⟩⟩ := by
    rw [Circuit.accepts_iff]
    refine ⟨rfl, ?_⟩
    rw [Circuit.merkle_root_climb]
    change MerkleTree.climb _ (leafOf poseidon2Permutation opening)
      ((path.map Prod.fst).zip (path.map Prod.snd)) = _
    rw [whole, climbs]
  exact ⟨_, execute_accepted poseidon2Permutation made accepted⟩

variable {openings : List (Field × Field)}

/-- A note that is found in both lists is withdrawn. -/
theorem sample_posts {opening : Field × Field} {leafIndex : Nat}
    {sortedCommitments : List (List UInt8)} (inside : leafIndex < 2 ^ Circuit.treeDepth)
    (own : sampleLeaf poseidon2Permutation openings leafIndex =
      leafOf poseidon2Permutation opening)
    (found : (openings.map (noteOf poseidon2Permutation)).find? (fun note => note.nullifierHash ==
      elementHex (Circuit.hash1 poseidon2Permutation opening.1)) =
        some (noteOf poseidon2Permutation opening))
    (sorted : DepositClient.existingCommitments (openings.zipIdx.map fun entry =>
      ⟨entry.2, (noteOf poseidon2Permutation entry.1).commitment⟩) = some sortedCommitments)
    (located : sortedCommitments.findIdx?
      (NoteText.sameHex (noteOf poseidon2Permutation opening).commitment) = some leafIndex) :
    Posts poseidon2Permutation (sampleWorld poseidon2Permutation openings) sampleConfig
      (noteOf poseidon2Permutation opening) "recipient" := by
  have siblings : ((samplePath poseidon2Permutation openings leafIndex).map fun step =>
      elementHex step.1).mapM hexToBytes =
        some ((samplePath poseidon2Permutation openings leafIndex).map fun step =>
          (bytesOf step.1).toList) := by
    rw [List.mapM_map]
    simp only [Function.comp_def, elementHex, hex_round_trip]
    exact List.mapM_pure
  have climbs := MerkleTree.climb_leaf (Circuit.hash2 poseidon2Permutation)
    (sampleLeaf poseidon2Permutation openings) Circuit.treeDepth leafIndex inside
  rw [own] at climbs
  obtain ⟨file, executed⟩ := path_executes poseidon2Permutation
    (MerkleTree.path_length (Circuit.hash2 poseidon2Permutation) _ 0 Circuit.treeDepth leafIndex)
    climbs
  have locates : Locates poseidon2Permutation (sampleWorld poseidon2Permutation openings)
      sampleConfig (formOf (noteOf poseidon2Permutation opening) "recipient")
      ⟨Bytes32.zero, true⟩ (bytesOf opening.1).toList
      (bytesOf (Circuit.hash1 poseidon2Permutation opening.1)) leafIndex :=
    Locates.intro _ _ _ _ _ _ _ _ rfl (hex_round_trip _) rfl
      (element_hashed poseidon2Permutation opening.1) rfl found rfl rfl sorted located
  have gathers := Gathers.intro _ _ _ _ _ _ _ Bytes32.zero _ locates rfl siblings
    (hex_round_trip _) rfl (hex_round_trip _)
  exact ⟨_, asks_witness.mpr ⟨_, _, file, gathers, executed, rfl⟩⟩

theorem hex_injective {left right : Field} (same : elementHex left = elementHex right) :
    left = right := by
  have read := congrArg hexToBytes same
  rw [elementHex, elementHex, hex_round_trip, hex_round_trip] at read
  rw [← fieldOf_bytesOf left, Vector.toList_inj.mp (Option.some.inj read), fieldOf_bytesOf]

variable {poseidon2Permutation} {first second : Field × Field}

theorem note_same (opening : Field × Field) :
    NoteText.sameHex (noteOf poseidon2Permutation opening).commitment
      (bytesOf (leafOf poseidon2Permutation opening)).toList = true :=
  NoteText.same_hex_iff.mpr rfl

theorem note_differs
    (apart : leafOf poseidon2Permutation first ≠ leafOf poseidon2Permutation second) :
    NoteText.sameHex (noteOf poseidon2Permutation second).commitment
      (bytesOf (leafOf poseidon2Permutation first)).toList = false := by
  rw [Bool.eq_false_iff]
  intro same
  exact apart (hex_injective (congrArg bytesToHex (NoteText.same_hex_iff.mp same)))

theorem pair_sorted :
    DepositClient.existingCommitments ([first, second].zipIdx.map fun entry =>
      ⟨entry.2, (noteOf poseidon2Permutation entry.1).commitment⟩) =
        some [(bytesOf (leafOf poseidon2Permutation first)).toList,
          (bytesOf (leafOf poseidon2Permutation second)).toList] := by
  rw [DepositClient.existingCommitments, List.mergeSort_of_pairwise (by simp)]
  simp [noteOf, elementHex]

/-- Both notes can be withdrawn from one pool. -/
theorem pair_posts (nullifiers : Circuit.hash1 poseidon2Permutation first.1 ≠
      Circuit.hash1 poseidon2Permutation second.1)
    (commitments : leafOf poseidon2Permutation first ≠ leafOf poseidon2Permutation second) :
    Posts poseidon2Permutation (sampleWorld poseidon2Permutation [first, second]) sampleConfig
        (noteOf poseidon2Permutation first) "recipient" ∧
      Posts poseidon2Permutation (sampleWorld poseidon2Permutation [first, second]) sampleConfig
        (noteOf poseidon2Permutation second) "recipient" := by
  have apart : elementHex (Circuit.hash1 poseidon2Permutation first.1) ≠
      elementHex (Circuit.hash1 poseidon2Permutation second.1) :=
    fun same => nullifiers (hex_injective same)
  constructor
  · have inside : 0 < 2 ^ Circuit.treeDepth := by decide
    refine sample_posts poseidon2Permutation inside rfl ?_ pair_sorted ?_
    · simp [noteOf]
    · simp [List.findIdx?_cons, note_same]
  · have inside : 1 < 2 ^ Circuit.treeDepth := by decide
    refine sample_posts poseidon2Permutation inside rfl ?_ pair_sorted ?_
    · simp [noteOf, apart]
    · simp [List.findIdx?_cons, note_differs commitments, note_same]

theorem sample_apart :
    Circuit.hash1 Poseidon2.poseidon2Permutation 1 ≠
        Circuit.hash1 Poseidon2.poseidon2Permutation 3 ∧
      leafOf Poseidon2.poseidon2Permutation (1, 2) ≠
        leafOf Poseidon2.poseidon2Permutation (3, 4) := by
  decide +kernel

/-- Two notes of one amount, withdrawn by an honest client. -/
theorem sample_view_same_iff :
    let world := sampleWorld Poseidon2.poseidon2Permutation [(1, 2), (3, 4)]
    let first := noteOf Poseidon2.poseidon2Permutation (1, 2)
    let second := noteOf Poseidon2.poseidon2Permutation (3, 4)
    (view Poseidon2.poseidon2Permutation world sampleInputsOf sampleConfig first "recipient" =
        view Poseidon2.poseidon2Permutation world sampleInputsOf sampleConfig second "recipient" ↔
      first.nullifierSecret = second.nullifierSecret ∧ first.secret = second.secret) ∧
    ∀ note, note = first ∨ note = second → ∃ leafIndex,
      FoundAt Poseidon2.poseidon2Permutation world sampleConfig note "recipient" leafIndex ∧
      learn (view Poseidon2.poseidon2Permutation world sampleInputsOf sampleConfig note
        "recipient") = some (toString leafIndex, note.nullifierSecret, note.secret) := by
  have posts := @pair_posts Poseidon2.poseidon2Permutation (1, 2) (3, 4) sample_apart.1
    sample_apart.2
  exact view_same_iff Poseidon2.poseidon2Permutation _ sampleInputsOf sampleConfig _ _ "recipient"
    (sample_determines _ _) (note_created _ _) (note_created _ _) (same_amount _ _ _)
    posts.1 posts.2

/-- Their views differ. -/
theorem views_differ :
    let world := sampleWorld Poseidon2.poseidon2Permutation [(1, 2), (3, 4)]
    let first := noteOf Poseidon2.poseidon2Permutation (1, 2)
    let second := noteOf Poseidon2.poseidon2Permutation (3, 4)
    Determines world sampleInputsOf ∧ Created Poseidon2.poseidon2Permutation first ∧
      Created Poseidon2.poseidon2Permutation second ∧ first.amount = second.amount ∧
      Posts Poseidon2.poseidon2Permutation world sampleConfig first "recipient" ∧
      Posts Poseidon2.poseidon2Permutation world sampleConfig second "recipient" ∧
      view Poseidon2.poseidon2Permutation world sampleInputsOf sampleConfig first "recipient" ≠
        view Poseidon2.poseidon2Permutation world sampleInputsOf sampleConfig second
          "recipient" := by
  have posts := @pair_posts Poseidon2.poseidon2Permutation (1, 2) (3, 4) sample_apart.1
    sample_apart.2
  have determines := sample_determines Poseidon2.poseidon2Permutation [(1, 2), (3, 4)]
  have firstCreated := note_created Poseidon2.poseidon2Permutation (1, 2)
  have secondCreated := note_created Poseidon2.poseidon2Permutation (3, 4)
  refine ⟨determines, firstCreated, secondCreated, same_amount _ _ _, posts.1, posts.2, ?_⟩
  intro same
  obtain ⟨_, _, fromFirst⟩ := learns determines firstCreated posts.1
  obtain ⟨_, _, fromSecond⟩ := learns determines secondCreated posts.2
  rw [same, fromSecond] at fromFirst
  simp only [Option.some.injEq, Prod.mk.injEq] at fromFirst
  exact absurd (hex_injective fromFirst.2.1) (by decide)

end Sample

end PrivateTransfer.BackendView
