import PrivateTransfer.BackendView
import PrivateTransfer.Issuance
import PrivateTransfer.Recipient

/-!
A note on its whole way back. The form reads the note off its text, with the amount it has
for every note; the client lists the commitments and fetches the path of its own, runs the
circuit, has the backend prove the witness and sends the transaction; the program reads it,
asks the verifier and pays. Every party is the one of its own module.
-/

namespace PrivateTransfer.Redemption

open ClientHex DepositClient InstructionData MerkleService PoolProgram PoolRuns WithdrawFlow
open Acceptance (Runtime judged)
open Issuance (callOf call_decodes leafRoot)
open ReadRoutes (Lists)

/-! What reaches the program. -/
section Received
variable (deployment : Deployment)

/-- The transaction of `useWithdraw.ts` as the runtime presents it: the payer signs, and
the first five of its keys are writable. No wallet has the address of the vault. -/
def received (clock : Option Int64) (sent : WithdrawTransaction) :
    Option (Transaction deployment) :=
  if unsigned : deployment.poolVault = sent.payer then none
  else (callOf withdrawDiscriminator withdrawArgs sent.data).map fun args =>
    { signers := [sent.payer]
      writable := [sent.accounts.pool, sent.accounts.nullifierRecord, sent.accounts.poolVault,
        sent.accounts.recipient, sent.accounts.payer]
      clock := clock
      aborted := false
      instruction := .withdraw sent.accounts args
      vaultUnsigned := by rwa [List.mem_singleton] }

theorem received_called {deployment : Deployment} {sent : WithdrawTransaction}
    {args : WithdrawArgs} (keyed : deployment.poolVault ≠ sent.payer)
    (read : callOf withdrawDiscriminator withdrawArgs sent.data = some args)
    (clock : Option Int64) :
    ∃ tx, received deployment clock sent = some tx ∧ tx.signers = [sent.payer] ∧
      tx.writable = [sent.accounts.pool, sent.accounts.nullifierRecord, sent.accounts.poolVault,
        sent.accounts.recipient, sent.accounts.payer] ∧
      tx.clock = clock ∧ tx.aborted = false ∧ tx.instruction = .withdraw sent.accounts args := by
  rw [received, dif_neg keyed, read]
  exact ⟨_, rfl, rfl, rfl, rfl, rfl, rfl⟩

theorem withdraw_call_written (args : WithdrawArgs) (short : args.proof.length < 2 ^ 32) :
    ∃ data, withdrawData args.proof args.nullifierHash args.root.toList args.toKey
        args.amount.toNat = some data ∧
      callOf withdrawDiscriminator withdrawArgs data = some args :=
  ⟨_, withdraw_data_bytes _ _ _ _ _,
    call_decodes (decodes_append rfl (withdraw_args_read args short))⟩

end Received

/-! The recipient on both sides. The program takes multiples of the base modulus off
the address and the client those of the scalar modulus. -/
section Recipients
open PublicInputs

/-- Read as a field element the two agree on the addresses the program leaves alone. -/
theorem reduced_field_iff (key : Pubkey) :
    fieldOf (PublicInputs.reduceToField key) = fieldOf key ↔ key.value < programModulus := by
  have residues : fieldOf (PublicInputs.reduceToField key) = fieldOf key ↔
      (PublicInputs.reduceToField key).value % bn254Modulus = key.value % bn254Modulus := by
    rw [← fieldOf_val, ← fieldOf_val, Fin.val_inj]
  have bound := key.value_lt
  rw [residues, reduce_value]
  by_cases low : key.value < 5 * programModulus
  · rw [if_pos low]
    simp only [bn254Modulus, programModulus] at low ⊢
    omega
  · rw [if_neg low]
    simp only [bn254Modulus, programModulus] at low ⊢
    omega

end Recipients

/-! The stored tree over canonical commitments is the tree of their field elements,
written in hex. -/
section HexTree
variable (poseidon2Permutation : Vector Field 4 → Vector Field 4)

theorem empty_leaf_hex : hexOf 0 = emptyLeaf := by decide +kernel

theorem padded_hex (commitments : List Field) :
    MerkleTree.padded emptyLeaf (commitments.map hexOf) =
      fun k => hexOf (MerkleTree.padded 0 commitments k) := by
  funext k
  rw [MerkleTree.padded, MerkleTree.padded, List.getD_eq_getElem?_getD,
    List.getD_eq_getElem?_getD, List.getElem?_map]
  cases commitments[k]? with
  | none => exact empty_leaf_hex.symm
  | some commitment => rfl

theorem hash_hex_of (left right : Field) :
    hashHex poseidon2Permutation (hexOf left) (hexOf right) =
      hexOf (Circuit.hash2 poseidon2Permutation left right) := by
  rw [hashHex, fieldOfHex_hexOf, fieldOfHex_hexOf]

theorem hex_path (commitments : List Field) (depth i : Nat) :
    MerkleTree.pathFrom (hashHex poseidon2Permutation)
        (MerkleTree.padded emptyLeaf (commitments.map hexOf)) 0 depth i =
      (MerkleTree.pathFrom (Circuit.hash2 poseidon2Permutation)
        (MerkleTree.padded 0 commitments) 0 depth i).map fun step => (hexOf step.1, step.2) := by
  rw [padded_hex]
  exact MerkleTree.path_map _ _ hexOf (fun left right =>
    (hash_hex_of poseidon2Permutation left right).symm) _ 0 depth i

theorem hex_root (commitments : List Field) (depth : Nat) :
    MerkleTree.root (hashHex poseidon2Permutation) emptyLeaf (commitments.map hexOf) depth =
      hexOf (MerkleTree.root (Circuit.hash2 poseidon2Permutation) 0 commitments depth) := by
  rw [MerkleTree.root, MerkleTree.root, padded_hex]
  exact MerkleTree.node_map (Circuit.hash2 poseidon2Permutation) (hashHex poseidon2Permutation)
    hexOf (fun left right => (hash_hex_of poseidon2Permutation left right).symm) _ depth 0

end HexTree

/-! The circuit, run with a note's secrets and the path of its commitment. -/
section Execution
open BackendView (elementHex executionInputs fieldInput field_input_of sized_some)
variable (poseidon2Permutation : Vector Field 4 → Vector Field 4)

/-- The texts of a note are those of two secrets and of what they hash to. -/
structure Opening (note : DepositNote) (nullifier secret : Field) : Prop where
  first : note.nullifierSecret = elementHex nullifier
  second : note.secret = elementHex secret
  spends : note.nullifierHash = elementHex (Circuit.hash1 poseidon2Permutation nullifier)
  commits : note.commitment = elementHex (Circuit.hash3 poseidon2Permutation nullifier secret
    (Fin.ofNat bn254Modulus note.amount))

theorem created_opening {note : DepositNote}
    (created : NoteText.Created poseidon2Permutation note) :
    ∃ nullifier secret, Opening poseidon2Permutation note nullifier secret := by
  obtain ⟨weather, config, amount, draft, id, signs, rfl⟩ := created
  obtain ⟨_, commits, spends, _⟩ := signs_computed signs
  obtain ⟨wallet, firstDraw, secondDraw, computed, entries, existing, root, newRoot, data, latest,
    connected, able, enough, first, second, loaded, hashed, listed, read, rooted, decoded, written,
    dated, signed⟩ := signs
  have drawn : ∀ draw : Bytes32, bytesToFieldElement draw = bytesOf (fieldOf draw) :=
    WithdrawClient.reduce_bytes
  simp only [drawn, fieldOf_bytesOf] at commits spends
  refine ⟨fieldOf firstDraw, fieldOf secondDraw, ?_, ?_, ?_, ?_⟩
  · simp only [noteOf, drawn, elementHex]
  · simp only [noteOf, drawn, elementHex]
  · simp only [noteOf, spends, elementHex]
  · simp only [noteOf, commits, elementHex]

/-- What the client runs the circuit with. -/
def noteInputs (root : Field) (path : List (Field × Bool)) (nullifier secret : Field)
    (recipient : Pubkey) (amount : Nat) : NoteText.WitnessInputs where
  root := (bytesOf root).toList
  nullifierHash := bytesOf (Circuit.hash1 poseidon2Permutation nullifier)
  recipient := WithdrawClient.reduceToField recipient
  amount := amount
  nullifierSecret := (bytesOf nullifier).toList
  secret := (bytesOf secret).toList
  merkleProof := path.map fun step => (bytesOf step.1).toList
  isEven := path.map Prod.snd

def shownTo (root nullifier : Field) (recipient : Pubkey) (amount : Nat) :
    Circuit.PublicInputs where
  root := root
  nullifierHash := Circuit.hash1 poseidon2Permutation nullifier
  recipient := fieldOf recipient
  amount := Fin.ofNat bn254Modulus amount

/-- A path that climbs from the note's commitment to the root is accepted. -/
theorem note_executes {root : Field} {path : List (Field × Bool)} {nullifier secret : Field}
    (recipient : Pubkey) {amount : Nat} (small : amount < bn254Modulus)
    (full : path.length = Circuit.treeDepth)
    (climbs : MerkleTree.climb (Circuit.hash2 poseidon2Permutation)
      (Circuit.hash3 poseidon2Permutation nullifier secret (Fin.ofNat bn254Modulus amount)) path =
        root) :
    ∃ hidden, executionInputs
        (noteInputs poseidon2Permutation root path nullifier secret recipient amount) =
          some (shownTo poseidon2Permutation root nullifier recipient amount, hidden) ∧
      Circuit.Accepts poseidon2Permutation
        (shownTo poseidon2Permutation root nullifier recipient amount) hidden := by
  have siblingsFull : (path.map Prod.fst).length = Circuit.treeDepth := by
    rw [List.length_map, full]
  have sidesFull : (path.map Prod.snd).length = Circuit.treeDepth := by
    rw [List.length_map, full]
  have siblings : (path.map fun step => (bytesOf step.1).toList).mapM fieldInput =
      some (path.map Prod.fst) := by
    rw [List.mapM_map]
    simp only [Function.comp_def, field_input_of]
    exact List.mapM_pure
  have paid : BackendView.amountInput amount = some (Fin.ofNat bn254Modulus amount) :=
    if_pos small
  refine ⟨⟨nullifier, secret, ⟨(path.map Prod.fst).toArray, siblingsFull⟩,
    ⟨(path.map Prod.snd).toArray, sidesFull⟩⟩, ?_, ?_⟩
  · simp only [executionInputs, noteInputs, shownTo, WithdrawClient.reduce_bytes, field_input_of,
      siblings, paid, sized_some siblingsFull, sized_some sidesFull, Option.bind_eq_bind,
      Option.bind_some]
  · rw [Circuit.accepts_iff, Circuit.merkle_root_climb]
    refine ⟨rfl, ?_⟩
    have whole : (path.map Prod.fst).zip (path.map Prod.snd) = path :=
      (List.zip_of_prod rfl rfl).symm
    rw [shownTo, ← climbs]
    exact congrArg _ whole

end Execution

/-! The services once every accepted deposit has been indexed. -/
section Settled
open DepositRace Indexer PoolState TreeRecovery
open Authenticity (deposited)
open ReadRoutes (indexed_represents)
variable {poseidon2Permutation : Vector Field 4 → Vector Field 4}
  {services : Services poseidon2Permutation} {verifier : List UInt8 → Bool}
  {deployment : Deployment} {launch : Launch verifier deployment}

/-- Everything accepted has been indexed, its commitments are canonical, and they do not
hash to the root that stands for no tree. -/
structure Settled (poseidon2Permutation : Vector Field 4 → Vector Field 4)
    (system : System deployment) : Prop where
  indexed : system.found.length = (deposits system.history).length
  canonical : ∀ args ∈ deposits system.history, Canonical args.commitment
  rooted : MerkleTree.root (Circuit.hash2 poseidon2Permutation) 0 (deposited system.history)
    treeDepth ≠ 0

theorem canonical_bytes {bytes : Bytes32} (canonical : Canonical bytes) :
    bytesOf (fieldOf bytes) = bytes :=
  canonical_injective (bytes_of_canonical _) canonical (fieldOf_bytesOf _)

theorem accepted_hex {system : System deployment}
    (canonical : ∀ args ∈ deposits system.history, Canonical args.commitment) :
    accepted system = (deposited system.history).map hexOf := by
  rw [accepted, deposited, List.map_map]
  apply List.map_congr_left
  intro args sent
  rw [Function.comp_apply, hexOf, canonical_bytes (canonical args sent)]

theorem settled_found {system : System deployment}
    (sound : Sound launch poseidon2Permutation system)
    (indexed : system.found.length = (deposits system.history).length) :
    FoundIn system.chain.log system.found := by
  have logged := Accounting.trace_log launch sound.trace
  have size := congrArg List.length logged.contents
  rw [List.length_map, List.length_map] at size
  refine sound.indexed.eq_of_length ?_
  rw [List.length_map, indexed, size]

theorem settled_leaves {system : System deployment}
    (sound : Sound launch poseidon2Permutation system)
    (settled : Settled poseidon2Permutation system) :
    leaves system.found = (deposited system.history).map hexOf := by
  have logged := Accounting.trace_log launch sound.trace
  have commitments := congrArg (List.map hexEncode)
    (found_commitments logged (settled_found sound settled.indexed))
  rw [List.map_map, List.map_map] at commitments
  exact commitments.trans (accepted_hex settled.canonical)

theorem settled_represents {system : System deployment}
    (sound : Sound launch poseidon2Permutation system)
    (settled : Settled poseidon2Permutation system) :
    RedisTree.Represents (hashHex poseidon2Permutation) treeDepth
      ((deposited system.history).map hexOf) (backend services system.found).tree.store := by
  rw [← settled_leaves sound settled]
  exact indexed_represents sound

/-- The pool's newest root is the root of what the services hold. -/
theorem settled_root {system : System deployment}
    (sound : Sound launch poseidon2Permutation system)
    (settled : Settled poseidon2Permutation system) (begun : deposits system.history ≠ []) :
    (emptyRoot :: pushedRoots system.history).getLast (by simp) =
      bytesOf (MerkleTree.root (Circuit.hash2 poseidon2Permutation) 0 (deposited system.history)
        treeDepth) := by
  obtain ⟨front, args, last⟩ := List.eq_nil_or_concat (deposits system.history)
    |>.resolve_left begun
  rw [List.concat_eq_append] at last
  have rooted := sound.rooted front args last
  rw [accepted_hex settled.canonical, hex_root] at rooted
  have bytes := read_encoded (congrArg (fun hex : Hex64 => hexToBytes hex.text) rooted.symm
    |>.trans (hex_round_trip _))
  simp only [pushedRoots, last, List.map_append, List.map_cons, List.map_nil,
    ← List.cons_append, List.getLast_concat]
  exact bytes

end Settled

/-! What the client relies on. -/
section Parties
open BackendView (Determines Inputs executionInputs)
open Verifier (readInputs)
open PublicInputs (encodePublicInputs)
open DepositRace (Services System backend)

/-- `/api/commitments`, answered with these leaves, and `/api/proof`, answered from the tree in
Redis. -/
structure Serves {poseidon2Permutation : Vector Field 4 → Vector Field 4} {deployment : Deployment}
    (services : Services poseidon2Permutation) (system : System deployment) (world : World)
    (config : WithdrawFlow.Config) (listed : List Hex64) : Prop where
  lists : ∃ entries, Lists services system listed entries ∧
    world (.api (.getCommitments config.poolPda)) = .ok entries
  proved : ∀ leafIndex answer,
    ProofRoutes.reply (hashHex poseidon2Permutation) PoolState.treeDepth
      (backend services system.found).tree.store leafIndex = .ok answer →
    world (.api (.getProof config.poolPda leafIndex)) =
      .ok ⟨answer.proof.map Hex64.text, answer.isEven, answer.root.text⟩

variable (poseidon2Permutation : Vector Field 4 → Vector Field 4)

/-- The circuit runs on inputs it accepts, and the backend turns the witness into a proof
that the verifier takes with the public inputs of that run and with no others. -/
structure Proves (world : World) (inputsOf : List UInt8 → Option Inputs)
    (verifier : List UInt8 → Bool) : Prop where
  determines : Determines world inputsOf
  executes : ∀ inputs given, executionInputs inputs = some given →
    Circuit.Accepts poseidon2Permutation given.1 given.2 →
      ∃ file, world (.execute inputs) = .ok file
  proves : ∀ file given, inputsOf file = some given →
    Circuit.Accepts poseidon2Permutation given.1 given.2 →
      ∃ proof, world (.api (.withdraw (String.ofList (Base64.encode file)))) = .ok proof ∧
        proof.length < 2 ^ 32 ∧ ∀ root nullifierHash recipient amount,
          verifier (proof ++ encodePublicInputs root nullifierHash recipient amount) = true ↔
            readInputs (encodePublicInputs root nullifierHash recipient amount) = given.1

/-- A wallet at the form with the note in its store, on the pool's own addresses. -/
structure AtHand (world : World) (config : WithdrawFlow.Config) (deployment : Deployment)
    (note : DepositNote) (recipientAddress : String) (wallet : Wallet) (recipient : Pubkey) :
    Prop where
  connected : world .wallet = .ok (some wallet)
  signs : wallet.signs = true
  keyed : deployment.poolVault ≠ wallet.address
  loaded : world .hashes = .ok ()
  stored : ∃ notes, world .notes = .ok notes ∧
    notes.find? (fun held => held.nullifierHash == note.nullifierHash) = some note
  unused : note.used = false
  named : NoteText.trim recipientAddress.toList ≠ []
  decoded : world (.publicKey recipientAddress) = .ok recipient
  dated : ∃ latest, world .latestBlockhash = .ok latest
  signed : ∀ transaction, world (.signTransaction transaction) = .ok ()
  pool : config.pool = deployment.pool
  poolVault : config.poolVault = deployment.poolVault
  nullifierRecord : config.nullifierRecord = deployment.nullifierRecord

end Parties

section Journey
open BackendView (elementHex formOf)
variable {poseidon2Permutation : Vector Field 4 → Vector Field 4} {world : World}
  {config : WithdrawFlow.Config} {deployment : Deployment} {verifier : List UInt8 → Bool}

/-- With a proof at hand the transaction is signed and sent. -/
theorem asks_send {draft : WithdrawFlow.Draft} {proofOnly data : List UInt8} {latest : Blockhash}
    (written : withdrawData proofOnly draft.inputs.nullifierHash draft.inputs.root draft.recipient
      draft.inputs.amount = some data)
    (dated : world .latestBlockhash = .ok latest) (signs : draft.wallet.signs = true)
    (signed : world (.signTransaction (withdrawTransaction config draft latest data)) = .ok ()) :
    Asks world (WithdrawFlow.submit config draft proofOnly)
      (.sendRawTransaction (withdrawTransaction config draft latest data)) := by
  rw [WithdrawFlow.submit]
  refine asks_bind.mpr (Or.inr ⟨data, ends_or_throw.mpr written, ?_⟩)
  refine asks_bind.mpr (Or.inr ⟨latest, ends_ask.mpr dated, ?_⟩)
  refine asks_bind.mpr (Or.inr ⟨(), ends_or_fail.mpr signs, ?_⟩)
  refine asks_bind.mpr (Or.inr ⟨(), ends_ask.mpr signed, ?_⟩)
  exact asks_bind.mpr (Or.inl (asks_ask.mpr rfl))

/-- The note's commitment is found where a deposit of it stands. -/
theorem note_located {commitments : List Bytes32} {commitment : Bytes32}
    (member : commitment ∈ commitments) :
    ∃ leafIndex, ∃ (inside : leafIndex < commitments.length),
      (commitments.map fun commitment => commitment.toList).findIdx?
        (NoteText.sameHex (bytesToHex commitment.toList)) = some leafIndex ∧
      commitments[leafIndex] = commitment := by
  have some' : ((commitments.map fun commitment => commitment.toList).findIdx?
      (NoteText.sameHex (bytesToHex commitment.toList))).isSome := by
    rw [List.findIdx?_isSome, List.any_eq_true]
    exact ⟨commitment.toList, List.mem_map_of_mem member, NoteText.same_hex_iff.mpr rfl⟩
  obtain ⟨leafIndex, located⟩ := Option.isSome_iff_exists.mp some'
  obtain ⟨inside, same, _⟩ := List.findIdx?_eq_some_iff_getElem.mp located
  rw [List.length_map] at inside
  refine ⟨leafIndex, inside, located, ?_⟩
  rw [List.getElem_map] at same
  exact Vector.toList_inj.mp (NoteText.same_hex_iff.mp same)

/-- The path of a leaf in the tree of these commitments. -/
def leafPath (poseidon2Permutation : Vector Field 4 → Vector Field 4) (leaves : List Field)
    (leafIndex : Nat) : List (Field × Bool) :=
  MerkleTree.pathFrom (Circuit.hash2 poseidon2Permutation) (MerkleTree.padded 0 leaves) 0
    Circuit.treeDepth leafIndex

/-- The backend hands out that path, in hex. -/
theorem path_served {leaves : List Field} {store : RedisTree.Store}
    (represents : RedisTree.Represents (hashHex poseidon2Permutation) Circuit.treeDepth
      (leaves.map hexOf) store)
    (rooted : leafRoot poseidon2Permutation leaves ≠ 0) (leafIndex : Nat) :
    ProofRoutes.reply (hashHex poseidon2Permutation) Circuit.treeDepth store leafIndex =
      .ok ⟨(leafPath poseidon2Permutation leaves leafIndex).map fun step => hexOf step.1,
        (leafPath poseidon2Permutation leaves leafIndex).map Prod.snd,
        hexOf (leafRoot poseidon2Permutation leaves)⟩ := by
  have nonzero : hexOf (leafRoot poseidon2Permutation leaves) ≠ emptyLeaf := by
    intro same
    rw [← empty_leaf_hex] at same
    have fields := congrArg fieldOfHex same
    rw [fieldOfHex_hexOf, fieldOfHex_hexOf] at fields
    exact rooted fields
  rw [leafRoot, ← hex_root] at nonzero
  rw [ReadRoutes.path_reply represents nonzero leafIndex, hex_path, hex_root, List.map_map,
    List.map_map]
  rfl

/-- The client gathers the path and the root for the circuit. -/
theorem note_gathers {note : DepositNote} {nullifier secret : Field} {recipientAddress : String}
    {wallet : Wallet} {recipient : Pubkey} {leaves : List Field} {entries : List CommitmentEntry}
    {sorted : List (List UInt8)} {leafIndex : Nat}
    (opening : Opening poseidon2Permutation note nullifier secret)
    (hand : AtHand world config deployment note recipientAddress wallet recipient)
    (listed : world (.api (.getCommitments config.poolPda)) = .ok entries)
    (read : existingCommitments entries = some sorted)
    (located : sorted.findIdx? (NoteText.sameHex note.commitment) = some leafIndex)
    (answered : world (.api (.getProof config.poolPda leafIndex)) = .ok
      ⟨((leafPath poseidon2Permutation leaves leafIndex).map fun step => hexOf step.1).map
          Hex64.text,
        (leafPath poseidon2Permutation leaves leafIndex).map Prod.snd,
        (hexOf (leafRoot poseidon2Permutation leaves)).text⟩) :
    Gathers poseidon2Permutation world config (formOf note recipientAddress) leafIndex
      ⟨wallet, recipient, noteInputs poseidon2Permutation
        (leafRoot poseidon2Permutation leaves) (leafPath poseidon2Permutation leaves leafIndex)
        nullifier secret recipient note.amount⟩ := by
  obtain ⟨notes, stored, found⟩ := hand.stored
  rw [opening.spends] at found
  have secretRead : hexToBytes note.nullifierSecret = some (bytesOf nullifier).toList := by
    rw [opening.first]
    exact hex_round_trip _
  have locates : Locates poseidon2Permutation world config (formOf note recipientAddress) wallet
      (bytesOf nullifier).toList (bytesOf (Circuit.hash1 poseidon2Permutation nullifier))
      leafIndex :=
    Locates.intro wallet _ _ leafIndex notes note entries sorted hand.connected secretRead
      hand.loaded (BackendView.element_hashed poseidon2Permutation nullifier) stored found
      hand.unused listed read located
  have siblings : (((leafPath poseidon2Permutation leaves leafIndex).map fun step =>
      hexOf step.1).map Hex64.text).mapM hexToBytes =
        some ((leafPath poseidon2Permutation leaves leafIndex).map fun step =>
          (bytesOf step.1).toList) := by
    rw [List.map_map, List.mapM_map]
    simp only [Function.comp_def, hexOf, hex_encode_text, hex_round_trip]
    exact List.mapM_pure
  have second : hexToBytes note.secret = some (bytesOf secret).toList := by
    rw [opening.second]
    exact hex_round_trip _
  exact Gathers.intro wallet _ _ leafIndex _ _ _ recipient _ locates answered siblings
    (hex_round_trip _) hand.decoded second

/-- The form reads a note of its own amount exactly off the text that `copyNote` prints. -/
theorem pasted_note {note : DepositNote} {nullifier secret : Field}
    (opening : Opening poseidon2Permutation note nullifier secret)
    (amount : note.amount = NoteText.formAmount) (recipientAddress : String) :
    pasted (NoteText.copyNote note) recipientAddress = formOf note recipientAddress := by
  obtain ⟨first, second⟩ := NoteText.copy_note_read opening.first opening.second
  rw [pasted, first, second, ← amount]
  rfl

/-- What the form sends for a note, as the program is called with it. -/
structure Sends (poseidon2Permutation : Vector Field 4 → Vector Field 4) (world : World)
    (config : WithdrawFlow.Config) (note : DepositNote) (recipientAddress : String)
    (wallet : Wallet) (recipient : Pubkey) (clock : Option Int64) (tx : Transaction deployment)
    (accounts : InitWithdraw) (args : WithdrawArgs) : Prop where
  sent : ∃ sent, Asks world
      (handleWithdraw poseidon2Permutation config (NoteText.copyNote note) recipientAddress)
      (.sendRawTransaction sent) ∧ received deployment clock sent = some tx
  called : tx.instruction = .withdraw accounts args
  payer : accounts.payer = wallet.address
  nullifierHash : bytesToHex args.nullifierHash.toList = note.nullifierHash
  toKey : args.toKey = recipient
  amount : args.amount.toNat = note.amount

/-- The arguments of a note's withdrawal behind a proof. -/
def noteArgs (poseidon2Permutation : Vector Field 4 → Vector Field 4) (proof : List UInt8)
    (root nullifier : Field) (recipient : Pubkey) (amount : Nat) : WithdrawArgs where
  proof := proof
  nullifierHash := bytesOf (Circuit.hash1 poseidon2Permutation nullifier)
  root := bytesOf root
  toKey := recipient
  amount := UInt64.ofNat amount

theorem note_amount (proof : List UInt8) (root nullifier : Field) (recipient : Pubkey)
    {amount : Nat} (small : amount < 2 ^ 64) :
    (noteArgs poseidon2Permutation proof root nullifier recipient amount).amount.toNat =
      amount := by
  rw [noteArgs, UInt64.toNat_ofNat', Nat.mod_eq_of_lt small]

/-- The program shows the verifier what the client showed the circuit, but for an address
past the base modulus. -/
theorem note_shown_iff (proof : List UInt8) (root nullifier : Field) (recipient : Pubkey)
    {amount : Nat} (small : amount < 2 ^ 64) :
    Verifier.shownOf (noteArgs poseidon2Permutation proof root nullifier recipient amount) =
        shownTo poseidon2Permutation root nullifier recipient amount ↔
      recipient.value < PublicInputs.programModulus := by
  have paid : Verifier.amountField (UInt64.ofNat amount) = Fin.ofNat bn254Modulus amount := by
    rw [Verifier.amountField, UInt64.toNat_ofNat', Nat.mod_eq_of_lt small]
  rw [← reduced_field_iff]
  simp [Verifier.shownOf, noteArgs, shownTo, paid]

/-- A proof of the note, signed and sent, reaches the program in order. -/
theorem note_sends (draft : WithdrawFlow.Draft) {proof : List UInt8} (root nullifier : Field)
    {note : DepositNote} {recipientAddress : String} {wallet : Wallet} {recipient : Pubkey}
    {amount : Nat} (small : amount < 2 ^ 64) (short : proof.length < 2 ^ 32)
    (hand : AtHand world config deployment note recipientAddress wallet recipient)
    (own : draft.wallet = wallet) (named : draft.recipient = recipient)
    (rooted : draft.inputs.root = (bytesOf root).toList)
    (hashed : draft.inputs.nullifierHash = bytesOf (Circuit.hash1 poseidon2Permutation nullifier))
    (paid : draft.inputs.amount = amount) (timestamp : Int64) :
    ∃ (sent : WithdrawTransaction) (tx : Transaction deployment) (accounts : InitWithdraw),
      Asks world (WithdrawFlow.submit config draft proof) (.sendRawTransaction sent) ∧
        received deployment (some timestamp) sent = some tx ∧
        tx.instruction = .withdraw accounts
          (noteArgs poseidon2Permutation proof root nullifier recipient amount) ∧
        accounts.payer = wallet.address ∧
        Acceptance.InOrder tx accounts
          (noteArgs poseidon2Permutation proof root nullifier recipient amount) := by
  obtain ⟨latest, dated⟩ := hand.dated
  obtain ⟨data, written, read⟩ := withdraw_call_written
    (noteArgs poseidon2Permutation proof root nullifier recipient amount) short
  rw [note_amount _ _ _ _ small] at written
  have filled : withdrawData proof draft.inputs.nullifierHash draft.inputs.root draft.recipient
      draft.inputs.amount = some data := by
    rw [rooted, hashed, named, paid]
    exact written
  have signs : draft.wallet.signs = true := own ▸ hand.signs
  have asked : Asks world (WithdrawFlow.submit config draft proof)
      (.sendRawTransaction (withdrawTransaction config draft latest data)) :=
    asks_send filled dated signs (hand.signed _)
  have keyed : deployment.poolVault ≠ (withdrawTransaction config draft latest data).payer := by
    rw [withdrawTransaction, own]
    exact hand.keyed
  obtain ⟨tx, called, signers, writable, clock, unaborted, instruction⟩ :=
    received_called keyed read (some timestamp)
  refine ⟨_, tx, _, asked, called, instruction, congrArg Wallet.address own, ?_⟩
  refine ⟨unaborted, by rw [clock]; rfl, ?_, rfl, rfl, hand.pool, ?_, hand.poolVault, named, ?_⟩
  · rw [signers]
    exact List.mem_singleton_self _
  · change config.nullifierRecord draft.inputs.nullifierHash = _
    rw [hand.nullifierRecord, hashed]
    rfl
  · rw [writable]
    exact fun key member => member

open DepositRace Indexer
open PoolState hiding treeDepth
open Authenticity (deposited)
variable {launch : Launch verifier deployment}

/-- A text is listed if it is of one of the events listed. -/
theorem listed_events {found : List Found} {count : Nat} {text : String} :
    text ∈ ((leaves found).take count).map Hex64.text ↔
      ∃ event ∈ found.take count, bytesToHex event.2.commitment.toList = text := by
  rw [leaves, ← List.map_take, List.map_map, List.mem_map]
  simp only [Function.comp_apply, leafOf, hex_encode_text]

/-- A note that is listed is at some position of everything deposited. -/
theorem note_leaf {system : System deployment}
    (sound : Sound launch poseidon2Permutation system)
    (settled : Settled poseidon2Permutation system) {note : DepositNote}
    {nullifier secret : Field} (opening : Opening poseidon2Permutation note nullifier secret)
    {count : Nat} (held : ∃ event ∈ system.found.take count,
      bytesToHex event.2.commitment.toList = note.commitment) :
    ∃ leafIndex, leafIndex < (deposited system.history).length ∧
      ((system.found.take count).map fun event => event.2.commitment.toList).findIdx?
        (NoteText.sameHex note.commitment) = some leafIndex ∧
      MerkleTree.padded 0 (deposited system.history) leafIndex =
        Circuit.hash3 poseidon2Permutation nullifier secret
          (Fin.ofNat bn254Modulus note.amount) := by
  obtain ⟨event, member, same⟩ := held
  obtain ⟨leafIndex, inside, located, there⟩ := note_located
    (List.mem_map_of_mem (f := fun event : Found => event.2.commitment) member)
  rw [List.map_map] at located
  rw [List.length_map, List.length_take] at inside
  rw [List.getElem_map, List.getElem_take] at there
  have whole : deposited system.history =
      system.found.map fun event => fieldOf event.2.commitment := by
    have facts := congrArg (List.map fieldOf) (found_commitments
      (Accounting.trace_log launch sound.trace) (settled_found sound settled.indexed))
    rw [List.map_map, List.map_map] at facts
    exact facts.symm
  -- the text of a commitment gives its bytes, so an event with the note's text is its deposit
  have bytes : event.2.commitment = bytesOf (Circuit.hash3 poseidon2Permutation nullifier secret
      (Fin.ofNat bn254Modulus note.amount)) := by
    have text := congrArg hexToBytes (same.trans opening.commits)
    rw [elementHex, hex_round_trip, hex_round_trip] at text
    exact Vector.toList_inj.mp (Option.some.inj text)
  have early : leafIndex < (deposited system.history).length := by
    rw [whole, List.length_map]
    omega
  refine ⟨leafIndex, early, ?_, ?_⟩
  · rw [← same]
    exact located
  · rw [MerkleTree.padded, List.getD_eq_getElem _ _ early]
    simp only [whole, List.getElem_map, there, bytes, fieldOf_bytesOf]

/-- Once everything is indexed, the client gathers a path from a listed note to the root. -/
theorem note_drafts {services : Services poseidon2Permutation} {system : System deployment}
    {note : DepositNote} {nullifier secret : Field} {recipientAddress : String} {wallet : Wallet}
    {recipient : Pubkey} (reached : Reachable services verifier launch UpToDate system)
    (settled : Settled poseidon2Permutation system) {listed : List Hex64}
    (serves : Serves services system world config listed)
    (opening : Opening poseidon2Permutation note nullifier secret)
    (held : note.commitment ∈ listed.map Hex64.text)
    (hand : AtHand world config deployment note recipientAddress wallet recipient) :
    ∃ leafIndex,
      MerkleTree.climb (Circuit.hash2 poseidon2Permutation)
          (Circuit.hash3 poseidon2Permutation nullifier secret
            (Fin.ofNat bn254Modulus note.amount))
          (leafPath poseidon2Permutation (deposited system.history) leafIndex) =
        leafRoot poseidon2Permutation (deposited system.history) ∧
      Gathers poseidon2Permutation world config (formOf note recipientAddress) leafIndex
        ⟨wallet, recipient, noteInputs poseidon2Permutation
          (leafRoot poseidon2Permutation (deposited system.history))
          (leafPath poseidon2Permutation (deposited system.history) leafIndex)
          nullifier secret recipient note.amount⟩ := by
  have sound := reachable_sound reached
  obtain ⟨entries, lists, asked⟩ := serves.lists
  obtain ⟨count, _, rfl, read⟩ := ReadRoutes.lists_indexed reached lists
  obtain ⟨leafIndex, inside, located, own⟩ :=
    note_leaf sound settled opening (listed_events.mp held)
  obtain ⟨pool, _, follows⟩ := trace_follows launch sound.trace
  have size : (deposited system.history).length = (deposits system.history).length :=
    List.length_map _
  have room : leafIndex < 2 ^ Circuit.treeDepth :=
    Nat.lt_of_lt_of_le (size ▸ inside) follows.bounded
  have answered := serves.proved leafIndex _
    (path_served (settled_represents sound settled) settled.rooted leafIndex)
  refine ⟨leafIndex, ?_, ?_⟩
  · rw [← own]
    exact MerkleTree.climb_leaf _ _ _ leafIndex room
  · exact note_gathers opening hand asked read located answered

/-- Once everything is indexed, the form gets a listed note of its amount as far as a call of
the program, with the newest root and a proof of it. -/
theorem form_sends {services : Services poseidon2Permutation} {system : System deployment}
    (reached : Reachable services verifier launch UpToDate system)
    (settled : Settled poseidon2Permutation system) {listed : List Hex64}
    (serves : Serves services system world config listed) {note : DepositNote}
    (created : NoteText.Created poseidon2Permutation note)
    (amount : note.amount = NoteText.formAmount) (held : note.commitment ∈ listed.map Hex64.text)
    {inputsOf : List UInt8 → Option BackendView.Inputs}
    (proves : Proves poseidon2Permutation world inputsOf verifier) {recipientAddress : String}
    {wallet : Wallet} {recipient : Pubkey}
    (hand : AtHand world config deployment note recipientAddress wallet recipient)
    (timestamp : Int64) :
    ∃ (tx : Transaction deployment) (accounts : InitWithdraw) (args : WithdrawArgs),
      Sends poseidon2Permutation world config note recipientAddress wallet recipient
          (some timestamp) tx accounts args ∧
        Acceptance.InOrder tx accounts args ∧
        args.root = bytesOf (leafRoot poseidon2Permutation (deposited system.history)) ∧
        (Acceptance.Proved verifier args ↔ recipient.value < PublicInputs.programModulus) := by
  obtain ⟨nullifier, secret, opening⟩ := created_opening poseidon2Permutation created
  obtain ⟨leafIndex, climbs, gathers⟩ := note_drafts reached settled serves opening held hand
  have small : note.amount < 2 ^ 64 := by
    rw [amount]
    decide
  have inField : note.amount < bn254Modulus := Nat.lt_trans small (by decide)
  -- the circuit accepts the note, so there is a witness and a proof for it
  obtain ⟨hidden, runs, accepts⟩ := note_executes poseidon2Permutation recipient inField
    (MerkleTree.path_length _ _ _ _ _) climbs
  obtain ⟨file, executed⟩ := proves.executes _ _ runs accepts
  obtain ⟨given, same, decoded⟩ := proves.determines _ _ executed
  obtain rfl := Option.some.inj (runs.symm.trans same)
  obtain ⟨proof, proven, short, verifies⟩ := proves.proves file _ decoded accepts
  obtain ⟨sent, tx, accounts, submits, arrives, called, paying, inOrder⟩ :=
    note_sends ⟨wallet, recipient, noteInputs poseidon2Permutation
        (leafRoot poseidon2Permutation (deposited system.history))
        (leafPath poseidon2Permutation (deposited system.history) leafIndex)
        nullifier secret recipient note.amount⟩
      (leafRoot poseidon2Permutation (deposited system.history)) nullifier small short hand
      rfl rfl rfl rfl rfl timestamp
  refine ⟨tx, accounts, _, ⟨⟨sent, ?_, arrives⟩, called, paying, ?_, rfl, ?_⟩, inOrder, rfl, ?_⟩
  · refine asks_handle_send.mpr ⟨⟨wallet, hand.connected⟩, NoteText.copy_note_shown note,
      hand.named, ?_⟩
    rw [pasted_note opening amount, WithdrawFlow.withdraw]
    refine asks_bind.mpr (Or.inr ⟨_, ends_gather.mpr ⟨leafIndex, gathers⟩, ?_⟩)
    refine asks_bind.mpr (Or.inr ⟨file, ends_ask.mpr executed, ?_⟩)
    exact asks_bind.mpr (Or.inr ⟨proof, ends_ask.mpr proven, submits⟩)
  · exact opening.spends.symm
  · exact note_amount _ _ _ _ small
  · rw [← note_shown_iff proof (leafRoot poseidon2Permutation (deposited system.history))
      nullifier recipient small, ← Verifier.read_encoded]
    exact verifies _ _ _ _

/-- A note that is not listed is not sent. -/
theorem unlisted_unsent {services : Services poseidon2Permutation} {system : System deployment}
    (reached : Reachable services verifier launch UpToDate system) {listed : List Hex64}
    (serves : Serves services system world config listed) {note : DepositNote}
    (created : NoteText.Created poseidon2Permutation note)
    (amount : note.amount = NoteText.formAmount)
    (unlisted : note.commitment ∉ listed.map Hex64.text) {recipientAddress : String}
    {wallet : Wallet} {recipient : Pubkey}
    (hand : AtHand world config deployment note recipientAddress wallet recipient)
    (sent : WithdrawTransaction) :
    ¬ Asks world
      (handleWithdraw poseidon2Permutation config (NoteText.copyNote note) recipientAddress)
      (.sendRawTransaction sent) := by
  obtain ⟨nullifier, secret, opening⟩ := created_opening poseidon2Permutation created
  obtain ⟨entries, lists, asked⟩ := serves.lists
  obtain ⟨count, _, rfl, read⟩ := ReadRoutes.lists_indexed reached lists
  obtain ⟨notes, stored, found⟩ := hand.stored
  intro asks
  obtain ⟨_, _, _, sends⟩ := asks_handle_send.mp asks
  rw [pasted_note opening amount] at sends
  obtain ⟨leafIndex, draft, gathers⟩ := asks_send_gathers sends
  obtain ⟨wallet, nullifierSecret, nullifierHash, _, response, merkleProof, latestRoot, recipient,
    secret, locates, _⟩ := gathers
  obtain ⟨held, own, given, sorted, connected, secretRead, loaded, hashed, kept, first, unused,
    answered, sortedRead, located⟩ := locates
  -- it is this note that is looked for, and it would be found at some event
  have own' : own = note := by
    change hexToBytes note.nullifierSecret = _ at secretRead
    rw [opening.first, elementHex, hex_round_trip] at secretRead
    obtain rfl := Option.some.inj secretRead
    rw [BackendView.element_hashed] at hashed
    obtain rfl := Option.some.inj hashed
    obtain rfl := Except.ok.inj (stored.symm.trans kept)
    rw [opening.spends, elementHex] at found
    exact Option.some.inj (first.symm.trans found)
  obtain rfl := Except.ok.inj (asked.symm.trans answered)
  obtain rfl := Option.some.inj (read.symm.trans sortedRead)
  rw [own'] at located
  obtain ⟨inside, same, _⟩ := List.findIdx?_eq_some_iff_getElem.mp located
  rw [opening.commits, elementHex, NoteText.same_hex_iff, List.getElem_map] at same
  refine unlisted (listed_events.mpr ⟨_, List.getElem_mem (by rwa [List.length_map] at inside), ?_⟩)
  rw [same, opening.commits, elementHex]

/-- With the newest root and a proof nothing is missing but these. -/
theorem sent_taken_iff (bounded : Acceptance.Bounded launch.genesis.lamports)
    (runtime : Runtime deployment) {system : System deployment}
    (sound : Sound launch poseidon2Permutation system)
    (settled : Settled poseidon2Permutation system) (begun : deposits system.history ≠ [])
    {tx : Transaction deployment} {accounts : InitWithdraw} {args : WithdrawArgs}
    (called : tx.instruction = .withdraw accounts args)
    (inOrder : Acceptance.InOrder tx accounts args)
    (rooted : args.root = bytesOf (leafRoot poseidon2Permutation (deposited system.history))) :
    (∃ after, process verifier deployment system.chain (judged runtime system.chain tx) =
        .ok after) ↔
      runtime system.chain tx = false ∧ Acceptance.Proved verifier args ∧
        (∀ earlier ∈ withdrawals system.history, earlier.nullifierHash ≠ args.nullifierHash) ∧
        Acceptance.Funded deployment system.chain.lamports accounts args := by
  have newest := (Acceptance.newest_recent_iff (pushedRoots system.history) []).mpr
    (Or.inl (by decide))
  rw [settled_root sound settled begun, List.append_nil] at newest
  rw [Acceptance.withdraw_trace_iff launch bounded sound.trace
    (show (judged runtime system.chain tx).instruction = _ from called), rooted]
  constructor
  · rintro ⟨judgedOrder, proved, _, fresh, funded⟩
    exact ⟨judgedOrder.unaborted, proved, fresh, funded⟩
  · rintro ⟨passes, proved, fresh, funded⟩
    exact ⟨Acceptance.order_judged inOrder passes, proved, newest, fresh, funded⟩

theorem listed_begun {services : Services poseidon2Permutation} {system : System deployment}
    (reached : Reachable services verifier launch UpToDate system) {listed : List Hex64}
    {entries : List CommitmentEntry} (lists : Lists services system listed entries)
    {text : String} (held : text ∈ listed.map Hex64.text) : deposits system.history ≠ [] := by
  obtain ⟨count, _, rfl, _⟩ := ReadRoutes.lists_indexed reached lists
  intro none
  have facts := congrArg List.length (ReadRoutes.indexed_facts (reachable_sound reached))
  rw [none, List.map_nil, List.take_nil, List.length_map] at facts
  obtain ⟨event, member, _⟩ := listed_events.mp held
  exact absurd (List.length_pos_of_mem (List.mem_of_mem_take member))
    (by rw [facts]; exact Nat.lt_irrefl 0)

/-- While Redis keeps no response and everything is indexed, all that was accepted is listed. -/
theorem rows_listed {services : Services poseidon2Permutation} {system : System deployment}
    (sound : Sound launch poseidon2Permutation system)
    (indexed : system.found.length = (deposits system.history).length)
    (missed : system.cache = none) {listed : List Hex64} {entries : List CommitmentEntry}
    (lists : Lists services system listed entries) : listed = accepted system := by
  rcases ReadRoutes.lists_cases lists with ⟨held, _⟩ | ⟨rows, _⟩
  · rw [missed] at held
    cases held
  · have whole : (accepted system).length ≤ system.found.length := by
      rw [accepted, List.length_map, indexed]
    rw [rows, ReadRoutes.indexed_rows sound, ReadRoutes.indexed_leaves sound,
      List.take_of_length_le whole]

theorem issued_settled {before after : System deployment} {tx : Transaction deployment}
    {args : DepositArgs} {leaf : Field} (sent : depositOf tx = some args)
    (own : args.commitment = bytesOf leaf) (history : after.history = before.history ++ [tx])
    (canonical : ∀ args ∈ deposits before.history, Canonical args.commitment)
    (indexed : after.found.length = (deposits after.history).length)
    (rooted : leafRoot poseidon2Permutation (deposited before.history ++ [leaf]) ≠ 0) :
    Settled poseidon2Permutation after := by
  have more := deposits_snoc before.history sent
  refine ⟨indexed, ?_, ?_⟩
  · rw [history, more]
    intro other member
    rcases List.mem_append.mp member with earlier | last
    · exact canonical other earlier
    · rw [List.mem_singleton.mp last, own]
      exact bytes_of_canonical _
  · have leaves : deposited after.history = deposited before.history ++ [leaf] := by
      rw [deposited, history, more, List.map_append, ← deposited, List.map_singleton, own,
        fieldOf_bytesOf]
    rw [leaves]
    exact rooted

end Journey

/-! A note of the form's amount with the secrets of `Prover.toml`, deposited and withdrawn. -/
section Sample
open Poseidon2 Verifier DepositRace Indexer
open PoolState hiding treeDepth
open BackendView (sampleInputsOf witnessFile)

/-- Here a proof is the witness itself, and the verifier runs the circuit again. -/
def recheck (data : List UInt8) : Bool :=
  match BackendView.readInputs.run data with
  | some (given, shown) =>
      decide (Circuit.Accepts poseidon2Permutation given.1 given.2) &&
        readInputs shown == given.1
  | none => false

theorem recheck_iff {given : BackendView.Inputs}
    (accepts : Circuit.Accepts poseidon2Permutation given.1 given.2) (shown : List UInt8) :
    recheck (witnessFile given ++ shown) = true ↔ readInputs shown = given.1 := by
  have read : BackendView.readInputs.run (witnessFile given ++ shown) = some (given, shown) :=
    BackendView.reads_inputs given shown
  simp only [recheck, read, decide_eq_true accepts, Bool.true_and, beq_iff_eq]

theorem witness_file_length (given : BackendView.Inputs) : (witnessFile given).length = 852 := by
  have field : ∀ element, (BackendView.writeField element).length = 32 :=
    fun element => Vector.length_toList
  have flag : ∀ even, (BackendView.writeBool even).length = 1 := fun even => rfl
  have siblings : given.2.merkleProof.toList.length = 20 := Vector.length_toList
  have sides : given.2.isEven.toList.length = 20 := Vector.length_toList
  simp only [witnessFile, List.length_append, List.length_flatMap, field, flag, List.map_const',
    List.sum_replicate, siblings, sides, smul_eq_mul]

def noteConfig : WithdrawFlow.Config :=
  ⟨"pool", sampleDeployment.pool, sampleDeployment.poolVault, sampleDeployment.nullifierRecord⟩

def noteWallet : Wallet := ⟨payer, true⟩

def noteRecipient : Pubkey := Bytes32.ofNat 0x075bcd15

def noteWorld (note : DepositNote) (tables : Tables) (store : RedisTree.Store) : World
  | .wallet => .ok (some noteWallet)
  | .hashes => .ok ()
  | .notes => .ok [note]
  | .api (.getCommitments _) => .ok (ReadRoutes.entriesOf tables)
  | .api (.getProof _ leafIndex) =>
      match ProofRoutes.reply (hashHex poseidon2Permutation) PoolState.treeDepth store
        leafIndex with
      | .ok answer => .ok ⟨answer.proof.map Hex64.text, answer.isEven, answer.root.text⟩
      | .error _ => .error "Failed to fetch proof"
  | .api (.withdraw witness) =>
      match (Base64.decode witness.toList).bind sampleInputsOf with
      | some given => .ok (witnessFile given)
      | none => .error "Withdraw failed"
  | .publicKey _ => .ok noteRecipient
  | .execute inputs => BackendView.execute poseidon2Permutation inputs
  | .latestBlockhash => .ok ⟨"", 0⟩
  | .signTransaction _ => .ok ()
  | .sendRawTransaction _ => .ok ""
  | .confirmTransaction _ _ => .ok none
  | .markUsed _ => .ok ()
  | .balance _ => .ok 0

/-- While Redis keeps no response the form is answered from the tables. -/
theorem note_world_serves {services : Services poseidon2Permutation}
    {system : System sampleDeployment} (missed : system.cache = none) (note : DepositNote) :
    Serves services system (noteWorld note (backend services system.found).tables
      (backend services system.found).tree.store) noteConfig
      (dbLeaves (backend services system.found).tables) := by
  refine ⟨⟨_, ReadRoutes.lists_rows missed, rfl⟩, ?_⟩
  intro leafIndex answer replied
  simp only [noteWorld, replied]

theorem note_world_determines (note : DepositNote) (tables : Tables) (store : RedisTree.Store) :
    BackendView.Determines (noteWorld note tables store) sampleInputsOf :=
  BackendView.sample_determines poseidon2Permutation []

theorem note_world_proves (note : DepositNote) (tables : Tables) (store : RedisTree.Store) :
    Proves poseidon2Permutation (noteWorld note tables store) sampleInputsOf recheck := by
  refine ⟨note_world_determines note tables store, ?_, ?_⟩
  · intro inputs given runs accepts
    exact ⟨_, BackendView.execute_accepted poseidon2Permutation runs accepts⟩
  · intro file given decoded accepts
    refine ⟨witnessFile given, ?_, ?_, ?_⟩
    · simp only [noteWorld, String.toList_ofList, Base64.decode_encode, Option.bind_some, decoded]
    · rw [witness_file_length]
      decide
    · intro root nullifierHash recipient amount
      exact recheck_iff accepts _

theorem note_at_hand {note : DepositNote} (unused : note.used = false) (tables : Tables)
    (store : RedisTree.Store) :
    AtHand (noteWorld note tables store) noteConfig sampleDeployment note "recipient" noteWallet
      noteRecipient where
  connected := rfl
  signs := rfl
  keyed := by decide
  loaded := rfl
  stored := ⟨[note], rfl, by simp⟩
  unused := unused
  named := by decide +kernel
  decoded := rfl
  dated := ⟨_, rfl⟩
  signed := fun _ => rfl
  pool := rfl
  poolVault := rfl
  nullifierRecord := rfl

def formCommitment : Field := 0x2a477be8a0468b58766e0b5790617fef011319667c4bde306363d0e397b2cc54

def formValues : List Field :=
  [0x30249f673255e2bb0f345ffa0693eefc5a86f0cc5d600a8f4de79b46b6bf57a5,
   0x105d73e24a7fa86d04abdede1123e1e75a3c0cea75c33b960588923e36307405,
   0x1b22a0f59a5575da5954f23c5843993846460b782ae0cff69653a4fe830fa197,
   0x23fcdc6fbb87ac4f91bb8a8033b18573a6d8b9e0ad1e883dd17594aa19be0e44,
   0x158f2e8b42d59387ed0a3b36077d2cf53c4e3410608b0ffa9aa473c1414aae37,
   0x108e09891a47f0395394054af145d9258e658bfd0f9534c5324eba0c5e6f7a5b,
   0x1f3f085ccdab7b55d7980a45059cb874b49a9081280cdecd59e22f974e149c5a,
   0x12ed7e87cdb185581c829a3a4571127d3474858ea7cb359b0320e0f802e387fe,
   0x13b07a2d06324ce5f1f62794d9bc522b5f899da60fb24187571f5c05df376e35,
   0x0afa03eae54616d6d42f374a6aba07204eeddc89dbf85395813897f48479d5b2,
   0x118d2aa874062e93078a2d7735287f847cc8b4dfa2b0a7de62142066ca88381b,
   0x0454dd5a2dc8f10dfd2382537fb31905da9bbc7ac1d689b30a79803d676356b0,
   0x1c88e46bebe7d244f513e477d0231209da70a89a7b700481a48abd7dbf5c0e95,
   0x2fd2f0f9c13f27f4f661ec9b6306e21e9dd0c8bdc37b1d1b7cd89a9788372204,
   0x271ce3d717bfdb7ff7d6981b48dc65398a3ad93edf40ac2c2d3dfc441971bdca,
   0x09daa1105c53f51d304cf969dce5f04cadc0a59da530b1f3ca3ae0228012da89,
   0x28ee06bec743de4707b3b794e158fe6293c2828c7893cc37e7ba7afeec161b9a,
   0x12233f74e6c0e8ad1f44a9194bc1a47c38dbb223a4080db125f18dc70fad6dfd,
   0x2723811771e617227755a12c892510d981deb6d1e511bae4cd30a046cca263d3,
   0x0e1a0e9ab36d83a4fad57ad54cbb8523e73565bcb7741629c81c046f8c1ec76f]

theorem form_commitment :
    Issuance.leafOf poseidon2Permutation (bytesOf proverHidden.nullifier)
      (bytesOf proverHidden.secret) NoteText.formAmount = formCommitment := by
  decide +kernel

theorem form_values :
    MerkleTree.climbsBy (Circuit.hash2 poseidon2Permutation) formCommitment leftPath
      formValues = true := by
  decide +kernel

theorem form_root_nonzero : leafRoot poseidon2Permutation [formCommitment] ≠ 0 := by
  rw [leafRoot, Authenticity.single_root form_values]
  decide +kernel

/-- A deposit at the form, the first of all, taken by the program. -/
structure FirstDeposit (draft : DepositClient.Draft) (tx : Transaction sampleDeployment)
    (accounts : InitDeposit) (args : DepositArgs) (next : PoolProgram.Chain) : Prop where
  hands : Issuance.Hands poseidon2Permutation
    (Issuance.noteWeather (backend sampleServices []).tables) Issuance.noteForm
    NoteText.formAmount noteWallet formCommitment (some 1_700_000_000) draft tx accounts args
  rooted : hexEncode args.newRoot = MerkleTree.root (hashHex poseidon2Permutation) emptyLeaf
    [hexEncode args.commitment] PoolState.treeDepth
  taken : process recheck sampleDeployment (sampleLaunch recheck).started
    (judged Acceptance.vaultRent (sampleLaunch recheck).started tx) = .ok next

theorem start_reached : Reachable sampleServices recheck (sampleLaunch recheck) UpToDate
    (initial recheck (sampleLaunch recheck)) := .start

theorem start_serves : Issuance.Serves sampleServices (initial recheck (sampleLaunch recheck))
    (Issuance.noteWeather (backend sampleServices []).tables) Issuance.noteForm [] :=
  Issuance.note_weather_serves rfl

theorem first_deposit : ∃ draft tx accounts args next,
    FirstDeposit draft tx accounts args next := by
  obtain ⟨draft, tx, accounts, args, hands, rooted, offers⟩ := Issuance.form_hands start_reached
    (by decide) (show NoteText.formAmount < 2 ^ 64 by decide)
    (show belowMinimum Issuance.noteForm NoteText.formAmount = false by decide) start_serves
    (Issuance.note_at_form _) 1_700_000_000
  rw [form_commitment] at hands
  have enough : PoolState.minDepositAmount ≤ args.amount := by
    rw [UInt64.le_iff_toNat_le, hands.paid]
    decide
  have passes : Acceptance.vaultRent (sampleLaunch recheck).started tx = false := by
    rw [Acceptance.vaultRent, hands.called]
  have another := Issuance.first_root hands.commitment rooted form_root_nonzero
  have funded : args.amount.toNat ≤
      (sampleLaunch recheck).started.lamports accounts.depositor := by
    rw [hands.paid, hands.depositor]
    exact Nat.le_trans (by decide) (Issuance.start_funded fun _ => true)
  obtain ⟨next, taken⟩ := (Acceptance.deposit_trace_iff (sampleLaunch recheck)
    Acceptance.sample_bounded (reachable_sound start_reached).trace
    (show (judged Acceptance.vaultRent (sampleLaunch recheck).started tx).instruction = _ from
      hands.called)).mpr
    ⟨Acceptance.offered_judged (offers enough) passes, by decide, another, funded⟩
  exact ⟨draft, tx, accounts, args, next, hands, rooted, taken⟩

/-- The vault then holds the deposit alone, and the payer still has a record's rent. -/
theorem first_balances {draft : DepositClient.Draft} {tx : Transaction sampleDeployment}
    {accounts : InitDeposit} {args : DepositArgs} {next : PoolProgram.Chain}
    (first : FirstDeposit draft tx accounts args next) :
    next.lamports sampleDeployment.poolVault = NoteText.formAmount ∧
      sampleDeployment.recordRent ≤ next.lamports payer := by
  obtain ⟨vault, depositor⟩ := Issuance.deposit_balances
    (show (judged Acceptance.vaultRent (sampleLaunch recheck).started tx).instruction = _ from
      first.hands.called) first.taken
  have blank : (sampleLaunch recheck).started.lamports sampleDeployment.poolVault = 0 := by
    decide +kernel
  have funded : sampleDeployment.recordRent + NoteText.formAmount ≤
      (sampleLaunch recheck).started.lamports payer := by decide +kernel
  rw [first.hands.paid, first.hands.depositor] at depositor
  rw [first.hands.paid, blank, Nat.zero_add] at vault
  change _ = (sampleLaunch recheck).started.lamports payer at depositor
  exact ⟨vault, Nat.le_of_add_le_add_right (funded.trans_eq depositor.symm)⟩

/-- Paying the whole out leaves no vault below its rent. -/
theorem last_passes {chain : PoolProgram.Chain} {spent : Transaction sampleDeployment}
    {withdrawn : InitWithdraw} {call : WithdrawArgs}
    (called : spent.instruction = .withdraw withdrawn call)
    (amount : call.amount.toNat = NoteText.formAmount)
    (vault : chain.lamports sampleDeployment.poolVault = NoteText.formAmount) :
    Acceptance.vaultRent chain spent = false := by
  rw [Acceptance.vaultRent, called]
  simp only [amount, vault]
  decide

end Sample

end PrivateTransfer.Redemption
