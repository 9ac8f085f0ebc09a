import PrivateTransfer.Acceptance
import PrivateTransfer.InstructionData
import PrivateTransfer.NoteText
import PrivateTransfer.ReadRoutes

/-!
A note on its way in. The client draws its secrets, lists the commitments, has the
merkle service compute the root with its own behind them and hands over a transaction;
the program reads it and takes it. Every party is the one of its own module.
-/

namespace PrivateTransfer.Issuance

open ClientHex DepositClient DepositRace InstructionData MerkleService PoolProgram PoolRuns
open Acceptance (Runtime judged)
open Authenticity (deposited)
open ReadRoutes (Lists PostError postRoot)

/-! What reaches the program. -/
section Received
variable (deployment : Deployment)

/-- The program picks an instruction by the first eight bytes and reads its arguments
behind them; bytes that are left over are not looked at. -/
def callOf {Args : Type} (discriminator : List UInt8) (reader : Borsh.Reader Args)
    (data : List UInt8) : Option Args :=
  if data.take 8 = discriminator then (reader.run (data.drop 8)).map Prod.fst else none

theorem call_decodes {Args : Type} {reader : Borsh.Reader Args} {discriminator data : List UInt8}
    {args : Args} (decodes : Decodes reader discriminator data args) :
    callOf discriminator reader data = some args := by
  rw [callOf, if_pos decodes.opens, decodes.reads]
  rfl

/-- The transaction of `useDeposit.ts` as the runtime presents it: the payer signs, and the
first three of its keys are writable. No wallet has the address of the vault. -/
def received (clock : Option Int64) (sent : DepositTransaction) :
    Option (Transaction deployment) :=
  if unsigned : deployment.poolVault = sent.payer then none
  else (callOf depositDiscriminator depositArgs sent.data).map fun args =>
    { signers := [sent.payer]
      writable := [sent.accounts.pool, sent.accounts.poolVault, sent.accounts.depositor]
      clock := clock
      aborted := false
      instruction := .deposit sent.accounts args
      vaultUnsigned := by rwa [List.mem_singleton] }

variable {deployment}

theorem received_called {sent : DepositTransaction} {args : DepositArgs}
    (keyed : deployment.poolVault ≠ sent.payer)
    (read : callOf depositDiscriminator depositArgs sent.data = some args)
    (clock : Option Int64) :
    ∃ tx, received deployment clock sent = some tx ∧ tx.signers = [sent.payer] ∧
      tx.writable = [sent.accounts.pool, sent.accounts.poolVault, sent.accounts.depositor] ∧
      tx.clock = clock ∧ tx.aborted = false ∧ tx.instruction = .deposit sent.accounts args := by
  rw [received, dif_neg keyed, read]
  exact ⟨_, rfl, rfl, rfl, rfl, rfl, rfl⟩

end Received

/-! One more leaf makes another root. -/
section Growth
variable (poseidon2Permutation : Vector Field 4 → Vector Field 4)

def leafRoot (leaves : List Field) : Field :=
  MerkleTree.root (Circuit.hash2 poseidon2Permutation) 0 leaves Circuit.treeDepth

/-- The pairs compressed in the tree of these leaves. -/
def Compressed (leaves : List Field) (inputs : Field × Field) : Prop :=
  MerkleTree.TreeInputs (Circuit.hash2 poseidon2Permutation) (MerkleTree.padded 0 leaves)
    Circuit.treeDepth inputs

/-- A commitment that is not the empty leaf, next to which nothing collides; the first of
all does not bring the tree to the root that stands for no tree. -/
structure Fresh (leaves : List Field) (commitment : Field) : Prop where
  nonzero : commitment ≠ 0
  rooted : leaves = [] → leafRoot poseidon2Permutation [commitment] ≠ 0
  unbroken : ¬ MerkleTree.Collision (Circuit.hash2 poseidon2Permutation) fun inputs =>
    Compressed poseidon2Permutation leaves inputs ∨
      Compressed poseidon2Permutation (leaves ++ [commitment]) inputs

variable {poseidon2Permutation}

theorem root_grows {leaves : List Field} {commitment : Field}
    (fresh : Fresh poseidon2Permutation leaves commitment)
    (room : leaves.length < 2 ^ Circuit.treeDepth) :
    leafRoot poseidon2Permutation (leaves ++ [commitment]) ≠
      leafRoot poseidon2Permutation leaves := by
  intro same
  rcases MerkleTree.root_binding _ _ _ _ same.symm with agree | collision
  · have own := agree leaves.length room
    simp only [MerkleTree.padded, List.getD_append_right _ _ _ _ (Nat.le_refl _), Nat.sub_self,
      List.getD_cons_zero, List.getD_eq_default _ _ (Nat.le_refl _)] at own
    exact fresh.nonzero own.symm
  · exact fresh.unbroken collision

/-- The hex tree over any commitments is the tree of what they denote. -/
theorem hex_root_denotes (leaves : List Hex64) :
    fieldOfHex (MerkleTree.root (hashHex poseidon2Permutation) emptyLeaf leaves
        PoolState.treeDepth) =
      leafRoot poseidon2Permutation (leaves.map fieldOfHex) := by
  have empty : fieldOfHex emptyLeaf = 0 := by decide +kernel
  have leaf : (fun k => fieldOfHex (MerkleTree.padded emptyLeaf leaves k)) =
      MerkleTree.padded 0 (leaves.map fieldOfHex) := by
    funext k
    rw [MerkleTree.padded, MerkleTree.padded, ← empty, List.getD_map]
  rw [leafRoot, MerkleTree.root, MerkleTree.root, ← leaf]
  refine (MerkleTree.node_map _ _ fieldOfHex (fun left right => ?_) _ _ 0).symm
  rw [hashHex, fieldOfHex_hexOf]

end Growth

/-! What the client relies on. -/
section Parties

/-- `/api/commitments`, answered with these leaves, and `/root` of the merkle service. -/
structure Serves {poseidon2Permutation : Vector Field 4 → Vector Field 4} {deployment : Deployment}
    (services : Services poseidon2Permutation) (system : System deployment) (weather : Weather)
    (config : DepositClient.Config) (listed : List Hex64) : Prop where
  lists : ∃ entries, Lists services system listed entries ∧
    weather.answers (.commitments config.pool) = .ok entries
  rooted : ∀ (leaves : List Hex64) (root : Hex64),
    postRoot (answering (hashHex poseidon2Permutation)) leaves = .ok (some root) →
      weather.answers (.root (leaves.map Hex64.text)) = .ok (.root root.text)
  refused : ∀ (leaves : List Hex64) (error : PostError),
    postRoot (answering (hashHex poseidon2Permutation)) leaves = .error error →
      ∃ status text, weather.answers (.root (leaves.map Hex64.text)) = .ok (.refused status text)

/-- A wallet at the form, on the pool's own addresses, and what is drawn for the note. -/
structure AtHand (weather : Weather) (config : DepositClient.Config) (deployment : Deployment)
    (wallet : Wallet) (firstDraw secondDraw : Bytes32) : Prop where
  connected : weather.answers .wallet = .ok (some wallet)
  signs : wallet.signs = true
  keyed : deployment.poolVault ≠ wallet.address
  first : weather.answers (.randomBytes 0) = .ok firstDraw
  second : weather.answers (.randomBytes 1) = .ok secondDraw
  loaded : weather.answers .hashes = .ok ()
  dated : ∃ latest, weather.answers .latestBlockhash = .ok latest
  signed : ∀ transaction, weather.answers (.signTransaction transaction) = .ok ()
  pool : config.pool = deployment.pool
  poolVault : config.poolVault = deployment.poolVault

end Parties

section Journey
variable {poseidon2Permutation : Vector Field 4 → Vector Field 4} {weather : Weather}
  {config : DepositClient.Config} {deployment : Deployment} {verifier : List UInt8 → Bool}
  {launch : Launch verifier deployment}

/-- What two draws and an amount hash to. -/
def leafOf (poseidon2Permutation : Vector Field 4 → Vector Field 4)
    (firstDraw secondDraw : Bytes32) (amount : Nat) : Field :=
  Circuit.hash3 poseidon2Permutation (fieldOf firstDraw) (fieldOf secondDraw)
    (Fin.ofNat bn254Modulus amount)

theorem drawn_commitment (firstDraw secondDraw : Bytes32) {amount : Nat}
    (small : amount < bn254Modulus) :
    computeCommitment poseidon2Permutation (bytesToFieldElement firstDraw)
        (bytesToFieldElement secondDraw) amount =
      some ⟨bytesOf (leafOf poseidon2Permutation firstDraw secondDraw amount),
        bytesOf (Circuit.hash1 poseidon2Permutation (fieldOf firstDraw))⟩ := by
  have drawn : ∀ draw : Bytes32, bytesToFieldElement draw = bytesOf (fieldOf draw) :=
    WithdrawClient.reduce_bytes
  rw [drawn, drawn, computeCommitment,
    if_pos ⟨bytes_of_canonical _, bytes_of_canonical _, small⟩, fieldOf_bytesOf, fieldOf_bytesOf,
    leafOf]

/-- The commitments the client posts are those it was listed, and its own. -/
theorem posted_texts (found : List Indexer.Found) (commitment : Bytes32) :
    (found.map (fun event => event.2.commitment.toList) ++ [commitment.toList]).map bytesToHex =
      (Indexer.leaves found ++ [hexEncode commitment]).map Hex64.text := by
  rw [List.map_append, List.map_append, List.map_map, Indexer.leaves, List.map_map]
  simp only [Function.comp_def, Indexer.leafOf, List.map_cons, List.map_nil, hex_encode_text]

/-- What the client posts behind a list it was answered. -/
theorem lists_posted {services : Services poseidon2Permutation} {system : System deployment}
    (reached : Reachable services verifier launch UpToDate system) {listed : List Hex64}
    {entries : List CommitmentEntry} (lists : Lists services system listed entries) :
    ∃ existing, existingCommitments entries = some existing ∧ ∀ commitment : Bytes32,
      (existing ++ [commitment.toList]).map bytesToHex =
        (listed ++ [hexEncode commitment]).map Hex64.text := by
  obtain ⟨count, _, rfl, read⟩ := ReadRoutes.lists_indexed reached lists
  refine ⟨_, read, ?_⟩
  intro commitment
  rw [posted_texts, Indexer.leaves, Indexer.leaves, List.map_take]

/-- The client signs for the root over the commitments it was listed and its own, as long as
the merkle service takes them. -/
theorem form_signs {services : Services poseidon2Permutation} {system : System deployment}
    (reached : Reachable services verifier launch UpToDate system) {listed : List Hex64}
    (room : listed.length < 15_650) {amount : Nat} (small : amount < bn254Modulus)
    (enough : belowMinimum config amount = false)
    (serves : Serves services system weather config listed)
    {wallet : Wallet} {firstDraw secondDraw : Bytes32}
    (hand : AtHand weather config deployment wallet firstDraw secondDraw) :
    ∃ draft newRoot, Signs poseidon2Permutation weather config amount draft ∧
      hexEncode newRoot = MerkleTree.root (hashHex poseidon2Permutation) emptyLeaf
        (listed ++ [hexEncode (bytesOf
          (leafOf poseidon2Permutation firstDraw secondDraw amount))]) PoolState.treeDepth ∧
      draft.amount = amount ∧
      draft.computed.commitment =
        bytesOf (leafOf poseidon2Permutation firstDraw secondDraw amount) ∧
      draft.transaction.payer = wallet.address ∧
      draft.transaction.accounts = ⟨config.pool, config.poolVault, wallet.address,
        PoolState.systemProgramId⟩ ∧
      instructionData draft.computed.commitment newRoot.toList amount =
        some draft.transaction.data := by
  obtain ⟨entries, lists, answered⟩ := serves.lists
  obtain ⟨existing, read, texts⟩ := lists_posted reached lists
  have fits : (listed ++ [hexEncode (bytesOf
      (leafOf poseidon2Permutation firstDraw secondDraw amount))]).length ≤ 15_650 := by
    rw [List.length_append, List.length_singleton]
    exact room
  have posted := ReadRoutes.post_root (hashHex poseidon2Permutation)
    (List.append_ne_nil_of_right_ne_nil listed (List.cons_ne_nil (hexEncode (bytesOf
      (leafOf poseidon2Permutation firstDraw secondDraw amount))) []))
  rw [if_pos fits] at posted
  obtain ⟨newRoot, encoded⟩ := root_encoded poseidon2Permutation (listed ++
    [hexEncode (bytesOf (leafOf poseidon2Permutation firstDraw secondDraw amount))])
  have rooted := serves.rooted _ _ posted
  rw [← texts, encoded] at rooted
  have decoded : hexToBytes (hexEncode newRoot).text = some newRoot.toList := by
    rw [hex_encode_text, hex_round_trip]
  obtain ⟨latest, dated⟩ := hand.dated
  obtain ⟨data, written⟩ := instruction_fits
    (bytesOf (leafOf poseidon2Permutation firstDraw secondDraw amount)) amount
    (show newRoot.toList.length = 32 from Vector.length_toList)
  have signs := Signs.intro wallet firstDraw secondDraw _ _ _ _ _ data latest hand.connected
    hand.signs enough hand.first hand.second hand.loaded
    (drawn_commitment firstDraw secondDraw small) answered read rooted decoded written dated
    (hand.signed _)
  exact ⟨_, newRoot, signs, encoded.symm, rfl, rfl, rfl, rfl, written⟩

/-- Past the limit of a body the merkle service refuses the list, and nothing is signed. -/
theorem crowded_unsigned {services : Services poseidon2Permutation} {system : System deployment}
    (reached : Reachable services verifier launch UpToDate system) {listed : List Hex64}
    (crowded : 15_650 ≤ listed.length) {amount : Nat}
    (serves : Serves services system weather config listed) (draft : Draft) :
    ¬ Signs poseidon2Permutation weather config amount draft := by
  obtain ⟨entries, lists, answered⟩ := serves.lists
  obtain ⟨existing, read, texts⟩ := lists_posted reached lists
  rintro ⟨wallet, firstDraw, secondDraw, computed, given, sorted, root, newRoot, data, latest,
    connected, able, enough, first, second, loaded, hashed, asked, sortedRead, rooted, decoded,
    written, dated, signed⟩
  obtain rfl := Except.ok.inj (answered.symm.trans asked)
  obtain rfl := Option.some.inj (read.symm.trans sortedRead)
  have over' : ¬ (listed ++ [hexEncode computed.commitment]).length ≤ 15_650 := by
    rw [List.length_append, List.length_singleton]
    omega
  have posted := ReadRoutes.post_root (hashHex poseidon2Permutation)
    (List.append_ne_nil_of_right_ne_nil listed
      (List.cons_ne_nil (hexEncode computed.commitment) []))
  rw [if_neg over'] at posted
  obtain ⟨status, text, refused⟩ := serves.refused _ _ posted
  rw [texts, refused] at rooted
  cases rooted

/-- The form hands over one transaction, and this is what reaches the program. -/
structure Hands (poseidon2Permutation : Vector Field 4 → Vector Field 4) (weather : Weather)
    (config : DepositClient.Config) (amount : Nat) (wallet : Wallet) (leaf : Field)
    (clock : Option Int64) (draft : Draft) (tx : Transaction deployment) (accounts : InitDeposit)
    (args : DepositArgs) : Prop where
  handed : ∀ stored count,
    (leftBehind poseidon2Permutation weather config amount stored (count + 9)).handed =
      [draft.transaction]
  received : received deployment clock draft.transaction = some tx
  called : tx.instruction = .deposit accounts args
  depositor : accounts.depositor = wallet.address
  commitment : args.commitment = bytesOf leaf
  paid : args.amount.toNat = amount
  notes : ∀ id, NoteText.Created poseidon2Permutation (noteOf draft id config.now) ∧
    (noteOf draft id config.now).amount = amount ∧
    (noteOf draft id config.now).commitment = bytesToHex args.commitment.toList

theorem signed_hands {amount : Nat} {draft : Draft}
    (signs : Signs poseidon2Permutation weather config amount draft) (stored : Stored)
    (count : Nat) :
    (leftBehind poseidon2Permutation weather config amount stored (count + 9)).handed =
      [draft.transaction] := by
  rcases signed_left signs stored (count + 9) with ⟨_, early⟩ | ⟨cut, _, left⟩
  · omega
  · exact (submit_stopped left.symm).1

theorem encoded_denotes (bytes : Bytes32) : fieldOfHex (hexEncode bytes) = fieldOf bytes := by
  rw [fieldOfHex, hex_encode_value]
  rfl

theorem accepted_denotes (system : System deployment) :
    (accepted system).map fieldOfHex = deposited system.history := by
  rw [accepted, deposited, List.map_map]
  exact List.map_congr_left fun args _ => encoded_denotes args.commitment

/-- The first root that is submitted is not the one that stands for no tree. -/
theorem first_root {args : DepositArgs} {leaf : Field} (own : args.commitment = bytesOf leaf)
    (rooted : hexEncode args.newRoot = MerkleTree.root (hashHex poseidon2Permutation) emptyLeaf
      [hexEncode args.commitment] PoolState.treeDepth)
    (nonzero : leafRoot poseidon2Permutation [leaf] ≠ 0) :
    args.newRoot ≠ PoolState.emptyRoot := by
  intro same
  have denoted := congrArg fieldOfHex rooted
  rw [encoded_denotes, hex_root_denotes, List.map_singleton, encoded_denotes, own,
    fieldOf_bytesOf, same] at denoted
  exact nonzero (denoted.symm.trans (by decide +kernel))

/-- The root that is submitted differs from the pool's, as there is a leaf more. -/
theorem grown_root {system : System deployment}
    (sound : Sound launch poseidon2Permutation system) {args : DepositArgs} {leaf : Field}
    (fresh : Fresh poseidon2Permutation (deposited system.history) leaf)
    (own : args.commitment = bytesOf leaf)
    (rooted : hexEncode args.newRoot = MerkleTree.root (hashHex poseidon2Permutation) emptyLeaf
      (accepted system ++ [hexEncode args.commitment]) PoolState.treeDepth)
    (room : (deposits system.history).length < 2 ^ PoolState.treeDepth) :
    args.newRoot ≠ (PoolState.emptyRoot :: pushedRoots system.history).getLast (by simp) := by
  intro same
  rcases List.eq_nil_or_concat (deposits system.history) with none | ⟨front, last, split⟩
  · have begun : deposited system.history = [] := by rw [deposited, none, List.map_nil]
    have first : accepted system = [] := by rw [accepted, none, List.map_nil]
    rw [first, List.nil_append] at rooted
    have zero : args.newRoot = PoolState.emptyRoot := by simpa [pushedRoots, none] using same
    exact first_root own rooted (fresh.rooted begun) zero
  · rw [List.concat_eq_append] at split
    have denoted : fieldOf args.newRoot =
        leafRoot poseidon2Permutation (deposited system.history ++ [leaf]) := by
      rw [← encoded_denotes, rooted, hex_root_denotes, List.map_append, accepted_denotes, own]
      simp only [List.map_cons, List.map_nil, encoded_denotes, fieldOf_bytesOf]
    have newest : args.newRoot = last.newRoot := by simpa [pushedRoots, split] using same
    have current := congrArg fieldOfHex (sound.rooted front last split)
    rw [encoded_denotes, hex_root_denotes, accepted_denotes, ← newest, denoted] at current
    have size : (deposited system.history).length < 2 ^ Circuit.treeDepth := by
      rw [deposited, List.length_map]
      exact room
    exact root_grows fresh size current

/-- A list of everything accepted means that everything has been indexed. -/
theorem listed_all {services : Services poseidon2Permutation} {system : System deployment}
    (reached : Reachable services verifier launch UpToDate system)
    {entries : List CommitmentEntry} (lists : Lists services system (accepted system) entries) :
    system.found.length = (deposits system.history).length := by
  have sound := reachable_sound reached
  obtain ⟨count, inside, whole, _⟩ := ReadRoutes.lists_indexed reached lists
  have size := congrArg List.length whole
  have facts := congrArg List.length (ReadRoutes.indexed_facts sound)
  rw [accepted, List.length_map, List.length_take, Indexer.leaves, List.length_map] at size
  rw [List.length_map, List.length_take, List.length_map] at facts
  omega

/-- A deposit of the note is handed over that lacks at most the minimum amount and the
runtime's consent. -/
theorem form_hands {services : Services poseidon2Permutation} {system : System deployment}
    (reached : Reachable services verifier launch UpToDate system) {listed : List Hex64}
    (room : listed.length < 15_650) {amount : Nat} (small : amount < 2 ^ 64)
    (enough : belowMinimum config amount = false)
    (serves : Serves services system weather config listed)
    {wallet : Wallet} {firstDraw secondDraw : Bytes32}
    (hand : AtHand weather config deployment wallet firstDraw secondDraw) (timestamp : Int64) :
    ∃ (draft : Draft) (tx : Transaction deployment) (accounts : InitDeposit) (args : DepositArgs),
      Hands poseidon2Permutation weather config amount wallet
          (leafOf poseidon2Permutation firstDraw secondDraw amount) (some timestamp) draft tx
          accounts args ∧
        hexEncode args.newRoot = MerkleTree.root (hashHex poseidon2Permutation) emptyLeaf
          (listed ++ [hexEncode args.commitment]) PoolState.treeDepth ∧
        (PoolState.minDepositAmount ≤ args.amount → Acceptance.Offered tx accounts args) := by
  have inField : amount < bn254Modulus := Nat.lt_trans small (by decide)
  obtain ⟨draft, newRoot, signs, rooted, own, computed, payer, accounts, written⟩ :=
    form_signs reached room inField enough serves hand
  have exact' : (UInt64.ofNat amount).toNat = amount := by
    rw [UInt64.toNat_ofNat', Nat.mod_eq_of_lt small]
  have read : callOf depositDiscriminator depositArgs draft.transaction.data =
      some ⟨draft.computed.commitment, newRoot, UInt64.ofNat amount⟩ := by
    rw [deposit_data_bytes] at written
    rw [← Option.some.inj written]
    have args := deposit_args_read ⟨draft.computed.commitment, newRoot, UInt64.ofNat amount⟩
    rw [exact'] at args
    exact call_decodes (decodes_append rfl args)
  obtain ⟨tx, arrives, signers, writable, clock, unaborted, called⟩ :=
    received_called (by rw [payer]; exact hand.keyed) read (some timestamp)
  have paying : draft.transaction.accounts.depositor = wallet.address := by rw [accounts]
  rw [← computed] at rooted
  refine ⟨draft, tx, _, _, ⟨signed_hands signs, arrives, called, paying, computed, exact', ?_⟩,
    rooted, fun minimum => ⟨unaborted, by rw [clock]; rfl, ?_, ?_, ?_, ?_, ?_, minimum⟩⟩
  · exact fun id => ⟨⟨weather, config, amount, draft, id, signs, rfl⟩, own, rfl⟩
  · rw [signers, payer, paying]
    exact List.mem_singleton_self _
  · rw [accounts]
  · rw [accounts]
    exact hand.pool
  · rw [accounts]
    exact hand.poolVault
  · rw [writable]
    exact fun key member => member

/-- A deposit over everything accepted lacks at most the runtime's consent, the minimum and
the lamports. -/
theorem handed_taken_iff {services : Services poseidon2Permutation}
    (bounded : Acceptance.Bounded launch.genesis.lamports) (runtime : Runtime deployment)
    {system : System deployment}
    (reached : Reachable services verifier launch UpToDate system)
    (room : (accepted system).length < 15_650) {amount : Nat} {wallet : Wallet} {leaf : Field}
    {clock : Option Int64} {draft : Draft} {tx : Transaction deployment} {accounts : InitDeposit}
    {args : DepositArgs}
    (hands : Hands poseidon2Permutation weather config amount wallet leaf clock draft tx accounts
      args)
    (rooted : hexEncode args.newRoot = MerkleTree.root (hashHex poseidon2Permutation) emptyLeaf
      (accepted system ++ [hexEncode args.commitment]) PoolState.treeDepth)
    (offers : PoolState.minDepositAmount ≤ args.amount → Acceptance.Offered tx accounts args)
    (fresh : Fresh poseidon2Permutation (deposited system.history) leaf) :
    (∃ after, process verifier deployment system.chain (judged runtime system.chain tx) =
        .ok after) ↔
      runtime system.chain tx = false ∧ PoolState.minDepositAmount.toNat ≤ amount ∧
        amount ≤ system.chain.lamports wallet.address := by
  have sound := reachable_sound reached
  have least : PoolState.minDepositAmount ≤ args.amount ↔
      PoolState.minDepositAmount.toNat ≤ amount := by
    rw [UInt64.le_iff_toNat_le, hands.paid]
  have few : (deposits system.history).length < 2 ^ PoolState.treeDepth := by
    rw [accepted, List.length_map] at room
    rw [PoolState.treeDepth]
    omega
  rw [Acceptance.deposit_trace_iff launch bounded sound.trace
    (show (judged runtime system.chain tx).instruction = _ from hands.called), hands.depositor,
    hands.paid]
  constructor
  · rintro ⟨offered, _, _, funded⟩
    exact ⟨offered.unaborted, least.mp offered.enough, funded⟩
  · rintro ⟨passes, minimum, funded⟩
    exact ⟨Acceptance.offered_judged (offers (least.mpr minimum)) passes, few,
      grown_root sound fresh hands.commitment rooted few, funded⟩

/-- The form hands over no second transaction. -/
theorem hands_once {amount : Nat} {wallet : Wallet} {leaf : Field} {clock : Option Int64}
    {draft other : Draft} {tx otherTx : Transaction deployment}
    {accounts otherAccounts : InitDeposit} {args otherArgs : DepositArgs}
    (hands : Hands poseidon2Permutation weather config amount wallet leaf clock draft tx accounts
      args)
    (again : Hands poseidon2Permutation weather config amount wallet leaf clock other otherTx
      otherAccounts otherArgs) :
    tx = otherTx := by
  have same := (hands.handed .absent 0).symm.trans (again.handed .absent 0)
  have received := hands.received
  rw [List.singleton_inj.mp same, again.received] at received
  exact (Option.some.inj received).symm

/-- The vault gets what the depositor gives. -/
theorem deposit_balances {before after : Chain} {tx : Transaction deployment}
    {accounts : InitDeposit} {args : DepositArgs}
    (called : tx.instruction = .deposit accounts args)
    (done : process verifier deployment before tx = .ok after) :
    after.lamports deployment.poolVault =
        before.lamports deployment.poolVault + args.amount.toNat ∧
      after.lamports accounts.depositor + args.amount.toNat =
        before.lamports accounts.depositor := by
  have step := process_step done
  cases step with
  | deposit asked given pool next lamports timestamp same checked =>
      obtain ⟨rfl, rfl⟩ := Instruction.deposit.inj (same.symm.trans called)
      have apart := Accounting.unsigned_other checked.signed
      have vault := transfer_balance checked.paid deployment.poolVault
      have depositor := transfer_balance checked.paid asked.depositor
      rw [if_pos rfl, if_neg apart, Nat.add_zero] at vault
      rw [if_pos rfl, if_neg apart.symm, Nat.add_zero] at depositor
      exact ⟨vault, depositor⟩
  | pool accounts lamports same fresh signed rent =>
      exact absurd (same.symm.trans called) nofun
  | withdraw accounts args pool rented lamports timestamp same checked =>
      exact absurd (same.symm.trans called) nofun
  | transfer sender receiver amount lamports same signed moved =>
      exact absurd (same.symm.trans called) nofun

theorem set_client_self (system : System deployment) (client : Nat) (state : Client) :
    (system.setClient client state).clients client = state := Function.update_self ..

/-- What an up-to-date client submits is indexed once it is accepted. -/
theorem ready_indexed {services : Services poseidon2Permutation} {system : System deployment}
    (reached : Reachable services verifier launch UpToDate system)
    (indexed : system.found.length = (deposits system.history).length) {client : Nat}
    {tx : Transaction deployment} {args : DepositArgs}
    (ready : system.clients client = .ready (accepted system) args)
    (sent : depositOf tx = some args) {next : Chain}
    (committed : process verifier deployment system.chain tx = .ok next)
    (txSignature : Indexer.Signature) :
    ∃ after event, Reachable services verifier launch UpToDate after ∧ after.chain = next ∧
      after.history = system.history ++ [tx] ∧
      after.found = system.found ++ [(txSignature, event)] ∧
      after.found.length = (deposits after.history).length ∧ after.cache = none := by
  have allowed : UpToDate system (.submit client tx) := by
    intro existing given same
    cases same.symm.trans ready
    rfl
  have submitted := Interleaving.Reachable.next reached allowed
    (Step.submit client tx (accepted system) args next ready sent committed)
  have logged := Accounting.trace_log launch (reachable_sound submitted).trace
  have size := congrArg List.length logged.contents
  rw [List.length_map, List.length_map, deposits_snoc system.history sent, List.length_append,
    List.length_singleton, ← indexed] at size
  have more : system.found.length < (Accounting.depositEvents next.log).length :=
    Nat.lt_of_lt_of_eq (Nat.lt_succ_self _) size.symm
  have place := List.getElem?_eq_getElem more
  have found := Interleaving.Reachable.next submitted
    (show UpToDate _ (.index txSignature) from trivial) (Step.index txSignature _ place)
  refine ⟨_, _, found, rfl, rfl, rfl, ?_, rfl⟩
  change (system.found ++ [_]).length = (deposits (system.history ++ [tx])).length
  rw [deposits_snoc system.history sent, List.length_append, List.length_append]
  exact congrArg (· + 1) indexed

/-- A client that has chosen reads the list that any answer of the route gives it. -/
theorem choice_listed {services : Services poseidon2Permutation} {system : System deployment}
    (reached : Reachable services verifier launch UpToDate system) {client : Nat}
    {commitment : Bytes32} {amount : UInt64}
    (waits : system.clients client = .chosen commitment amount) {listed : List Hex64}
    {entries : List CommitmentEntry} (lists : Lists services system listed entries) :
    ∃ after, Reachable services verifier launch UpToDate after ∧
      after.clients client = .listed commitment amount listed ∧ after.chain = system.chain ∧
      after.history = system.history ∧ after.found = system.found := by
  rcases ReadRoutes.lists_cases lists with ⟨held, _⟩ | ⟨rows, _⟩
  · exact ⟨_, reached.next (show UpToDate system (.listCached client) from trivial)
      (Step.listCached client commitment amount listed waits held), set_client_self .., rfl, rfl,
      rfl⟩
  · -- Redis failed or held nothing; a response that is gone makes no difference here
    have expired := Interleaving.Reachable.next reached (show UpToDate system .expire from trivial)
      Step.expire
    have read := Interleaving.Reachable.next expired
      (show UpToDate _ (.listDatabase client) from trivial)
      (Step.listDatabase client commitment amount waits rfl)
    refine ⟨_, read, ?_, rfl, rfl, rfl⟩
    rw [rows]
    exact set_client_self ..

/-- The deposit is a run of a client of the race, and it is indexed next. -/
theorem issued_indexed (services : Services poseidon2Permutation) {system : System deployment}
    (reached : Reachable services verifier launch UpToDate system) {client : Nat}
    (idle : system.clients client = .idle) {entries : List CommitmentEntry}
    (lists : Lists services system (accepted system) entries)
    {tx : Transaction deployment} {args : DepositArgs} (sent : depositOf tx = some args)
    (rooted : hexEncode args.newRoot = MerkleTree.root (hashHex poseidon2Permutation) emptyLeaf
      (accepted system ++ [hexEncode args.commitment]) PoolState.treeDepth)
    {next : Chain} (committed : process verifier deployment system.chain tx = .ok next)
    (txSignature : Indexer.Signature) :
    ∃ after event, Reachable services verifier launch UpToDate after ∧ after.chain = next ∧
      after.history = system.history ++ [tx] ∧
      after.found = system.found ++ [(txSignature, event)] ∧
      after.found.length = (deposits after.history).length ∧ after.cache = none := by
  have indexed := listed_all reached lists
  -- the client of the race chooses the note, lists, fetches the root and submits
  have nodes := build_tree_nodes (hashHex poseidon2Permutation)
    (accepted system ++ [hexEncode args.commitment])
    (show Indexer.serverTreeDepth ≤ 30 by decide)
  have read : hexToBytes (hexEncode args.newRoot).text = some args.newRoot.toList := by
    rw [hex_encode_text, hex_round_trip]
  have chosen := Interleaving.Reachable.next reached
    (show UpToDate system (.choose client args.commitment args.amount) from trivial)
    (Step.choose client args.commitment args.amount idle)
  have shown : Lists services
      (system.setClient client (.chosen args.commitment args.amount)) (accepted system) entries :=
    ⟨lists.answered, lists.texts⟩
  obtain ⟨listing, listed, waits, chain, history, found⟩ :=
    choice_listed chosen (set_client_self ..) shown
  have fetched := Interleaving.Reachable.next listed
    (show UpToDate _ (.root client args.newRoot) from trivial)
    (Step.root client args.commitment args.amount (accepted system) _ (hexEncode args.newRoot)
      args.newRoot waits nodes (congrArg some rooted.symm) read)
  have same : accepted listing = accepted system := by
    rw [accepted, history]
    rfl
  have all : (listing.setClient client (.ready (accepted system) args)).found.length =
      (deposits (listing.setClient client (.ready (accepted system) args)).history).length := by
    change listing.found.length = (deposits listing.history).length
    rw [found, history]
    exact indexed
  obtain ⟨after, event, later, chained, extended, more, whole⟩ := ready_indexed fetched all
    (by rw [← same]; exact set_client_self ..) sent
    (show process verifier deployment listing.chain tx = .ok next from chain ▸ committed)
    txSignature
  refine ⟨after, event, later, chained, ?_, ?_, whole⟩
  · rw [extended]
    exact congrArg (· ++ [tx]) history
  · rw [more]
    exact congrArg (· ++ [(txSignature, event)]) found

end Journey

/-! The `Prover.toml` note, the first to be deposited. -/
section Sample
open Poseidon2 Verifier

/-- A commitment as the merkle service is sent it. -/
def hexOfText (text : String) : Option Hex64 :=
  if length : text.length = 64 then
    if digits : text.toList.all isHexDigit = true then some ⟨text, length, digits⟩ else none
  else none

theorem hex_of_text (hex : Hex64) : hexOfText hex.text = some hex := by
  rw [hexOfText, dif_pos hex.length, dif_pos hex.digits]

theorem hex_of_texts (leaves : List Hex64) :
    (leaves.map Hex64.text).mapM hexOfText = some leaves := by
  rw [List.mapM_map]
  simp only [Function.comp_def, hex_of_text]
  exact (List.mapM_pure).trans (congrArg some (List.map_id _))

def merkleReply (texts : List String) : MerkleReply :=
  match (texts.mapM hexOfText).map (postRoot (answering (hashHex poseidon2Permutation))) with
  | some (.ok (some root)) => .root root.text
  | some (.error .tooLarge) => .refused 413 "Payload Too Large"
  | _ => .refused 500 ""

def noteAnswers (tables : Indexer.Tables) : (call : Remote) → Except String call.Answer
  | .wallet => .ok (some ⟨payer, true⟩)
  | .randomBytes 0 => .ok (bytesOf proverHidden.nullifier)
  | .randomBytes _ => .ok (bytesOf proverHidden.secret)
  | .hashes => .ok ()
  | .commitments _ => .ok (ReadRoutes.entriesOf tables)
  | .root texts => .ok (merkleReply texts)
  | .latestBlockhash => .ok ⟨"", 0⟩
  | .signTransaction _ => .ok ()
  | .confirmTransaction _ _ => .ok none
  | .randomUUID => .ok ""
  | .balance _ => .ok 0

def noteWeather (tables : Indexer.Tables) : Weather :=
  ⟨noteAnswers tables, fun _ => .ok "", none, none⟩

def noteForm : DepositClient.Config :=
  { sampleConfig with pool := sampleDeployment.pool, poolVault := sampleDeployment.poolVault }

/-- While Redis keeps no response the form is answered from the tables. -/
theorem note_weather_serves {services : Services poseidon2Permutation}
    {system : System sampleDeployment} (missed : system.cache = none) :
    Serves services system (noteWeather (backend services system.found).tables) noteForm
      (Indexer.dbLeaves (backend services system.found).tables) := by
  refine ⟨⟨_, ReadRoutes.lists_rows missed, rfl⟩, ?_, ?_⟩
  · intro leaves root answered
    change Except.ok (merkleReply (leaves.map Hex64.text)) = _
    rw [merkleReply, hex_of_texts, Option.map_some, answered]
  · intro leaves error refused
    change ∃ status text, Except.ok (merkleReply (leaves.map Hex64.text)) =
      Except.ok (MerkleReply.refused status text)
    rw [merkleReply, hex_of_texts, Option.map_some, refused]
    cases error with
    | tooLarge => exact ⟨413, "Payload Too Large", rfl⟩
    | route error => exact ⟨500, "", rfl⟩

theorem note_at_form (tables : Indexer.Tables) :
    AtHand (noteWeather tables) noteForm sampleDeployment ⟨payer, true⟩
      (bytesOf proverHidden.nullifier) (bytesOf proverHidden.secret) where
  connected := rfl
  signs := rfl
  keyed := by decide
  first := rfl
  second := rfl
  loaded := rfl
  dated := ⟨_, rfl⟩
  signed := fun _ => rfl
  pool := rfl
  poolVault := rfl

theorem note_leaf_of :
    leafOf poseidon2Permutation (bytesOf proverHidden.nullifier) (bytesOf proverHidden.secret)
      1_000_000_000 = proverCommitment := by
  rw [leafOf, fieldOf_bytesOf, fieldOf_bytesOf, ← prover_commitment]
  rfl

theorem note_fresh : Fresh poseidon2Permutation [] proverCommitment := by
  refine ⟨by decide +kernel, ?_, ?_⟩
  · rintro -
    rw [leafRoot, ← Authenticity.note_root]
    decide +kernel
  · rintro ⟨left, right, inLeft, inRight, apart, same⟩
    have row : ∀ inputs : Field × Field, Compressed poseidon2Permutation [] inputs ∨
        Compressed poseidon2Permutation ([] ++ [proverCommitment]) inputs →
        (inputs, Circuit.hash2 poseidon2Permutation inputs.1 inputs.2) ∈ Authenticity.noteRows :=
      fun _ used => used.elim Authenticity.empty_tree_rows Authenticity.note_tree_rows
    exact apart (MerkleTree.rows_injective Authenticity.note_rows_injective (row left inLeft)
      (row right inRight) same)

theorem start_funded (verifier : List UInt8 → Bool) :
    1_000_000_000 ≤ (sampleLaunch verifier).started.lamports payer := by
  change 1_000_000_000 ≤
    (Runs.commit (process (fun _ => true) sampleDeployment) sampleGenesis sampleCreation).lamports
      payer
  decide +kernel

end Sample

end PrivateTransfer.Issuance
