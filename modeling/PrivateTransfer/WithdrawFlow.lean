import PrivateTransfer.Base64
import PrivateTransfer.InstructionData
import PrivateTransfer.NoteText
import PrivateTransfer.Traces

/-!
`withdraw` of `frontend/src/composables/useWithdraw.ts` as a script over the wallet,
the stored notes, the backend, the circuit and the chain, with the requests of
`services/api.ts` as the backend receives them.
-/

namespace PrivateTransfer.WithdrawFlow

open ClientHex DepositClient InstructionData NoteText Script

/-! `services/api.ts`. -/
section Api

inductive Api where
  | getCommitments (poolAddress : String)
  | getProof (poolAddress : String) (leafIndex : Nat)
  | withdraw (witness : String)

/-- The proof is answered as Base64 and taken here as the bytes that stands for. -/
@[reducible] def Api.Answer : Api → Type
  | getCommitments _ => List CommitmentEntry
  | getProof _ _ => ProofResponse
  | withdraw _ => List UInt8

structure HttpRequest where
  method : String
  path : String
  query : List (String × String)
  body : List (String × String)
  deriving DecidableEq

def Api.request : Api → HttpRequest
  | getCommitments poolAddress =>
      ⟨"GET", "/api/commitments", [("pool_address", poolAddress)], []⟩
  | getProof poolAddress leafIndex =>
      ⟨"GET", "/api/proof", [("pool_address", poolAddress), ("leaf_index", toString leafIndex)], []⟩
  | withdraw witness => ⟨"POST", "/api/withdraw", [], [("witness", witness)]⟩

end Api

section Flow

structure WithdrawTransaction where
  payer : Pubkey
  blockhash : String
  computeUnits : Nat
  programId : String
  accounts : PoolProgram.InitWithdraw
  data : List UInt8

inductive Request where
  | wallet
  | hashes
  | notes
  | api (call : Api)
  | publicKey (address : String)
  | execute (inputs : WitnessInputs)
  | latestBlockhash
  | signTransaction (transaction : WithdrawTransaction)
  | sendRawTransaction (transaction : WithdrawTransaction)
  | confirmTransaction (signature : String) (latest : Blockhash)
  | markUsed (nullifierHash : String)
  | balance (address : Pubkey)

@[reducible] def Request.Answer : Request → Type
  | wallet => Option Wallet
  | hashes => Unit
  | notes => List DepositNote
  | api call => call.Answer
  | publicKey _ => Pubkey
  | execute _ => List UInt8
  | latestBlockhash => Blockhash
  | signTransaction _ => Unit
  | sendRawTransaction _ => String
  | confirmTransaction _ _ => Option String
  | markUsed _ => Unit
  | balance _ => Nat

abbrev Flow := Program Request Request.Answer String

def ask (request : Request) : Flow request.Answer := perform request

def orThrow {Value : Type} (message : String) : Option Value → Flow Value
  | some value => pure value
  | none => fail message

def orFail (holds : Bool) (message : String) : Flow Unit :=
  if holds then pure () else fail message

/-- The derived addresses. -/
structure Config where
  poolPda : String
  pool : Pubkey
  poolVault : Pubkey
  nullifierRecord : Bytes32 → Pubkey

/-- What the form hands over. -/
structure Form where
  nullifierSecretHex : String
  secretHex : String
  amountLamports : Nat
  recipientAddress : String

structure Draft where
  wallet : Wallet
  recipient : Pubkey
  inputs : WitnessInputs

variable (poseidon2Permutation : Vector Field 4 → Vector Field 4)

/-- `withdraw` as far as the circuit. -/
def gather (config : Config) (form : Form) : Flow Draft := do
  let connected ← ask .wallet
  let wallet ← orThrow "Wallet not connected" connected
  let nullifierSecret ← orThrow "invalid hex" (hexToBytes form.nullifierSecretHex)
  ask .hashes
  let localNullifierHash ← orThrow "not a field element"
    (computeNullifierHash poseidon2Permutation nullifierSecret)
  let notes ← ask .notes
  let note ← orThrow "Deposit note not found in local storage"
    (notes.find? fun note : DepositNote =>
      note.nullifierHash == bytesToHex localNullifierHash.toList)
  orFail (!note.used) "This deposit has already been withdrawn"
  let entries ← ask (.api (.getCommitments config.poolPda))
  let sortedCommitments ← orThrow "invalid hex" (existingCommitments entries)
  orFail (!sortedCommitments.isEmpty) "No commitments in database"
  let leafIndex ← orThrow "Your commitment not found in pool"
    (sortedCommitments.findIdx? (sameHex note.commitment))
  let proofResponse ← ask (.api (.getProof config.poolPda leafIndex))
  let merkleProof ← orThrow "invalid hex" (proofResponse.proof.mapM hexToBytes)
  let latestRoot ← orThrow "invalid hex" (hexToBytes proofResponse.root)
  ask .hashes
  let nullifierHash ← orThrow "not a field element"
    (computeNullifierHash poseidon2Permutation nullifierSecret)
  let recipient ← ask (.publicKey form.recipientAddress)
  let secret ← orThrow "invalid hex" (hexToBytes form.secretHex)
  pure
    { wallet := wallet, recipient := recipient
      inputs :=
        { root := latestRoot, nullifierHash := nullifierHash
          recipient := WithdrawClient.reduceToField recipient, amount := form.amountLamports
          nullifierSecret := nullifierSecret, secret := secret, merkleProof := merkleProof
          isEven := proofResponse.isEven } }

def withdrawTransaction (config : Config) (draft : Draft) (latest : Blockhash)
    (data : List UInt8) : WithdrawTransaction where
  payer := draft.wallet.address
  blockhash := latest.blockhash
  computeUnits := 1_400_000
  programId := ptransProgramAddress
  accounts := ⟨config.pool, config.nullifierRecord draft.inputs.nullifierHash, config.poolVault,
    draft.recipient, draft.wallet.address, PoolState.verifierProgramId, PoolState.systemProgramId⟩
  data := data

/-- The rest, once there is a proof. -/
def submit (config : Config) (draft : Draft) (proofOnly : List UInt8) : Flow Nat := do
  let data ← orThrow "offset is out of bounds" (withdrawData proofOnly draft.inputs.nullifierHash
    draft.inputs.root draft.recipient draft.inputs.amount)
  let latest ← ask .latestBlockhash
  orFail draft.wallet.signs "Wallet does not support signTransaction"
  ask (.signTransaction (withdrawTransaction config draft latest data))
  let signature ← ask (.sendRawTransaction (withdrawTransaction config draft latest data))
  let failed : Option String ← ask (.confirmTransaction signature latest)
  match failed with
  | some err => fail ("Transaction failed on-chain: " ++ err)
  | none => do
      ask (.markUsed (bytesToHex draft.inputs.nullifierHash.toList))
      ask (.balance draft.wallet.address)

def withdraw (config : Config) (form : Form) : Flow Nat := do
  let draft ← gather poseidon2Permutation config form
  let witness ← ask (.execute draft.inputs)
  let proofOnly ← ask (.api (.withdraw (String.ofList (Base64.encode witness))))
  submit config draft proofOnly

/-- What `WithdrawForm.vue` takes off the text in its first field. -/
def pasted (nullifierNote recipient : String) : Form where
  nullifierSecretHex := lineAt nullifierNote 0 "Nullifier Secret: "
  secretHex := lineAt nullifierNote 1 "Secret: "
  amountLamports := formAmount
  recipientAddress := recipient

/-- `handleWithdraw` of `WithdrawForm.vue`, which runs only where the form is valid. -/
def handleWithdraw (config : Config) (nullifierNote recipient : String) : Flow Unit := do
  let connected : Option Wallet ← ask .wallet
  if trim nullifierNote.toList ≠ [] ∧ trim recipient.toList ≠ [] ∧ connected.isSome = true then do
    -- an error is only logged
    let _ ← attempt (withdraw poseidon2Permutation config (pasted nullifierNote recipient))
    pure ()
  else pure ()

end Flow

/-- What everyone who is asked answers, for one state of the pool. -/
abbrev World := (request : Request) → Except String request.Answer

def serve (world : World) (request : Request) (state : Unit) :
    Except String request.Answer × Unit := (world request, state)

/-- The HTTP requests of a script, in order. -/
def requests (world : World) {Result : Type} (flow : Flow Result) : List HttpRequest :=
  (trace (serve world) flow ()).filterMap fun
    | .api call => some call.request
    | _ => none

/-! What a script asks and ends with, call by call. -/
section Rules
variable {world : World} {Value After : Type} {request : Request}

def Ends (world : World) (flow : Flow Value) (value : Value) : Prop :=
  run (serve world) flow () = (.ok value, ())

def Asks (world : World) (flow : Flow Value) (request : Request) : Prop :=
  request ∈ trace (serve world) flow ()

theorem ends_bind {flow : Flow Value} {next : Value → Flow After} {result : After} :
    Ends world (flow >>= next) result ↔
      ∃ value, Ends world flow value ∧ Ends world (next value) result := by
  rw [Ends, run_bind]
  constructor
  · intro ended
    rcases finished : run (serve world) flow () with ⟨value | failure, reached⟩
    · rw [finished] at ended
      cases ended
    · rw [finished] at ended
      exact ⟨_, finished, ended⟩
  · rintro ⟨value, finished, ended⟩
    rw [Ends] at finished
    rw [finished]
    exact ended

theorem asks_bind {flow : Flow Value} {next : Value → Flow After} :
    Asks world (flow >>= next) request ↔
      Asks world flow request ∨
        ∃ value, Ends world flow value ∧ Asks world (next value) request := by
  rw [Asks, mem_trace_bind]
  apply or_congr_right
  constructor
  · rintro ⟨value, reached, finished, asked⟩
    exact ⟨value, finished, asked⟩
  · rintro ⟨value, finished, asked⟩
    exact ⟨value, (), finished, asked⟩

@[simp] theorem ends_pure {value result : Value} :
    Ends world (pure value) result ↔ value = result := by
  simp [Ends]

@[simp] theorem ends_ask {result : request.Answer} :
    @Ends (no_index request.Answer) world (ask request) result ↔ world request = .ok result := by
  change (world request, ()) = _ ↔ _
  simp

@[simp] theorem ends_or_throw {message : String} {found : Option Value} {value : Value} :
    Ends world (orThrow message found) value ↔ found = some value := by
  cases found with
  | none => simp [Ends, orThrow, fail, run]
  | some held => simp [orThrow]

@[simp] theorem ends_or_fail {message : String} {holds : Bool} {value : Unit} :
    Ends world (orFail holds message) value ↔ holds = true := by
  cases holds with
  | false => simp [Ends, orFail, fail, run]
  | true => simp [orFail]

@[simp] theorem asks_pure {value : Value} : ¬ Asks world (pure value) request := by
  simp [Asks]

@[simp] theorem asks_ask {asked : Request} :
    @Asks (no_index asked.Answer) world (ask asked) request ↔ request = asked := by
  simp [Asks, ask]

@[simp] theorem asks_or_throw {message : String} {found : Option Value} :
    ¬ Asks world (orThrow message found) request := by
  cases found <;> simp [Asks, orThrow]

@[simp] theorem asks_or_fail {message : String} {holds : Bool} :
    ¬ Asks world (orFail holds message) request := by
  cases holds <;> simp [Asks, orFail]

end Rules

/-! How far a withdrawal has to come before it asks for a proof, and for the rest. -/
section Gathering
variable {poseidon2Permutation : Vector Field 4 → Vector Field 4} {world : World}
  {config : Config} {form : Form}

/-- All goes well as far as the position of the note's commitment. -/
inductive Locates (poseidon2Permutation : Vector Field 4 → Vector Field 4) (world : World)
    (config : Config) (form : Form) : Wallet → List UInt8 → Bytes32 → Nat → Prop
  | intro (wallet : Wallet) (nullifierSecret : List UInt8) (nullifierHash : Bytes32)
      (leafIndex : Nat) (notes : List DepositNote) (note : DepositNote)
      (entries : List CommitmentEntry) (sortedCommitments : List (List UInt8))
      (connected : world .wallet = .ok (some wallet))
      (read : hexToBytes form.nullifierSecretHex = some nullifierSecret)
      (loaded : world .hashes = .ok ())
      (hashed : computeNullifierHash poseidon2Permutation nullifierSecret = some nullifierHash)
      (stored : world .notes = .ok notes)
      (found : notes.find? (fun note => note.nullifierHash == bytesToHex nullifierHash.toList) =
        some note)
      (unused : note.used = false)
      (listed : world (.api (.getCommitments config.poolPda)) = .ok entries)
      (sorted : existingCommitments entries = some sortedCommitments)
      (located : sortedCommitments.findIdx? (sameHex note.commitment) = some leafIndex) :
      Locates poseidon2Permutation world config form wallet nullifierSecret nullifierHash leafIndex

/-- All goes well as far as the circuit. -/
inductive Gathers (poseidon2Permutation : Vector Field 4 → Vector Field 4) (world : World)
    (config : Config) (form : Form) : Nat → Draft → Prop
  | intro (wallet : Wallet) (nullifierSecret : List UInt8) (nullifierHash : Bytes32)
      (leafIndex : Nat) (proofResponse : ProofResponse) (merkleProof : List (List UInt8))
      (latestRoot : List UInt8) (recipient : Pubkey) (secret : List UInt8)
      (locates : Locates poseidon2Permutation world config form wallet nullifierSecret
        nullifierHash leafIndex)
      (answered : world (.api (.getProof config.poolPda leafIndex)) = .ok proofResponse)
      (siblings : proofResponse.proof.mapM hexToBytes = some merkleProof)
      (rooted : hexToBytes proofResponse.root = some latestRoot)
      (decoded : world (.publicKey form.recipientAddress) = .ok recipient)
      (opened : hexToBytes form.secretHex = some secret) :
      Gathers poseidon2Permutation world config form leafIndex
        { wallet := wallet, recipient := recipient
          inputs :=
            { root := latestRoot, nullifierHash := nullifierHash
              recipient := WithdrawClient.reduceToField recipient, amount := form.amountLamports
              nullifierSecret := nullifierSecret, secret := secret, merkleProof := merkleProof
              isEven := proofResponse.isEven } }

/-- A position is only found in a list that holds something. -/
theorem located_among {sortedCommitments : List (List UInt8)} {same : List UInt8 → Bool}
    {leafIndex : Nat} (located : sortedCommitments.findIdx? same = some leafIndex) :
    sortedCommitments ≠ [] := by
  rintro rfl
  simp at located

theorem ends_gather {draft : Draft} :
    Ends world (gather poseidon2Permutation config form) draft ↔
      ∃ leafIndex, Gathers poseidon2Permutation world config form leafIndex draft := by
  simp only [gather, ends_bind, ends_ask, ends_or_throw, ends_or_fail, ends_pure]
  constructor
  · rintro ⟨_, connected, wallet, rfl, nullifierSecret, read, _, loaded, nullifierHash, hashed,
      notes, stored, note, found, _, unused, entries, listed, sortedCommitments, sorted, _, _,
      leafIndex, located, response, answered, merkleProof, siblings, latestRoot, rooted, _, _,
      sameHash, again, recipient, decoded, secret, opened, rfl⟩
    cases hashed.symm.trans again
    have located' := Locates.intro wallet nullifierSecret nullifierHash leafIndex notes note entries
      sortedCommitments connected read loaded hashed stored found (by simpa using unused) listed
      sorted located
    exact ⟨leafIndex, Gathers.intro wallet nullifierSecret nullifierHash leafIndex response
      merkleProof latestRoot recipient secret located' answered siblings rooted decoded opened⟩
  · rintro ⟨leafIndex, ⟨wallet, nullifierSecret, nullifierHash, _, response, merkleProof,
      latestRoot, recipient, secret, locates, answered, siblings, rooted, decoded, opened⟩⟩
    obtain ⟨notes, note, entries, sortedCommitments, connected, read, loaded, hashed, stored,
      found, unused, listed, sorted, located⟩ := locates
    exact ⟨_, connected, wallet, rfl, nullifierSecret, read, (), loaded, nullifierHash, hashed,
      notes, stored, note, found, (), by simpa using unused, entries, listed, sortedCommitments,
      sorted, (), by simpa using located_among located, leafIndex, located, response, answered,
      merkleProof, siblings, latestRoot, rooted, (), loaded, nullifierHash, hashed, recipient,
      decoded, secret, opened, rfl⟩

theorem asks_submit {draft : Draft} {proofOnly : List UInt8} {call : Api} :
    ¬ Asks world (submit config draft proofOnly) (.api call) := by
  simp only [submit, asks_bind, asks_ask, asks_or_throw, asks_or_fail, reduceCtorEq, false_or,
    not_exists, not_and]
  rintro data _ latest _ _ _ _ _ signature _ failed _
  cases failed with
  | some err => simp [Asks]
  | none => simp [asks_bind]

theorem asks_gather_proof {poolAddress : String} {leafIndex : Nat} :
    Asks world (gather poseidon2Permutation config form)
        (.api (.getProof poolAddress leafIndex)) ↔
      poolAddress = config.poolPda ∧ ∃ wallet nullifierSecret nullifierHash,
        Locates poseidon2Permutation world config form wallet nullifierSecret nullifierHash
          leafIndex := by
  simp only [gather, asks_bind, ends_ask, ends_or_throw, ends_or_fail, asks_ask, asks_pure,
    asks_or_throw, asks_or_fail, reduceCtorEq, false_or, or_false, and_false, exists_false,
    Request.api.injEq, Api.getProof.injEq]
  constructor
  · rintro ⟨_, connected, wallet, rfl, nullifierSecret, read, _, loaded, nullifierHash, hashed,
      notes, stored, note, found, _, unused, entries, listed, sortedCommitments, sorted, _, _,
      index, located, pool, rfl⟩
    exact ⟨pool, wallet, nullifierSecret, nullifierHash, Locates.intro wallet nullifierSecret
      nullifierHash leafIndex notes note entries sortedCommitments connected read loaded hashed
      stored found (by simpa using unused) listed sorted located⟩
  · rintro ⟨pool, wallet, nullifierSecret, nullifierHash, ⟨notes, note, entries,
      sortedCommitments, connected, read, loaded, hashed, stored, found, unused, listed, sorted,
      located⟩⟩
    exact ⟨_, connected, wallet, rfl, nullifierSecret, read, (), loaded, nullifierHash, hashed,
      notes, stored, note, found, (), by simpa using unused, entries, listed, sortedCommitments,
      sorted, (), by simpa using located_among located, leafIndex, located, pool, rfl⟩

theorem asks_gather_witness {witness : String} :
    ¬ Asks world (gather poseidon2Permutation config form) (.api (.withdraw witness)) := by
  simp only [gather, asks_bind, asks_ask, asks_pure, asks_or_throw, asks_or_fail, reduceCtorEq,
    Request.api.injEq, or_self, and_false, exists_false, not_false_eq_true]

theorem asks_gather_send {transaction : WithdrawTransaction} :
    ¬ Asks world (gather poseidon2Permutation config form) (.sendRawTransaction transaction) := by
  simp only [gather, asks_bind, asks_ask, asks_pure, asks_or_throw, asks_or_fail, reduceCtorEq,
    or_self, and_false, exists_false, not_false_eq_true]

/-- Nothing is sent by a withdrawal that does not get as far as the circuit. -/
theorem asks_send_gathers {transaction : WithdrawTransaction}
    (asked : Asks world (withdraw poseidon2Permutation config form)
      (.sendRawTransaction transaction)) :
    ∃ leafIndex draft, Gathers poseidon2Permutation world config form leafIndex draft := by
  rw [withdraw, asks_bind] at asked
  rcases asked with early | ⟨draft, gathered, _⟩
  · exact absurd early asks_gather_send
  · obtain ⟨leafIndex, gathers⟩ := ends_gather.mp gathered
    exact ⟨leafIndex, draft, gathers⟩

/-- A valid form sends what `withdraw` sends with what it reads off the text. -/
theorem asks_handle_send {nullifierNote recipient : String} {transaction : WithdrawTransaction} :
    Asks world (handleWithdraw poseidon2Permutation config nullifierNote recipient)
        (.sendRawTransaction transaction) ↔
      (∃ wallet, world .wallet = .ok (some wallet)) ∧ trim nullifierNote.toList ≠ [] ∧
        trim recipient.toList ≠ [] ∧
        Asks world (withdraw poseidon2Permutation config (pasted nullifierNote recipient))
          (.sendRawTransaction transaction) := by
  have attempted : Asks world (attempt (withdraw poseidon2Permutation config
      (pasted nullifierNote recipient)) >>= fun _ => pure ()) (.sendRawTransaction transaction) ↔
        Asks world (withdraw poseidon2Permutation config (pasted nullifierNote recipient))
          (.sendRawTransaction transaction) := by
    simp only [asks_bind, asks_pure, and_false, exists_false, or_false]
    rw [Asks, trace_attempt]
    exact Iff.rfl
  simp only [handleWithdraw, asks_bind, asks_ask, ends_ask, reduceCtorEq, false_or]
  constructor
  · rintro ⟨connected, answered, asked⟩
    split at asked
    · rename_i valid
      obtain ⟨wallet, rfl⟩ := Option.isSome_iff_exists.mp valid.2.2
      exact ⟨⟨wallet, answered⟩, valid.1, valid.2.1, attempted.mp asked⟩
    · exact absurd asked asks_pure
  · rintro ⟨⟨wallet, answered⟩, shown, named, asked⟩
    refine ⟨some wallet, answered, ?_⟩
    rw [if_pos ⟨shown, named, rfl⟩]
    exact attempted.mpr asked

/-- A proof is asked for at the position the commitment was found at. -/
theorem asks_proof {poolAddress : String} {leafIndex : Nat} :
    Asks world (withdraw poseidon2Permutation config form)
        (.api (.getProof poolAddress leafIndex)) ↔
      poolAddress = config.poolPda ∧ ∃ wallet nullifierSecret nullifierHash,
        Locates poseidon2Permutation world config form wallet nullifierSecret nullifierHash
          leafIndex := by
  simp only [withdraw, asks_bind, asks_gather_proof, asks_ask, asks_submit, reduceCtorEq,
    Request.api.injEq, and_false, exists_false, or_false, or_self]

/-- What is posted is the file the circuit left. -/
theorem asks_witness {witness : String} :
    Asks world (withdraw poseidon2Permutation config form) (.api (.withdraw witness)) ↔
      ∃ leafIndex draft file, Gathers poseidon2Permutation world config form leafIndex draft ∧
        world (.execute draft.inputs) = .ok file ∧
        witness = String.ofList (Base64.encode file) := by
  simp only [withdraw, asks_bind, asks_gather_witness, asks_ask, ends_ask, asks_submit, ends_gather,
    reduceCtorEq, Request.api.injEq, Api.withdraw.injEq, and_false, exists_false, or_false,
    false_or]
  constructor
  · rintro ⟨draft, ⟨leafIndex, gathers⟩, file, executed, same⟩
    exact ⟨leafIndex, draft, file, gathers, executed, same⟩
  · rintro ⟨leafIndex, draft, file, gathers, executed, same⟩
    exact ⟨draft, ⟨leafIndex, gathers⟩, file, executed, same⟩

@[simp] theorem requests_pure {Value : Type} {value : Value} :
    requests world (pure value) = [] := rfl

/-- What follows a call goes on with its answer. -/
theorem requests_ask {After : Type} {request : Request} {next : request.Answer → Flow After} :
    requests world (@bind _ _ (no_index request.Answer) _ (ask request) next) =
      requests world (ask request) ++
      match world request with
      | .ok answer => requests world (next answer)
      | .error _ => [] := by
  simp only [requests, trace_bind, List.filterMap_append]
  apply congrArg
  have ran : run (serve world) (ask request) () = (world request, ()) := rfl
  rw [ran]
  cases world request <;> rfl

theorem requests_or_throw {Value After : Type} {message : String} {value : Value}
    {next : Value → Flow After} :
    requests world (orThrow message (some value) >>= next) = requests world (next value) := rfl

theorem requests_or_fail {After : Type} {message : String} {next : Unit → Flow After} :
    requests world (orFail true message >>= next) = requests world (next ()) := rfl

theorem gather_requests {leafIndex : Nat} {draft : Draft}
    (gathers : Gathers poseidon2Permutation world config form leafIndex draft) :
    requests world (gather poseidon2Permutation config form) =
      [(Api.getCommitments config.poolPda).request,
        (Api.getProof config.poolPda leafIndex).request] := by
  obtain ⟨wallet, nullifierSecret, nullifierHash, _, response, merkleProof,
      latestRoot, recipient, secret, locates, answered, siblings, rooted, decoded, opened⟩ :=
    gathers
  obtain ⟨notes, note, entries, sortedCommitments, connected, read, loaded, hashed, stored,
      found, unused, listed, sorted, located⟩ := locates
  have some : sortedCommitments.isEmpty = false := by
    cases sortedCommitments with
    | nil => simp at located
    | cons first rest => rfl
  simp only [gather, requests_ask, connected, requests_or_throw, read, loaded, hashed, stored,
    found, unused, Bool.not_false, requests_or_fail, listed, sorted, some, located, answered,
    siblings, rooted, decoded, opened]
  rfl

theorem submit_requests {draft : Draft} {proofOnly : List UInt8} :
    requests world (submit config draft proofOnly) = [] := by
  rw [requests, List.filterMap_eq_nil_iff]
  intro request asked
  cases request with
  | api call => exact absurd asked asks_submit
  | _ => rfl

/-- A withdrawal that gets to the circuit makes three requests. -/
theorem withdraw_requests {leafIndex : Nat} {draft : Draft} {file : List UInt8}
    (gathers : Gathers poseidon2Permutation world config form leafIndex draft)
    (executed : world (.execute draft.inputs) = .ok file) :
    requests world (withdraw poseidon2Permutation config form) =
      [(Api.getCommitments config.poolPda).request,
        (Api.getProof config.poolPda leafIndex).request,
        (Api.withdraw (String.ofList (Base64.encode file))).request] := by
  have ended : Ends world (gather poseidon2Permutation config form) draft :=
    ends_gather.mpr ⟨leafIndex, gathers⟩
  have behind : requests world (withdraw poseidon2Permutation config form) =
      requests world (gather poseidon2Permutation config form) ++
        requests world (ask (.execute draft.inputs) >>= fun witness =>
          ask (.api (.withdraw (String.ofList (Base64.encode witness)))) >>=
            submit config draft) := by
    rw [requests, withdraw, trace_bind_ok _ ended, List.filterMap_append]
    rfl
  simp only [behind, gather_requests gathers, requests_ask, executed]
  cases world (.api (.withdraw (String.ofList (Base64.encode file)))) with
  | error failure => rfl
  | ok proofOnly => simp only [submit_requests]; rfl

/-- The services of a world, as the form sees them. -/
def environmentOf (world : World) (config : Config) : Environment where
  connected := match world .wallet with
    | .ok connected => Option.isSome connected
    | .error _ => false
  notes := match world .notes with
    | .ok notes => notes
    | .error _ => []
  hashes := world .hashes
  commitments := world (.api (.getCommitments config.poolPda))
  proof := fun leafIndex => world (.api (.getProof config.poolPda leafIndex))
  publicKey := fun address => world (.publicKey address)

/-- The circuit is run with what the form's own account of `withdraw` arrives at. -/
theorem gathers_inputs {leafIndex : Nat} {draft : Draft}
    (gathers : Gathers poseidon2Permutation world config form leafIndex draft) :
    NoteText.withdraw poseidon2Permutation (environmentOf world config) form.nullifierSecretHex
      form.secretHex form.amountLamports form.recipientAddress = .ok draft.inputs := by
  obtain ⟨wallet, nullifierSecret, nullifierHash, _, response, merkleProof, latestRoot, recipient,
    secret, locates, answered, siblings, rooted, decoded, opened⟩ := gathers
  obtain ⟨notes, note, entries, sortedCommitments, connected, read, loaded, hashed, stored, found,
    unused, listed, sorted, located⟩ := locates
  cases sortedCommitments with
  | nil => simp at located
  | cons first rest =>
      unfold NoteText.withdraw
      simp only [environmentOf, connected, Option.isSome_some, if_true, or_error_some, read, loaded,
        ok_bind, hashed, stored, found, unused, Bool.false_eq_true, if_false, listed, sorted,
        List.head?_cons, located, answered, siblings, rooted, decoded, opened]

end Gathering

end PrivateTransfer.WithdrawFlow
