import PrivateTransfer.Circuit
import PrivateTransfer.ClientHex
import PrivateTransfer.Interruption
import PrivateTransfer.Poseidon2
import PrivateTransfer.PoolProgram
import PrivateTransfer.WithdrawClient

/-!
`frontend/src/composables/useDeposit.ts` with the stores below it. The secrets of a
note live in local variables until `addNote` puts them into `localStorage`, which is
after the transaction has been sent and confirmed.
-/

namespace PrivateTransfer.DepositClient

open ClientHex MerkleService PoolProgram Script

structure DepositNote where
  id : String
  nullifierSecret : String
  secret : String
  amount : Nat
  commitment : String
  nullifierHash : String
  timestamp : Nat
  used : Bool
  deriving DecidableEq

/-- The item `ptrans_deposits` of `localStorage`; `foreign` is JSON that is no array. -/
inductive Stored where
  | absent
  | malformed
  | notes (notes : List DepositNote)
  | foreign

/-- `JSON.parse` of it, read as an array where it is one. -/
def Stored.parsed : Stored → Option (List DepositNote)
  | absent => some []
  | malformed => some []
  | notes held => some held
  | foreign => none

structure Wallet where
  address : Pubkey
  signs : Bool

structure CommitmentEntry where
  leafIndex : Int
  commitment : String

inductive MerkleReply where
  | refused (status : Nat) (text : String)
  | root (hex : String)

structure Blockhash where
  blockhash : String
  lastValidBlockHeight : Nat

/-- One instruction of the pool program, paid for by the depositor. -/
structure DepositTransaction where
  payer : Pubkey
  blockhash : String
  programId : String
  accounts : InitDeposit
  data : List UInt8

/-- What the outside world is asked for, but for sending and storing. -/
inductive Remote where
  | wallet
  | randomBytes (draw : Nat)
  | hashes
  | commitments (pool : Pubkey)
  | root (commitments : List String)
  | latestBlockhash
  | signTransaction (transaction : DepositTransaction)
  | confirmTransaction (signature : String) (latest : Blockhash)
  | randomUUID
  | balance (address : Pubkey)

@[reducible] def Remote.Answer : Remote → Type
  | wallet => Option Wallet
  | randomBytes _ => Bytes32
  | hashes => Unit
  | commitments _ => List CommitmentEntry
  | root _ => MerkleReply
  | latestBlockhash => Blockhash
  | signTransaction _ => Unit
  | confirmTransaction _ _ => Option String
  | randomUUID => String
  | balance _ => Nat

inductive Request where
  | remote (call : Remote)
  | sendRawTransaction (transaction : DepositTransaction)
  | getItem
  | setItem (notes : List DepositNote)

@[reducible] def Request.Answer : Request → Type
  | remote call => call.Answer
  | sendRawTransaction _ => String
  | getItem => Stored
  | setItem _ => Unit

abbrev Flow := Program Request Request.Answer String

def remote (call : Remote) : Flow call.Answer := perform (Request.remote call)

/-- The deployment, `VITE_MIN_DEPOSIT` in lamports (unset, no amount is below it), what that
setting is printed as, and `Date.now()` when a note is made. -/
structure Config where
  pool : Pubkey
  poolVault : Pubkey
  minDeposit : Option Nat
  minDepositText : String
  now : Nat

def depositDiscriminator : List UInt8 := [242, 35, 198, 137, 82, 225, 242, 182]

def ptransProgramAddress : String := "FbXJSZ171dcnHJVrd5E6KwvXAx7bMgxC44McF84vJ6cK"

def orThrow {Value : Type} (message : String) : Option Value → Flow Value
  | some value => pure value
  | none => fail message

/-- `if (!holds) throw new Error(message)`. -/
def orFail (holds : Bool) (message : String) : Flow Unit :=
  if holds then pure () else fail message

/-- `target.set(source, offset)`; past the end it throws. -/
def setBytes (target source : List UInt8) (offset : Nat) : Option (List UInt8) :=
  if offset + source.length ≤ target.length then
    some (target.take offset ++ source ++ target.drop (offset + source.length))
  else none

/-- The amount goes in as 64 bits, little-endian. -/
def instructionData (commitment : Bytes32) (newRoot : List UInt8) (amount : Nat) :
    Option (List UInt8) := do
  let data ← setBytes (List.replicate 80 0) depositDiscriminator 0
  let data ← setBytes data commitment.toList 8
  let data ← setBytes data newRoot 40
  setBytes data (BigEndian.digits 8 amount).reverse 72

/-! What is set stays until it is set over. -/
section Data

theorem set_bytes_some {target source data : List UInt8} {offset : Nat}
    (written : setBytes target source offset = some data) :
    offset ≤ target.length ∧
      data = target.take offset ++ source ++ target.drop (offset + source.length) := by
  rw [setBytes] at written
  split at written
  · rename_i fits
    exact ⟨Nat.le_of_add_right_le fits, (Option.some.inj written).symm⟩
  · cases written

theorem set_bytes_before {target source data : List UInt8} {offset count : Nat}
    (written : setBytes target source offset = some data) (early : count ≤ offset) :
    data.take count = target.take count := by
  obtain ⟨inside, rfl⟩ := set_bytes_some written
  have front : (target.take offset).length = offset := List.length_take_of_le inside
  rw [List.append_assoc, List.take_append_of_le_length (by rw [front]; exact early),
    List.take_take, Nat.min_eq_left early]

theorem set_bytes_at {target source data : List UInt8} {offset : Nat}
    (written : setBytes target source offset = some data) :
    (data.drop offset).take source.length = source := by
  obtain ⟨inside, rfl⟩ := set_bytes_some written
  have front : (target.take offset).length = offset := List.length_take_of_le inside
  rw [List.append_assoc, List.drop_append_of_le_length (Nat.le_of_eq front.symm),
    List.drop_of_length_le (Nat.le_of_eq front), List.nil_append, List.take_left]

/-- The instruction carries the commitment behind its discriminator. -/
theorem instruction_commitment {commitment : Bytes32} {newRoot data : List UInt8} {amount : Nat}
    (written : instructionData commitment newRoot amount = some data) :
    (data.drop 8).take 32 = commitment.toList := by
  rw [instructionData] at written
  obtain ⟨first, _, written⟩ := Option.bind_eq_some_iff.mp written
  obtain ⟨second, placed, written⟩ := Option.bind_eq_some_iff.mp written
  obtain ⟨third, rooted, paid⟩ := Option.bind_eq_some_iff.mp written
  have kept : data.take 40 = second.take 40 :=
    (set_bytes_before paid (by decide)).trans (set_bytes_before rooted (Nat.le_refl 40))
  have own := set_bytes_at placed
  rw [Vector.length_toList] at own
  have cut : ∀ bytes : List UInt8, (bytes.drop 8).take 32 = (bytes.take 40).drop 8 :=
    fun bytes => List.take_drop
  rw [cut, kept, ← cut, own]

theorem set_bytes_fits {target source : List UInt8} {offset : Nat}
    (fits : offset + source.length ≤ target.length) :
    ∃ data, setBytes target source offset = some data ∧ data.length = target.length := by
  refine ⟨_, if_pos fits, ?_⟩
  rw [List.length_append, List.length_append, List.length_take_of_le (by omega), List.length_drop]
  omega

/-- A root of 32 bytes leaves room for the amount. -/
theorem instruction_fits (commitment : Bytes32) {newRoot : List UInt8} (amount : Nat)
    (short : newRoot.length = 32) :
    ∃ data, instructionData commitment newRoot amount = some data := by
  have blank : (List.replicate 80 (0 : UInt8)).length = 80 := List.length_replicate
  obtain ⟨first, opened, one⟩ := set_bytes_fits
    (show 0 + depositDiscriminator.length ≤ (List.replicate 80 (0 : UInt8)).length by decide)
  obtain ⟨second, placed, two⟩ := set_bytes_fits
    (show 8 + commitment.toList.length ≤ first.length by rw [Vector.length_toList]; omega)
  obtain ⟨third, rooted, three⟩ := set_bytes_fits
    (show 40 + newRoot.length ≤ second.length by omega)
  obtain ⟨fourth, paid, _⟩ := set_bytes_fits
    (show 72 + (BigEndian.digits 8 amount).reverse.length ≤ third.length by
      rw [List.length_reverse, BigEndian.digits_length]
      omega)
  refine ⟨fourth, ?_⟩
  simp only [instructionData, opened, placed, rooted, paid, Option.bind_eq_bind, Option.bind_some]

end Data

def bytesToFieldElement (bytes : Bytes32) : Bytes32 := WithdrawClient.reduceToField bytes

section Deposit
variable (poseidon2Permutation : Vector Field 4 → Vector Field 4)

structure CommitmentResult where
  commitment : Bytes32
  nullifierHash : Bytes32

/-- `noir.execute` takes only numbers below the modulus for a field. -/
def computeCommitment (nullifierSecret secret : Bytes32) (amount : Nat) :
    Option CommitmentResult :=
  if nullifierSecret.value < bn254Modulus ∧ secret.value < bn254Modulus ∧
      amount < bn254Modulus then
    some
      { commitment := bytesOf (Circuit.hash3 poseidon2Permutation (fieldOf nullifierSecret)
          (fieldOf secret) (Fin.ofNat bn254Modulus amount))
        nullifierHash := bytesOf (Circuit.hash1 poseidon2Permutation (fieldOf nullifierSecret)) }
  else none

/-- A deposit that is ready to be sent, with the values only its caller knows. -/
structure Draft where
  nullifierSecret : Bytes32
  secret : Bytes32
  amount : Nat
  computed : CommitmentResult
  latest : Blockhash
  transaction : DepositTransaction

def fetchNewRootFromMerkle (newCommitment : List UInt8) (existingCommitments : List (List UInt8)) :
    Flow (List UInt8) := do
  let allCommitments := existingCommitments ++ [newCommitment]
  let reply : MerkleReply ← remote (.root (allCommitments.map bytesToHex))
  match reply with
  | .refused status text =>
      fail ("Merkle service error: " ++ toString status ++ " " ++ text)
  | .root hex => orThrow "invalid hex" (hexToBytes hex)

/-- The commitments in leaf order, as bytes. -/
def existingCommitments (entries : List CommitmentEntry) : Option (List (List UInt8)) :=
  (entries.mergeSort fun a b => decide (a.leafIndex ≤ b.leafIndex)).mapM
    fun entry => hexToBytes entry.commitment

def depositTransaction (config : Config) (wallet : Wallet) (latest : Blockhash)
    (data : List UInt8) : DepositTransaction where
  payer := wallet.address
  blockhash := latest.blockhash
  programId := ptransProgramAddress
  accounts := ⟨config.pool, config.poolVault, wallet.address, PoolState.systemProgramId⟩
  data := data

def belowMinimum (config : Config) (amount : Nat) : Bool :=
  config.minDeposit.any fun least => decide (amount < least)

/-- `deposit` as far as the signature. -/
def prepare (config : Config) (amount : Nat) : Flow Draft := do
  let connected ← remote .wallet
  let wallet ← orThrow "Wallet not connected or provider missing" connected
  orFail (!belowMinimum config amount) ("Minimum deposit is " ++ config.minDepositText ++ " SOL")
  let firstDraw ← remote (.randomBytes 0)
  let secondDraw ← remote (.randomBytes 1)
  remote .hashes
  let computed ← orThrow "not a field element" (computeCommitment poseidon2Permutation
    (bytesToFieldElement firstDraw) (bytesToFieldElement secondDraw) amount)
  let entries ← remote (.commitments config.pool)
  let existing ← orThrow "invalid hex" (existingCommitments entries)
  let targetNewRoot ← fetchNewRootFromMerkle computed.commitment.toList existing
  let data ← orThrow "offset is out of bounds"
    (instructionData computed.commitment targetNewRoot amount)
  let latest ← remote .latestBlockhash
  orFail wallet.signs "Wallet does not support signTransaction"
  remote (.signTransaction (depositTransaction config wallet latest data))
  pure
    { nullifierSecret := bytesToFieldElement firstDraw, secret := bytesToFieldElement secondDraw,
      amount, computed, latest, transaction := depositTransaction config wallet latest data }

/-- Whatever goes wrong while reading ends in an empty list. -/
def getDepositNotes : Flow (Option (List DepositNote)) := do
  let data : Except String Stored ← attempt (perform Request.getItem)
  match data with
  | .ok stored => pure stored.parsed
  | .error _ => pure (some [])

def saveDepositNote (note : DepositNote) : Flow DepositNote := do
  let stored ← getDepositNotes
  let notes ← orThrow "notes.push is not a function" stored
  perform (Request.setItem (notes ++ [note]))
  pure note

def noteOf (draft : Draft) (id : String) (timestamp : Nat) : DepositNote where
  id := id
  nullifierSecret := bytesToHex draft.nullifierSecret.toList
  secret := bytesToHex draft.secret.toList
  amount := draft.amount
  commitment := bytesToHex draft.computed.commitment.toList
  nullifierHash := bytesToHex draft.computed.nullifierHash.toList
  timestamp := timestamp
  used := false

def addNote (config : Config) (draft : Draft) : Flow DepositNote := do
  let id ← remote .randomUUID
  saveDepositNote (noteOf draft id config.now)

/-- `deposit` from the signature to the note. -/
def submit (config : Config) (draft : Draft) : Flow DepositNote := do
  let signature ← perform (Request.sendRawTransaction draft.transaction)
  let failed : Option String ← remote (.confirmTransaction signature draft.latest)
  match failed with
  | some err => fail ("Transaction failed: " ++ err)
  | none => addNote config draft

def deposit (config : Config) (amount : Nat) : Flow Nat := do
  let draft ← prepare poseidon2Permutation config amount
  -- from the sending to the storing the draft is the only copy of the secrets
  let _ ← submit config draft
  remote (.balance draft.transaction.payer)

end Deposit

/-- What each call would be answered, in one run. -/
structure Weather where
  answers : (call : Remote) → Except String call.Answer
  send : DepositTransaction → Except String String
  readFails : Option String
  writeFails : Option String

/-- `localStorage`, and what has been handed to `sendRawTransaction`, whatever came of it. -/
structure Browser where
  stored : Stored
  handed : List DepositTransaction

def serve (weather : Weather) :
    (request : Request) → Browser → Except String request.Answer × Browser
  | .remote call, browser => (weather.answers call, browser)
  -- a rejected call may have sent the transaction all the same
  | .sendRawTransaction transaction, browser =>
      (weather.send transaction, { browser with handed := browser.handed ++ [transaction] })
  | .getItem, browser =>
      match weather.readFails with
      | some failure => (.error failure, browser)
      | none => (.ok browser.stored, browser)
  | .setItem notes, browser =>
      match weather.writeFails with
      | some failure => (.error failure, browser)
      | none => (.ok (), { browser with stored := .notes notes })

/-- The browser when a run ends, or is cut off, after `count` answers. -/
def leftBehind (poseidon2Permutation : Vector Field 4 → Vector Field 4) (weather : Weather)
    (config : Config) (amount : Nat) (stored : Stored) (count : Nat) : Browser :=
  stopped (serve weather) count (deposit poseidon2Permutation config amount) ⟨stored, []⟩

def Stored.kept : Stored → List DepositNote
  | .notes held => held
  | _ => []

/-- The commitment a transaction submits. -/
def DepositTransaction.commitment (transaction : DepositTransaction) : List UInt8 :=
  (transaction.data.drop 8).take 32

/-- The secrets of the note hash to the commitment. -/
def Opens (poseidon2Permutation : Vector Field 4 → Vector Field 4) (note : DepositNote)
    (commitment : List UInt8) : Prop :=
  ∃ nullifierSecret secret : Bytes32,
    hexToBytes note.nullifierSecret = some nullifierSecret.toList ∧
    hexToBytes note.secret = some secret.toList ∧
    commitment = (bytesOf (Circuit.hash3 poseidon2Permutation (fieldOf nullifierSecret)
      (fieldOf secret) (Fin.ofNat bn254Modulus note.amount))).toList

/-- Whatever has been handed over can be opened with a stored note. -/
def Recoverable (poseidon2Permutation : Vector Field 4 → Vector Field 4) (browser : Browser) :
    Prop :=
  ∀ transaction ∈ browser.handed, ∃ note ∈ browser.stored.kept,
    Opens poseidon2Permutation note transaction.commitment

/-- Everything up to the signature goes well. -/
inductive Signs (poseidon2Permutation : Vector Field 4 → Vector Field 4) (weather : Weather)
    (config : Config) (amount : Nat) : Draft → Prop
  | intro (wallet : Wallet) (firstDraw secondDraw : Bytes32) (computed : CommitmentResult)
      (entries : List CommitmentEntry) (existing : List (List UInt8)) (root : String)
      (newRoot data : List UInt8) (latest : Blockhash)
      (connected : weather.answers .wallet = .ok (some wallet)) (signs : wallet.signs = true)
      (enough : belowMinimum config amount = false)
      (first : weather.answers (.randomBytes 0) = .ok firstDraw)
      (second : weather.answers (.randomBytes 1) = .ok secondDraw)
      (loaded : weather.answers .hashes = .ok ())
      (hashed : computeCommitment poseidon2Permutation (bytesToFieldElement firstDraw)
        (bytesToFieldElement secondDraw) amount = some computed)
      (listed : weather.answers (.commitments config.pool) = .ok entries)
      (read : existingCommitments entries = some existing)
      (rooted : weather.answers (.root ((existing ++ [computed.commitment.toList]).map bytesToHex))
        = .ok (.root root))
      (decoded : hexToBytes root = some newRoot)
      (written : instructionData computed.commitment newRoot amount = some data)
      (dated : weather.answers .latestBlockhash = .ok latest)
      (signed : weather.answers
        (.signTransaction (depositTransaction config wallet latest data)) = .ok ()) :
      Signs poseidon2Permutation weather config amount
        ⟨bytesToFieldElement firstDraw, bytesToFieldElement secondDraw, amount, computed, latest,
          depositTransaction config wallet latest data⟩

def readNotes (weather : Weather) (stored : Stored) : Option (List DepositNote) :=
  match weather.readFails with
  | some _ => some []
  | none => stored.parsed

/-- Everything from the signature to the storage goes well, and this is what is stored. -/
inductive Saves (weather : Weather) (config : Config) (stored : Stored) (draft : Draft) :
    List DepositNote → Prop
  | intro (signature id : String) (notes : List DepositNote)
      (sent : weather.send draft.transaction = .ok signature)
      (confirmed : weather.answers (.confirmTransaction signature draft.latest) = .ok none)
      (stamped : weather.answers .randomUUID = .ok id)
      (readable : readNotes weather stored = some notes) (writable : weather.writeFails = none) :
      Saves weather config stored draft (notes ++ [noteOf draft id config.now])

section Prepare
variable {poseidon2Permutation : Vector Field 4 → Vector Field 4} {weather : Weather}
  {config : Config} {amount : Nat} {draft : Draft}

theorem leads_remote {call : Remote} {answer : call.Answer}
    (answered : weather.answers call = .ok answer) (browser : Browser) :
    Leads (serve weather) (remote call) browser 1 answer browser :=
  leads_perform (Prod.ext answered rfl)

/-- What a signed deposit submits is what its secrets and amount hash to. -/
theorem signs_computed (signs : Signs poseidon2Permutation weather config amount draft) :
    draft.nullifierSecret.value < bn254Modulus ∧
      draft.computed.commitment = bytesOf (Circuit.hash3 poseidon2Permutation
        (fieldOf draft.nullifierSecret) (fieldOf draft.secret)
        (Fin.ofNat bn254Modulus draft.amount)) ∧
      draft.computed.nullifierHash =
        bytesOf (Circuit.hash1 poseidon2Permutation (fieldOf draft.nullifierSecret)) ∧
      draft.transaction.commitment = draft.computed.commitment.toList := by
  obtain ⟨wallet, firstDraw, secondDraw, computed, entries, existing, root, newRoot, data, latest,
    connected, able, enough, first, second, loaded, hashed, listed, read, rooted, decoded, written,
    dated, signed⟩ := signs
  rw [computeCommitment] at hashed
  split at hashed
  · rename_i canonical
    cases Option.some.inj hashed
    exact ⟨canonical.1, rfl, rfl, instruction_commitment written⟩
  · cases hashed

@[simp] theorem or_throw_some {Value Next : Type} (message : String) (value : Value)
    (next : Value → Flow Next) : (orThrow message (some value) >>= next) = next value := rfl

@[simp] theorem or_fail_true {Next : Type} (message : String) (next : Unit → Flow Next) :
    (orFail true message >>= next) = next () := rfl

/-- A root that is fetched and decoded costs one answer. -/
theorem leads_root {newCommitment : List UInt8} {existingCommitments : List (List UInt8)}
    {root : String} {newRoot : List UInt8}
    (rooted : weather.answers
      (.root ((existingCommitments ++ [newCommitment]).map bytesToHex)) = .ok (.root root))
    (decoded : hexToBytes root = some newRoot) (browser : Browser) :
    Leads (serve weather) (fetchNewRootFromMerkle newCommitment existingCommitments) browser 1
      newRoot browser := by
  refine leads_bind (leads_remote rooted browser) ?_
  change Leads _ (orThrow "invalid hex" (hexToBytes root)) _ _ _ _
  rw [decoded]
  exact leads_pure newRoot browser

/-- Eight answers bring a deposit as far as its signature. -/
theorem signs_prepare (signs : Signs poseidon2Permutation weather config amount draft)
    (browser : Browser) :
    Leads (serve weather) (prepare poseidon2Permutation config amount) browser 8 draft browser := by
  obtain ⟨wallet, firstDraw, secondDraw, computed, entries, existing, root, newRoot, data, latest,
    connected, able, enough, first, second, loaded, hashed, listed, read, rooted, decoded, written,
    dated, signed⟩ := signs
  refine leads_bind (leads_remote connected browser) ?_
  rw [or_throw_some, enough, Bool.not_false, or_fail_true]
  refine leads_bind (leads_remote first browser) ?_
  refine leads_bind (leads_remote second browser) ?_
  refine leads_bind (leads_remote loaded browser) ?_
  rw [hashed, or_throw_some]
  refine leads_bind (leads_remote listed browser) ?_
  rw [read, or_throw_some]
  refine leads_bind (leads_root rooted decoded browser) ?_
  rw [written, or_throw_some]
  refine leads_bind (leads_remote dated browser) ?_
  rw [able, or_fail_true]
  exact leads_bind (leads_remote signed browser) (leads_pure _ browser)

theorem through_remote {Value : Type} {call : Remote} {next : call.Answer → Flow Value}
    {ending : Except String Value → Browser → Prop} {browser : Browser}
    (goesOn : ∀ answer, weather.answers call = .ok answer →
      Through (serve weather) (· = browser) ending (next answer) browser)
    (fails : ∀ failure, ending (.error failure) browser) :
    Through (serve weather) (· = browser) ending (remote call >>= next) browser := by
  cases answered : weather.answers call with
  | ok answer =>
      exact through_perform (Request.remote call) (Prod.ext answered rfl) rfl
        (goesOn answer answered)
  | error failure =>
      exact through_refused (Request.remote call) (Prod.ext answered rfl) rfl rfl (fails failure)

theorem through_throw {Value Next : Type} {message : String} {found : Option Value}
    {next : Value → Flow Next} {ending : Except String Next → Browser → Prop} {browser : Browser}
    (goesOn : ∀ value, found = some value →
      Through (serve weather) (· = browser) ending (next value) browser)
    (fails : ∀ failure, ending (.error failure) browser) :
    Through (serve weather) (· = browser) ending (orThrow message found >>= next) browser := by
  cases found with
  | some value => exact goesOn value rfl
  | none => exact ⟨rfl, fails message⟩

theorem through_fail {Next : Type} {message : String} {holds : Bool}
    {next : Unit → Flow Next} {ending : Except String Next → Browser → Prop} {browser : Browser}
    (goesOn : holds = true → Through (serve weather) (· = browser) ending (next ()) browser)
    (fails : ∀ failure, ending (.error failure) browser) :
    Through (serve weather) (· = browser) ending (orFail holds message >>= next) browser := by
  cases holds with
  | true => exact goesOn rfl
  | false => exact ⟨rfl, fails message⟩

theorem through_root {Next : Type} {newCommitment : List UInt8}
    {existingCommitments : List (List UInt8)} {next : List UInt8 → Flow Next}
    {ending : Except String Next → Browser → Prop} {browser : Browser}
    (goesOn : ∀ root newRoot, weather.answers
      (.root ((existingCommitments ++ [newCommitment]).map bytesToHex)) = .ok (.root root) →
      hexToBytes root = some newRoot →
      Through (serve weather) (· = browser) ending (next newRoot) browser)
    (fails : ∀ failure, ending (.error failure) browser) :
    Through (serve weather) (· = browser) ending
      (fetchNewRootFromMerkle newCommitment existingCommitments >>= next) browser := by
  have fetched : Through (serve weather) (· = browser)
      (fun result _ => ∀ newRoot, result = .ok newRoot → ∃ root, weather.answers
        (.root ((existingCommitments ++ [newCommitment]).map bytesToHex)) = .ok (.root root) ∧
        hexToBytes root = some newRoot)
      (fetchNewRootFromMerkle newCommitment existingCommitments) browser := by
    refine through_remote (fun reply answered => ?_) nofun
    cases reply with
    | refused status text => exact ⟨rfl, nofun⟩
    | root hex =>
        change Through _ _ _ (orThrow "invalid hex" (hexToBytes hex)) browser
        cases decoded : hexToBytes hex with
        | none => exact ⟨rfl, nofun⟩
        | some newRoot =>
            refine ⟨rfl, ?_⟩
            rintro _ ⟨⟩
            exact ⟨hex, answered, decoded⟩
  refine through_bind fetched ?_ ?_
  · rintro newRoot _ rfl made
    obtain ⟨root, rooted, decoded⟩ := made newRoot rfl
    exact goesOn root newRoot rooted decoded
  · rintro failure _ rfl _
    exact fails failure

/-- Up to the signature nothing is stored or sent, and a signature means that all went well. -/
theorem prepare_through (browser : Browser) :
    Through (serve weather) (· = browser)
      (fun result _ => ∀ draft, result = .ok draft →
        Signs poseidon2Permutation weather config amount draft)
      (prepare poseidon2Permutation config amount) browser := by
  have fails : ∀ (failure : String) (draft : Draft), Except.error failure = .ok draft →
      Signs poseidon2Permutation weather config amount draft := nofun
  refine through_remote (fun connected connects => ?_) fails
  refine through_throw (fun wallet found => ?_) fails
  refine through_fail (fun enough => ?_) fails
  refine through_remote (fun firstDraw first => ?_) fails
  refine through_remote (fun secondDraw second => ?_) fails
  refine through_remote (fun _ loaded => ?_) fails
  generalize hashing : computeCommitment poseidon2Permutation (bytesToFieldElement firstDraw)
    (bytesToFieldElement secondDraw) amount = result
  refine through_throw (fun computed hashed => ?_) fails
  refine through_remote (fun entries listed => ?_) fails
  refine through_throw (fun existing read => ?_) fails
  refine through_root (fun root newRoot rooted decoded => ?_) fails
  refine through_throw (fun data written => ?_) fails
  refine through_remote (fun latest dated => ?_) fails
  refine through_fail (fun able => ?_) fails
  refine through_remote (fun _ signed => ?_) fails
  refine through_pure rfl ?_
  intro draft same
  subst found hashed
  rw [Bool.not_eq_true'] at enough
  rw [← Except.ok.inj same]
  exact Signs.intro wallet firstDraw secondDraw computed entries existing root newRoot data latest
    connects able enough first second loaded hashing listed read rooted decoded written dated signed

end Prepare

section Submit
variable {weather : Weather} {config : Config} {draft : Draft} {stored : Stored}

/-- A cut at a call, a call that is refused, or an answer with the rest of the run behind it. -/
theorem remote_stopped {Value : Type} {call : Remote} {next : call.Answer → Flow Value}
    {browser after : Browser} {count : Nat}
    (cut : stopped (serve weather) count (remote call >>= next) browser = after) :
    after = browser ∨ ∃ answer rest, weather.answers call = .ok answer ∧ count = rest + 1 ∧
      stopped (serve weather) rest (next answer) browser = after := by
  rcases count with _ | count
  · exact Or.inl cut.symm
  cases answered : weather.answers call with
  | error failure =>
      have served : serve weather (.remote call) browser = (.error failure, browser) :=
        Prod.ext answered rfl
      exact Or.inl (cut.symm.trans (stopped_refused _ served next count))
  | ok answer =>
      have served : serve weather (.remote call) browser = (.ok answer, browser) :=
        Prod.ext answered rfl
      have behind := stopped_perform _ served next count
      exact Or.inr ⟨answer, count, rfl, rfl, behind.symm.trans cut⟩

theorem serve_send {signature : String} (sent : weather.send draft.transaction = .ok signature) :
    serve weather (.sendRawTransaction draft.transaction) ⟨stored, []⟩ =
      (.ok signature, ⟨stored, [draft.transaction]⟩) := Prod.ext sent rfl

/-- Reading the notes takes one answer, whatever it is. -/
theorem notes_read (browser : Browser) :
    Leads (serve weather) getDepositNotes browser 1 (readNotes weather browser.stored) browser := by
  obtain ⟨stored, handed⟩ := browser
  refine leads_bind (leads_noted Request.getItem _) ?_
  rw [serve, readNotes]
  cases weather.readFails with
  | some failure => exact leads_pure _ _
  | none => exact leads_pure _ _

/-- Five answers bring a signed deposit into the storage. -/
theorem saves_submit {notes : List DepositNote} (saves : Saves weather config stored draft notes) :
    ∃ note, Leads (serve weather) (submit config draft) ⟨stored, []⟩ 5 note
      ⟨.notes notes, [draft.transaction]⟩ := by
  obtain ⟨signature, id, notes, sent, confirmed, stamped, readable, writable⟩ := saves
  refine ⟨noteOf draft id config.now, ?_⟩
  refine leads_bind (leads_perform (serve_send sent)) ?_
  refine leads_bind (leads_remote confirmed _) ?_
  refine leads_bind (leads_remote stamped _) ?_
  refine leads_bind (notes_read _) ?_
  rw [readable, or_throw_some]
  have written : serve weather (.setItem (notes ++ [noteOf draft id config.now]))
      ⟨stored, [draft.transaction]⟩ =
        (.ok (), ⟨.notes (notes ++ [noteOf draft id config.now]), [draft.transaction]⟩) := by
    rw [serve, writable]
  exact leads_bind (leads_perform written) (leads_pure _ _)

/-- A script that has ended or failed is left alone by every cut. -/
theorem stopped_done {Value : Type} (result : Except String Value) (browser : Browser)
    (count : Nat) :
    stopped (serve weather) count (.done result : Flow Value) browser = browser := by
  cases count <;> rfl

/-- A note is read, extended and written back in two answers. -/
theorem save_stopped {note : DepositNote} {browser after : Browser} {count : Nat}
    (cut : stopped (serve weather) count (saveDepositNote note) browser = after) :
    after.handed = browser.handed ∧ (after.stored = browser.stored ∨
      ∃ notes, readNotes weather browser.stored = some notes ∧ weather.writeFails = none ∧
        2 ≤ count ∧ after.stored = .notes (notes ++ [note])) := by
  rcases count with _ | count
  · cases cut
    exact ⟨rfl, Or.inl rfl⟩
  rw [saveDepositNote, leads_stopped (notes_read browser), if_neg (by omega),
    Nat.add_sub_cancel] at cut
  cases readable : readNotes weather browser.stored with
  | none =>
      rw [readable] at cut
      cases (stopped_done _ browser count).symm.trans cut
      exact ⟨rfl, Or.inl rfl⟩
  | some notes =>
      rw [readable, or_throw_some] at cut
      rcases count with _ | count
      · cases cut
        exact ⟨rfl, Or.inl rfl⟩
      cases writable : weather.writeFails with
      | some failure =>
          have refused : serve weather (.setItem (notes ++ [note])) browser =
              (.error failure, browser) := by rw [serve, writable]
          rw [stopped_refused _ refused] at cut
          cases cut
          exact ⟨rfl, Or.inl rfl⟩
      | none =>
          have written : serve weather (.setItem (notes ++ [note])) browser =
              (.ok (), { browser with stored := .notes (notes ++ [note]) }) := by
            rw [serve, writable]
          rw [stopped_perform _ written] at cut
          cases (stopped_done (.ok note) _ count).symm.trans cut
          exact ⟨rfl, Or.inr ⟨notes, rfl, rfl, by omega, rfl⟩⟩

/-- Sending comes first. After it the storage changes only once all has gone well. -/
theorem submit_stopped {after : Browser} {count : Nat}
    (cut : stopped (serve weather) (count + 1) (submit config draft) ⟨stored, []⟩ = after) :
    after.handed = [draft.transaction] ∧ (after.stored = stored ∨
      ∃ notes, Saves weather config stored draft notes ∧ 4 ≤ count ∧
        after.stored = .notes notes) := by
  -- every answer may be the last one or a refusal; both leave the storage as it was
  cases sent : weather.send draft.transaction with
  | error failure =>
      have refused : serve weather (.sendRawTransaction draft.transaction) ⟨stored, []⟩ =
          (.error failure, ⟨stored, [draft.transaction]⟩) := Prod.ext sent rfl
      rw [submit, stopped_refused _ refused] at cut
      cases cut
      exact ⟨rfl, Or.inl rfl⟩
  | ok signature =>
      rw [submit, stopped_perform _ (serve_send sent)] at cut
      rcases remote_stopped cut with rfl | ⟨failed, rest, confirmed, sized, confirmedCut⟩
      · exact ⟨rfl, Or.inl rfl⟩
      cases failed with
      | some err =>
          cases (stopped_done _ _ rest).symm.trans confirmedCut
          exact ⟨rfl, Or.inl rfl⟩
      | none =>
          rcases remote_stopped confirmedCut with rfl | ⟨id, last, stamped, longer, savingCut⟩
          · exact ⟨rfl, Or.inl rfl⟩
          obtain ⟨handed, same | ⟨notes, readable, writable, late, wrote⟩⟩ :=
            save_stopped savingCut
          · exact ⟨handed, Or.inl same⟩
          · refine ⟨handed, Or.inr ⟨_, ?_, by omega, wrote⟩⟩
            exact Saves.intro signature id notes sent confirmed stamped readable writable

end Submit

section Recovery
variable {poseidon2Permutation : Vector Field 4 → Vector Field 4} {weather : Weather}
  {config : Config} {amount : Nat} {draft : Draft} {stored : Stored} {count : Nat}

/-- The balance is asked for when all is over. -/
theorem balance_stopped (draft : Draft) (browser : Browser) (count : Nat) :
    stopped (serve weather) count
        (submit config draft >>= fun _ => remote (.balance draft.transaction.payer)) browser =
      stopped (serve weather) count (submit config draft) browser := by
  rw [stopped_bind]
  split
  · rfl
  · rename_i late
    rw [stopped_end _ _ _ _ (Nat.le_of_not_lt late)]
    obtain ⟨result, reached⟩ := run (serve weather) (submit config draft) browser
    cases result with
    | error failure => rfl
    | ok note =>
        cases count - asked (serve weather) (submit config draft) browser with
        | zero => rfl
        | succ cut => exact stopped_done _ reached cut

/-- Without a signature nothing is handed over. -/
theorem unsigned_left
    (unsigned : ∀ draft, ¬ Signs poseidon2Permutation weather config amount draft) :
    leftBehind poseidon2Permutation weather config amount stored count = ⟨stored, []⟩ := by
  have through : Through (serve weather) (· = ⟨stored, []⟩) _
      (prepare poseidon2Permutation config amount) _ := prepare_through ⟨stored, []⟩
  rw [leftBehind, deposit, stopped_bind]
  split
  · exact through_stopped through count
  · have kept := through_stopped through
      (asked (serve weather) (prepare poseidon2Permutation config amount) ⟨stored, []⟩)
    rw [stopped_end _ _ _ _ (Nat.le_refl _)] at kept
    have ends := through_run through
    generalize run (serve weather) (prepare poseidon2Permutation config amount) ⟨stored, []⟩ =
      finished at kept ends ⊢
    obtain ⟨result, reached⟩ := finished
    cases result with
    | error failure => exact kept
    | ok draft => exact absurd (ends draft rfl) (unsigned draft)

/-- Up to eight answers nothing has been sent; from there on it is the submission that counts. -/
theorem signed_left (signs : Signs poseidon2Permutation weather config amount draft)
    (stored : Stored) (count : Nat) :
    (leftBehind poseidon2Permutation weather config amount stored count).handed = [] ∧ count ≤ 8 ∨
      ∃ cut, count = cut + 9 ∧ leftBehind poseidon2Permutation weather config amount stored count =
        stopped (serve weather) (cut + 1) (submit config draft) ⟨stored, []⟩ := by
  rw [leftBehind, deposit, leads_stopped (signs_prepare signs ⟨stored, []⟩)]
  split
  · rename_i early
    refine Or.inl ⟨?_, by omega⟩
    rw [through_stopped (prepare_through ⟨stored, []⟩) count]
  · rw [balance_stopped]
    rcases whole : count - 8 with _ | cut
    · exact Or.inl ⟨rfl, by omega⟩
    · exact Or.inr ⟨cut, by omega, rfl⟩

/-- The note of a draft opens the commitment it submits. -/
theorem draft_opens (signs : Signs poseidon2Permutation weather config amount draft) (id : String)
    (timestamp : Nat) :
    Opens poseidon2Permutation (noteOf draft id timestamp) draft.transaction.commitment := by
  obtain ⟨_, computed, _, submitted⟩ := signs_computed signs
  refine ⟨_, _, hex_round_trip _, hex_round_trip _, submitted.trans ?_⟩
  rw [computed]
  rfl

theorem saved_opens (signs : Signs poseidon2Permutation weather config amount draft)
    {notes : List DepositNote} (saves : Saves weather config stored draft notes) :
    ∃ note ∈ notes, Opens poseidon2Permutation note draft.transaction.commitment := by
  obtain ⟨signature, id, notes, sent, confirmed, stamped, readable, writable⟩ := saves
  exact ⟨_, List.mem_append_right _ (List.mem_singleton_self _), draft_opens signs id config.now⟩

/-- Whatever fails and wherever the run is cut off, a deposit that has been handed over can
be recovered exactly if it was stored before or everything up to the storage went well. -/
theorem recoverable_iff (poseidon2Permutation : Vector Field 4 → Vector Field 4)
    (weather : Weather) (config : Config) (amount : Nat) (stored : Stored) (count : Nat) :
    Recoverable poseidon2Permutation
        (leftBehind poseidon2Permutation weather config amount stored count) ↔
      ∀ draft, Signs poseidon2Permutation weather config amount draft → 8 < count →
        (∃ note ∈ stored.kept,
          Opens poseidon2Permutation note draft.transaction.commitment) ∨
        (13 ≤ count ∧ ∃ notes, Saves weather config stored draft notes) := by
  constructor
  · intro recoverable draft signs late
    rcases signed_left signs stored count with ⟨_, early⟩ | ⟨cut, whole, left⟩
    · omega
    obtain ⟨handed, same | ⟨notes, saves, behind, _⟩⟩ := submit_stopped left.symm
    · have own := recoverable draft.transaction (by rw [handed]; exact List.mem_singleton_self _)
      rw [same] at own
      exact Or.inl own
    · exact Or.inr ⟨by omega, notes, saves⟩
  · intro covered
    by_cases signed : ∃ draft, Signs poseidon2Permutation weather config amount draft
    · obtain ⟨draft, signs⟩ := signed
      intro transaction member
      rcases signed_left signs stored count with ⟨none, _⟩ | ⟨cut, whole, left⟩
      · rw [none] at member
        cases member
      obtain ⟨handed, outcome⟩ := submit_stopped left.symm
      rw [handed] at member
      cases List.mem_singleton.mp member
      rcases covered draft signs (by omega) with ⟨note, held, opens⟩ | ⟨late, notes, saves⟩
      -- an older note stays, even where the new one is stored
      · rcases outcome with same | ⟨notes, saves, _, wrote⟩
        · rw [same]
          exact ⟨note, held, opens⟩
        · rw [wrote]
          exact saved_opens signs saves
      · obtain ⟨note, leads⟩ := saves_submit saves
        rw [left, stopped_end _ _ _ _ (by rw [leads.asked]; omega), leads.run]
        exact saved_opens signs saves
    · rw [unsigned_left fun draft signs => signed ⟨draft, signs⟩]
      exact fun transaction member => nomatch member

end Recovery

/-! A deposit of one SOL by the `Prover.toml` note, sent to a network that confirms nothing. -/
section Sample
open Poseidon2

def sampleConfig : Config where
  pool := Bytes32.zero
  poolVault := Bytes32.zero
  minDeposit := some 10_000_000
  minDepositText := "0.01"
  now := 1_700_000_000_000

def sampleAnswers : (call : Remote) → Except String call.Answer
  | .wallet => .ok (some ⟨Bytes32.zero, true⟩)
  | .randomBytes 0 => .ok (bytesOf proverHidden.nullifier)
  | .randomBytes _ => .ok (bytesOf proverHidden.secret)
  | .hashes => .ok ()
  | .commitments _ => .ok []
  | .root _ => .ok (.root (bytesToHex (List.replicate 32 0)))
  | .latestBlockhash => .ok ⟨"", 0⟩
  | .signTransaction _ => .ok ()
  | .confirmTransaction _ _ => .error "Transaction was not confirmed in 30.00 seconds"
  | .randomUUID => .ok ""
  | .balance _ => .ok 0

def unconfirmed : Weather := ⟨sampleAnswers, fun _ => .ok "", none, none⟩

theorem unconfirmed_signs {amount : Nat} (enough : 10_000_000 ≤ amount)
    (small : amount < bn254Modulus) :
    ∃ draft, Signs poseidon2Permutation unconfirmed sampleConfig amount draft ∧
      draft.amount = amount := by
  obtain ⟨data, written⟩ := instruction_fits (bytesOf (Circuit.hash3 poseidon2Permutation
    (fieldOf (bytesToFieldElement (bytesOf proverHidden.nullifier)))
    (fieldOf (bytesToFieldElement (bytesOf proverHidden.secret)))
    (Fin.ofNat bn254Modulus amount))) amount (List.length_replicate (n := 32) (a := 0))
  have none : existingCommitments [] = some [] := by simp [existingCommitments]
  have above : belowMinimum sampleConfig amount = false := decide_eq_false (Nat.not_lt.mpr enough)
  have canonical : (bytesToFieldElement (bytesOf proverHidden.nullifier)).value < bn254Modulus ∧
      (bytesToFieldElement (bytesOf proverHidden.secret)).value < bn254Modulus := by
    decide +kernel
  exact ⟨_, Signs.intro ⟨Bytes32.zero, true⟩ _ _ _ _ _ _ _ data _ rfl rfl above rfl rfl rfl
    (if_pos ⟨canonical.1, canonical.2, small⟩) rfl none rfl (hex_round_trip _) written rfl rfl, rfl⟩

/-- The note of a deposit that lands after the time-out is in no storage. -/
theorem unconfirmed_orphaned :
    ¬ Recoverable poseidon2Permutation
      (leftBehind poseidon2Permutation unconfirmed sampleConfig 1_000_000_000 .absent 100) := by
  intro recoverable
  obtain ⟨draft, signs, _⟩ := @unconfirmed_signs 1_000_000_000 (by decide) (by decide)
  rcases signed_left signs .absent 100 with ⟨_, early⟩ | ⟨cut, whole, left⟩
  · omega
  obtain ⟨handed, same | ⟨notes, saves, _⟩⟩ := submit_stopped left.symm
  · obtain ⟨note, held, _⟩ := recoverable draft.transaction
      (by rw [handed]; exact List.mem_singleton_self _)
    rw [same] at held
    cases held
  · obtain ⟨_, _, _, _, confirmed⟩ := saves
    cases confirmed

end Sample

end PrivateTransfer.DepositClient
