import PrivateTransfer.ClientHex
import PrivateTransfer.Codec
import PrivateTransfer.Creation
import PrivateTransfer.Interleaving
import PrivateTransfer.Interruption

/-!
`frontend/src/composables/usePool.ts` on top of `generated/accounts/poolAcc.ts`. The page
asks for the balance of the vault and then for the account, and the ledger goes on in
between; it asks twice when it is mounted, so that two fetches are under way at a time.
-/

namespace PrivateTransfer.PoolPage

open Borsh ClientHex Creation Interleaving PoolProgram PoolRuns PoolState Script

/-! The account as `state.rs` lays it out and as the generated codec reads it. -/
section AccountData

def poolAccDiscriminator : Vector UInt8 8 := #v[111, 170, 169, 197, 143, 175, 64, 250]

/-- `#[account] pub struct PoolAcc`. -/
def poolData (pool : PoolAcc) : List UInt8 :=
  poolAccDiscriminator.toList ++ pool.authority.toList ++
    littleEndian 8 pool.nextLeafIndex.toNat ++ littleEndian 8 pool.totalDeposits.toNat ++
    littleEndian 8 pool.currentRootIndex.toNat ++ pool.roots.toList.flatMap Vector.toList

/-- The fields behind the discriminator, in the order of the struct. -/
def poolAccFields : FixedSizeCodec PoolAcc :=
  FixedSizeCodec.map
    ((bytes 32).pair (u64Codec.pair (u64Codec.pair (u64Codec.pair
      ((bytes 32).repeated rootHistorySize)))))
    { toFun := fun (authority, nextLeafIndex, totalDeposits, currentRootIndex, roots) =>
        { authority, nextLeafIndex, totalDeposits, currentRootIndex, roots }
      invFun := fun pool =>
        (pool.authority, pool.nextLeafIndex, pool.totalDeposits, pool.currentRootIndex, pool.roots)
      left_inv := fun _ => rfl
      right_inv := fun _ => rfl }

def getPoolAccCodec : FixedSizeCodec (Vector UInt8 8 × PoolAcc) := (bytes 8).pair poolAccFields

/-- Whatever is given, the discriminator written is the account's. -/
def getPoolAccEncoder (value : PoolAcc) : List UInt8 :=
  getPoolAccCodec.encode (poolAccDiscriminator, value)

/-- The discriminator is read and not compared. -/
def getPoolAccDecoder : Reader (Vector UInt8 8 × PoolAcc) := getPoolAccCodec.decode

def getPoolAccSize : Nat := 384

theorem pool_data_encoded (pool : PoolAcc) : poolData pool = getPoolAccEncoder pool := by
  simp only [poolData, List.append_assoc]
  rfl

/-- An account of the program is read as it was written, whatever its space leaves over. -/
theorem pool_data_read (pool : PoolAcc) (rest : List UInt8) :
    getPoolAccDecoder (poolData pool ++ rest) = some ((poolAccDiscriminator, pool), rest) := by
  rw [pool_data_encoded]
  exact getPoolAccCodec.reads (poolAccDiscriminator, pool) rest

theorem pool_acc_size : getPoolAccCodec.fixedSize = getPoolAccSize := rfl

/-- Only data that are too short are refused; another account's are taken for a pool's. -/
theorem decoder_refuses_iff (data : List UInt8) :
    getPoolAccDecoder data = none ↔ data.length < getPoolAccSize := by
  rw [← pool_acc_size]
  exact getPoolAccCodec.refused_iff data

end AccountData

/-! Numbers of the page. -/
section Numbers

/-- `Number(value)` of a `bigint` in range: the nearest double, on a tie the one with the
even significand. -/
def toNumber (value : Nat) : Nat :=
  let spacing := 2 ^ (value.log2 - 52)
  let below := value / spacing
  let beyond := value % spacing
  if 2 * beyond < spacing ∨ (2 * beyond = spacing ∧ below % 2 = 0) then below * spacing
  else (below + 1) * spacing

theorem to_number_exact {value : Nat} (safe : value < 2 ^ 53) : toNumber value = value := by
  have short : value.log2 - 52 = 0 := by
    by_cases zero : value = 0
    · rw [zero]
      decide
    · have bits := (Nat.log2_lt zero).mpr safe
      omega
  simp [toNumber, short, Nat.mod_one]

end Numbers

/-! The composable. -/
section Fetching

/-- What is thrown; only an `Error` has a message. -/
inductive Thrown where
  | error (message : String)
  | other

def Thrown.text (otherwise : String) : Thrown → String
  | error message => message
  | other => otherwise

inductive Request where
  | getBalance (address : Pubkey)
  | fetchEncodedAccount (address : Pubkey)

@[reducible] def Request.Answer : Request → Type
  | getBalance _ => Nat
  | fetchEncodedAccount _ => Option (List UInt8)

abbrev Flow := Program Request Request.Answer Thrown

/-- `decodeAccount` leaves a missing account alone, which is then asserted to exist. -/
def decodePoolAcc : Option (List UInt8) → Except Thrown PoolAcc
  | none => .error (.error "SOLANA_ERROR__ACCOUNTS__ACCOUNT_NOT_FOUND")
  | some data =>
      match getPoolAccDecoder data with
      | some ((_, account), _) => .ok account
      | none => .error (.error "SOLANA_ERROR__ACCOUNTS__FAILED_TO_DECODE_ACCOUNT")

def fetchPoolAcc (address : Pubkey) : Flow PoolAcc := do
  let maybeAccount ← perform (Request.fetchEncodedAccount address)
  .done (decodePoolAcc maybeAccount)

/-- The balance in SOL is the one in lamports over 10^9 and is left out. -/
structure PoolInfo where
  address : Pubkey
  vaultAddress : Pubkey
  vaultBalance : Nat
  nextLeafIndex : Nat
  totalDeposits : Nat
  currentRoot : String
  isInitialized : Bool
  deriving DecidableEq

def zeroRoot : String := "0x" ++ String.ofList (List.replicate 64 '0')

/-- A slot that is not there leaves the root of zeros. -/
def slotText : Option Bytes32 → String
  | some root => "0x" ++ bytesToHex root.toList
  | none => zeroRoot

def currentRootText (pool : PoolAcc) : String :=
  let rootIndex := toNumber pool.currentRootIndex.toNat
  slotText pool.roots[rootIndex]?

/-- Any failure to get the account is caught and shown as a pool that is not there. -/
def describePool (address vaultAddress : Pubkey) (vaultBalance : Nat) :
    Except Thrown PoolAcc → PoolInfo
  | .ok account =>
      { address, vaultAddress, vaultBalance
        nextLeafIndex := toNumber account.nextLeafIndex.toNat
        totalDeposits := toNumber account.totalDeposits.toNat
        currentRoot := currentRootText account
        isInitialized := true }
  | .error _ =>
      { address, vaultAddress, vaultBalance
        nextLeafIndex := 0
        totalDeposits := 0
        currentRoot := zeroRoot
        isInitialized := false }

def fetchPoolInfo (poolPda vaultPda : Pubkey) : Flow PoolInfo := do
  let balance ← perform (Request.getBalance vaultPda)
  let vaultBalance := toNumber balance
  let poolAccount ← attempt (fetchPoolAcc poolPda)
  pure (describePool poolPda vaultPda vaultBalance poolAccount)

structure Page where
  loading : Bool
  error : Option String
  poolInfo : Option PoolInfo

def Page.start (page : Page) : Page := { page with loading := true, error := none }

def Page.finish (page : Page) : Except Thrown PoolInfo → Page
  | .ok info => { page with poolInfo := some info, loading := false }
  | .error thrown =>
      { page with error := some (thrown.text "Failed to fetch pool info"), loading := false }

end Fetching

/-! The page and the ledger, with any number of fetches under way and the steps of all of
them and of everybody's transactions in any order. -/
section Systems
variable {deployment : Deployment}

/-- What is left of the script of a fetch, and whether the account was refused to it, which
nothing reads. -/
structure Fetch where
  left : Flow PoolInfo
  unread : Bool

/-- What commits is kept in order. The fetch whose info the page shows was `blind` if the
account was refused to it, which nothing reads either. -/
structure System (deployment : Deployment) where
  chain : Chain
  history : List (Transaction deployment)
  fetches : Nat → Option Fetch
  page : Page
  blind : Bool

inductive Action (deployment : Deployment) where
  | transact (tx : Transaction deployment)
  | start (fetch : Nat)
  | answer (fetch : Nat)
  | refuse (fetch : Nat) (request : Request) (thrown : Thrown)
  | finish (fetch : Nat)

def Request.ofAccount : Request → Bool
  | getBalance _ => false
  | fetchEncodedAccount _ => true

/-- What the node says. The page asks for no account but the pool's. -/
def answerOf (deployment : Deployment) (chain : Chain) : (request : Request) → request.Answer
  | .getBalance address => chain.lamports address
  | .fetchEncodedAccount address =>
      if address = deployment.pool then chain.pool.map poolData else none

def System.setFetch (system : System deployment) (fetch : Nat) (held : Option Fetch) :
    System deployment :=
  { system with fetches := Function.update system.fetches fetch held }

/-- The last that ends well is shown. -/
def System.finish (system : System deployment) (fetch : Nat) (result : Except Thrown PoolInfo)
    (unread : Bool) : System deployment :=
  { system.setFetch fetch none with
    page := system.page.finish result
    blind := match result with
      | .ok _ => unread
      | .error _ => system.blind }

inductive Step (verifier : List UInt8 → Bool) (system : System deployment) :
    Action deployment → System deployment → Prop
  | transact (tx : Transaction deployment) (next : Chain)
      (committed : process verifier deployment system.chain tx = .ok next) :
      Step verifier system (.transact tx)
        { system with chain := next, history := system.history ++ [tx] }
  | start (fetch : Nat) (free : system.fetches fetch = none) :
      Step verifier system (.start fetch)
        { system.setFetch fetch
            (some ⟨fetchPoolInfo deployment.pool deployment.poolVault, false⟩) with
          page := system.page.start }
  | answer (fetch : Nat) (request : Request)
      (next : Except Thrown request.Answer → Flow PoolInfo) (unread : Bool)
      (waits : system.fetches fetch = some ⟨.ask request next, unread⟩) :
      Step verifier system (.answer fetch)
        (system.setFetch fetch
          (some ⟨next (.ok (answerOf deployment system.chain request)), unread⟩))
  | refuse (fetch : Nat) (thrown : Thrown) (request : Request)
      (next : Except Thrown request.Answer → Flow PoolInfo) (unread : Bool)
      (waits : system.fetches fetch = some ⟨.ask request next, unread⟩) :
      Step verifier system (.refuse fetch request thrown)
        (system.setFetch fetch (some ⟨next (.error thrown), request.ofAccount⟩))
  | finish (fetch : Nat) (result : Except Thrown PoolInfo) (unread : Bool)
      (ended : system.fetches fetch = some ⟨.done result, unread⟩) :
      Step verifier system (.finish fetch) (system.finish fetch result unread)

def opened (genesis : Chain) : System deployment where
  chain := genesis
  history := []
  fetches := fun _ => none
  page := ⟨false, none, none⟩
  blind := false

def Quiet (system : System deployment) : Prop := ∀ fetch, system.fetches fetch = none

/-- Which of the two requests may be refused. -/
def Permits (balance account : Prop) : Action deployment → Prop
  | .refuse _ (.getBalance _) _ => balance
  | .refuse _ (.fetchEncodedAccount _) _ => account
  | _ => True

variable (verifier : List UInt8 → Bool) (genesis : Chain)

/-- The ledger after some of what has committed. -/
def ledger (history : List (Transaction deployment)) : Chain :=
  Runs.run (process verifier deployment) genesis history

/-- The account part, as of a ledger with a pool. -/
structure ShowsPool (info : PoolInfo) (history : List (Transaction deployment)) : Prop where
  initialized : info.isInitialized = true
  created : (creations history).length = 1
  nextLeafIndex : info.nextLeafIndex = (deposits history).length
  totalDeposits : info.totalDeposits = (deposits history).length
  currentRoot : info.currentRoot =
    "0x" ++ bytesToHex ((emptyRoot :: pushedRoots history).getLast (by simp)).toList

structure ShowsNone (info : PoolInfo) : Prop where
  initialized : info.isInitialized = false
  nextLeafIndex : info.nextLeafIndex = 0
  totalDeposits : info.totalDeposits = 0
  currentRoot : info.currentRoot = zeroRoot

/-- The balance is that of an earlier point of the history and the rest that of a later
one; no pool is shown where there was none, or where the account was refused. -/
structure Describes (refused : Prop) (info : PoolInfo)
    (early late : List (Transaction deployment)) : Prop where
  address : info.address = deployment.pool
  vaultAddress : info.vaultAddress = deployment.poolVault
  vaultBalance : info.vaultBalance =
    toNumber ((ledger verifier genesis early).lamports deployment.poolVault)
  account : ShowsPool info late ∨ ShowsNone info ∧ (creations late = [] ∨ refused)

/-- Somewhere between two points of the history. -/
def Between (refused : Prop) (since until' : List (Transaction deployment)) (info : PoolInfo) :
    Prop :=
  ∃ early late, since <+: early ∧ early <+: late ∧ late <+: until' ∧
    Describes verifier genesis refused info early late

end Systems

/-! What the account reads as at some point of the history. -/
section Answers
variable {verifier : List UInt8 → Bool} {deployment : Deployment}

def accountAnswered (poolPda vaultPda : Pubkey) (vaultBalance : Nat)
    (answer : Except Thrown (Option (List UInt8))) : Flow PoolInfo :=
  .done (.ok (describePool poolPda vaultPda vaultBalance (answer >>= decodePoolAcc)))

def balanceAnswered (poolPda vaultPda : Pubkey) : Except Thrown Nat → Flow PoolInfo
  | .ok balance =>
      .ask (Request.fetchEncodedAccount poolPda)
        (accountAnswered poolPda vaultPda (toNumber balance))
  | .error thrown => .done (.error thrown)

theorem fetch_pool_info_asks (poolPda vaultPda : Pubkey) :
    fetchPoolInfo poolPda vaultPda =
      .ask (Request.getBalance vaultPda) (balanceAnswered poolPda vaultPda) := by
  change Program.ask _ _ = _
  congr 1
  funext answer
  cases answer with
  | error thrown => rfl
  | ok balance =>
      change Program.ask _ _ = Program.ask _ _
      congr 1
      funext reply
      cases reply <;> rfl

theorem count_shown {history : List (Transaction deployment)} {count : Nat}
    (counted : count = (deposits history).length)
    (bounded : (deposits history).length ≤ 2 ^ treeDepth) :
    toNumber count = (deposits history).length := by
  rw [to_number_exact, counted]
  exact Nat.lt_of_le_of_lt (counted ▸ bounded) (by decide)

theorem root_shown {pool : PoolAcc} {pushed : List Bytes32} (kept : KeepsHistory pool pushed) :
    currentRootText pool =
      "0x" ++ bytesToHex ((emptyRoot :: pushed).getLast (by simp)).toList := by
  have small : pool.currentRootIndex.toNat < 2 ^ 53 :=
    Nat.lt_trans (position_bound kept) (by decide)
  rw [currentRootText, to_number_exact small, current_root kept, slotText]

/-- An account that could be had shows the history it was had at. -/
theorem account_shown {genesis chain : Chain} (unborn : genesis.pool = none)
    {history : List (Transaction deployment)}
    (trace : Runs.Trace (process verifier deployment) genesis history chain)
    (vaultBalance : Nat) :
    (ShowsPool (describePool deployment.pool deployment.poolVault vaultBalance
        (decodePoolAcc (answerOf deployment chain (.fetchEncodedAccount deployment.pool))))
        history) ∨
      ShowsNone (describePool deployment.pool deployment.poolVault vaultBalance
        (decodePoolAcc (answerOf deployment chain (.fetchEncodedAccount deployment.pool)))) ∧
        creations history = [] := by
  have summary := trace_summarises unborn trace
  rw [answerOf, if_pos rfl]
  cases stored : chain.pool with
  | none =>
      rw [stored] at summary
      exact Or.inr ⟨⟨rfl, rfl, rfl, rfl⟩, summary.1⟩
  | some pool =>
      rw [stored] at summary
      obtain ⟨follows, creator, created, _⟩ := summary
      have read : getPoolAccDecoder (poolData pool) = some ((poolAccDiscriminator, pool), []) := by
        have whole := pool_data_read pool []
        rwa [List.append_nil] at whole
      left
      rw [Option.map_some, decodePoolAcc, read]
      constructor
      · rfl
      · rw [created]
        rfl
      · exact count_shown follows.indexed follows.bounded
      · exact count_shown follows.totalled follows.bounded
      · exact root_shown follows.rooted

end Answers

/-! What every step keeps. -/
section Invariant
variable {verifier : List UInt8 → Bool} {deployment : Deployment} {genesis : Chain}

/-- How far a fetch is that was started at some point of the history, where the one request or
the other may have been refused. -/
inductive Stage (verifier : List UInt8 → Bool) (genesis : Chain) (balance account : Prop)
    (since now : List (Transaction deployment)) : Fetch → Prop
  | asked : Stage verifier genesis balance account since now
      ⟨.ask (.getBalance deployment.poolVault)
        (balanceAnswered deployment.pool deployment.poolVault), false⟩
  | balanced (early : List (Transaction deployment)) (later : since <+: early)
      (past : early <+: now) :
      Stage verifier genesis balance account since now
        ⟨.ask (.fetchEncodedAccount deployment.pool)
          (accountAnswered deployment.pool deployment.poolVault
            (toNumber ((ledger verifier genesis early).lamports deployment.poolVault))), false⟩
  | described (info : PoolInfo) (unread : Bool)
      (between : Between verifier genesis (unread = true ∧ account) since now info) :
      Stage verifier genesis balance account since now ⟨.done (.ok info), unread⟩
  | failed (thrown : Thrown) (cause : balance) :
      Stage verifier genesis balance account since now ⟨.done (.error thrown), false⟩

theorem between_grows {refused : Prop} {since now later : List (Transaction deployment)}
    {info : PoolInfo} (grows : now <+: later)
    (between : Between verifier genesis refused since now info) :
    Between verifier genesis refused since later info := by
  obtain ⟨early, late, first, second, third, described⟩ := between
  exact ⟨early, late, first, second, third.trans grows, described⟩

theorem between_weaken {refused cause : Prop} {since now : List (Transaction deployment)}
    {info : PoolInfo} (weaker : refused → cause)
    (between : Between verifier genesis refused since now info) :
    Between verifier genesis cause since now info := by
  obtain ⟨early, late, first, second, third, described⟩ := between
  refine ⟨early, late, first, second, third, described.address, described.vaultAddress,
    described.vaultBalance, ?_⟩
  exact described.account.imp_right fun shown => ⟨shown.1, shown.2.imp_right weaker⟩

theorem stage_grows {balance account : Prop} {since now later : List (Transaction deployment)}
    {fetch : Fetch} (grows : now <+: later)
    (stage : Stage verifier genesis balance account since now fetch) :
    Stage verifier genesis balance account since later fetch := by
  cases stage with
  | asked => exact .asked
  | balanced early after past => exact .balanced early after (past.trans grows)
  | described info unread between => exact .described info unread (between_grows grows between)
  | failed thrown cause => exact .failed thrown cause

structure Sound (verifier : List UInt8 → Bool) (genesis : Chain) (balance account : Prop)
    (since : List (Transaction deployment)) (system : System deployment) : Prop where
  trace : Runs.Trace (process verifier deployment) genesis system.history system.chain
  later : since <+: system.history
  stages : ∀ number fetch, system.fetches number = some fetch →
    Stage verifier genesis balance account since system.history fetch

variable {balance account : Prop} {since : List (Transaction deployment)}

theorem stages_set {system : System deployment}
    (sound : Sound verifier genesis balance account since system) (number : Nat)
    (held : Option Fetch) (stage : ∀ fetch, held = some fetch →
      Stage verifier genesis balance account since system.history fetch) :
    Sound verifier genesis balance account since (system.setFetch number held) := by
  refine ⟨sound.trace, sound.later, ?_⟩
  exact (Function.forall_update_iff _ fun _ held => ∀ fetch, held = some fetch →
    Stage verifier genesis balance account since system.history fetch).mpr
      ⟨stage, fun other _ => sound.stages other⟩

theorem describes_of {refused : Prop} {early late : List (Transaction deployment)}
    {account : Except Thrown PoolAcc}
    (shown : ShowsPool (describePool deployment.pool deployment.poolVault
        (toNumber ((ledger verifier genesis early).lamports deployment.poolVault)) account) late ∨
      ShowsNone (describePool deployment.pool deployment.poolVault
        (toNumber ((ledger verifier genesis early).lamports deployment.poolVault)) account) ∧
        (creations late = [] ∨ refused)) :
    Describes verifier genesis refused (describePool deployment.pool deployment.poolVault
      (toNumber ((ledger verifier genesis early).lamports deployment.poolVault)) account)
      early late := by
  cases account with
  | ok account => exact ⟨rfl, rfl, rfl, shown⟩
  | error thrown => exact ⟨rfl, rfl, rfl, shown⟩

/-- What an answer makes of a fetch. -/
theorem answer_stage (unborn : genesis.pool = none) {system : System deployment}
    (sound : Sound verifier genesis balance account since system) {request : Request}
    {next : Except Thrown request.Answer → Flow PoolInfo} {unread : Bool}
    (stage : Stage verifier genesis balance account since system.history
      ⟨.ask request next, unread⟩) :
    Stage verifier genesis balance account since system.history
      ⟨next (.ok (answerOf deployment system.chain request)), unread⟩ := by
  cases stage with
  | asked =>
      have here : (ledger verifier genesis system.history).lamports deployment.poolVault =
          system.chain.lamports deployment.poolVault :=
        congrArg (·.lamports deployment.poolVault) (Runs.trace_run _ sound.trace)
      change Stage verifier genesis balance account since system.history ⟨.ask _ _, _⟩
      rw [answerOf, ← here]
      exact .balanced system.history sound.later (List.prefix_refl _)
  | balanced early later past =>
      apply Stage.described
      have shown := account_shown unborn sound.trace
        (toNumber ((ledger verifier genesis early).lamports deployment.poolVault))
      refine ⟨early, system.history, later, past, List.prefix_refl _, ?_⟩
      change Describes verifier genesis _ (describePool _ _ _ (decodePoolAcc _)) _ _
      exact describes_of (shown.imp_right fun none => ⟨none.1, Or.inl none.2⟩)

/-- A refusal ends it; of the account nothing is known then. -/
theorem refuse_stage {now : List (Transaction deployment)} {request : Request}
    {next : Except Thrown request.Answer → Flow PoolInfo} {unread : Bool} (number : Nat)
    (thrown : Thrown)
    (permitted : Permits balance account
      (Action.refuse number request thrown : Action deployment))
    (stage : Stage verifier genesis balance account since now ⟨.ask request next, unread⟩) :
    Stage verifier genesis balance account since now
      ⟨next (.error thrown), request.ofAccount⟩ := by
  cases stage with
  | asked => exact .failed thrown permitted
  | balanced early later past =>
      apply Stage.described
      refine ⟨early, now, later, past, List.prefix_refl _, describes_of (Or.inr ?_)⟩
      exact ⟨⟨rfl, rfl, rfl, rfl⟩, Or.inr ⟨rfl, permitted⟩⟩

theorem step_sound (unborn : genesis.pool = none) {before after : System deployment}
    {action : Action deployment} (sound : Sound verifier genesis balance account since before)
    (permitted : Permits balance account action) (step : Step verifier before action after) :
    Sound verifier genesis balance account since after := by
  cases step with
  | transact tx next committed =>
      have grows : before.history <+: before.history ++ [tx] := List.prefix_append _ _
      refine ⟨sound.trace.snoc committed, sound.later.trans grows, ?_⟩
      exact fun number fetch held => stage_grows grows (sound.stages number fetch held)
  | start number free =>
      have stage : ∀ fetch, some ⟨fetchPoolInfo deployment.pool deployment.poolVault, false⟩ =
          some fetch → Stage verifier genesis balance account since before.history fetch := by
        rintro fetch ⟨⟩
        rw [fetch_pool_info_asks]
        exact .asked
      have started := stages_set sound number _ stage
      exact ⟨started.trace, started.later, started.stages⟩
  | answer number request next unread waits =>
      apply stages_set sound
      rintro fetch ⟨⟩
      exact answer_stage unborn sound (sound.stages number _ waits)
  | refuse number thrown request next unread waits =>
      apply stages_set sound
      rintro fetch ⟨⟩
      exact refuse_stage number thrown permitted (sound.stages number _ waits)
  | finish number result unread ended =>
      have finished := stages_set sound number none (by rintro _ ⟨⟩)
      exact ⟨finished.trace, finished.later, finished.stages⟩

theorem all_permitted (action : Action deployment) : Permits True True action := by
  cases action with
  | refuse number request thrown => cases request <;> trivial
  | _ => trivial

theorem reachable_sound (unborn : genesis.pool = none) {system : System deployment}
    (reached : Reachable (Step verifier) (fun _ _ => True) (opened genesis) system) :
    Sound verifier genesis True True [] system := by
  refine reachable_invariant ?_ ?_ reached
  · exact ⟨.none, List.nil_prefix, fun _ _ held => absurd held nofun⟩
  · exact fun _ action _ sound _ step => step_sound unborn sound (all_permitted action) step

theorem finished_between {system : System deployment}
    (sound : Sound verifier genesis balance account since system) {number : Nat}
    {info : PoolInfo} {unread : Bool}
    (ended : system.fetches number = some ⟨.done (.ok info), unread⟩) :
    Between verifier genesis (unread = true ∧ account) since system.history info := by
  cases sound.stages number _ ended with
  | described _ _ between => exact between

/-- A page shows nothing that was not there at some time. -/
theorem reachable_shown (unborn : genesis.pool = none) {system : System deployment}
    (reached : Reachable (Step verifier) (fun _ _ => True) (opened genesis) system)
    {info : PoolInfo} (shown : system.page.poolInfo = some info) :
    Between verifier genesis (system.blind = true) [] system.history info := by
  induction reached with
  | start => exact absurd shown nofun
  | next earlier permitted taken ih =>
      cases taken with
      | transact tx next committed =>
          exact between_grows (List.prefix_append _ _) (ih shown)
      | start number free => exact ih shown
      | answer number request next unread waits => exact ih shown
      | refuse number thrown request next unread waits => exact ih shown
      | finish number result unread ended =>
          cases result with
          | error thrown => exact ih shown
          | ok found =>
              obtain rfl : found = info := Option.some.inj shown
              exact between_weaken And.left
                (finished_between (reachable_sound unborn earlier) ended)

/-- Since a fetch was started on a page at rest, one is under way, or an error or the news of
one are shown; and an error needs a refusal. -/
structure Fresh (verifier : List UInt8 → Bool) (genesis : Chain) (balance account : Prop)
    (since : List (Transaction deployment)) (system : System deployment) : Prop where
  sound : Sound verifier genesis balance account since system
  shown : (∃ number, system.fetches number ≠ none) ∨ system.page.error ≠ none ∨
    ∃ info, system.page.poolInfo = some info ∧
      Between verifier genesis (system.blind = true ∧ account) since system.history info
  error : system.page.error = none ∨ balance
  loading : system.page.loading = true → ∃ number, system.fetches number ≠ none

theorem fetch_set (system : System deployment) (number : Nat) (fetch : Fetch) :
    ∃ other, (system.setFetch number (some fetch)).fetches other ≠ none :=
  ⟨number, by simp [System.setFetch]⟩

theorem started_fresh {system started : System deployment} {number : Nat}
    (trace : Runs.Trace (process verifier deployment) genesis system.history system.chain)
    (quiet : Quiet system) (step : Step verifier system (.start number) started) :
    Fresh verifier genesis balance account system.history started := by
  cases step with
  | start number free =>
      have resting : Sound verifier genesis balance account system.history system :=
        ⟨trace, List.prefix_refl _, fun other fetch held => absurd (quiet other ▸ held) nofun⟩
      have under := fetch_set system number
        ⟨fetchPoolInfo deployment.pool deployment.poolVault, false⟩
      have stage : ∀ fetch, some ⟨fetchPoolInfo deployment.pool deployment.poolVault, false⟩ =
          some fetch →
            Stage verifier genesis balance account system.history system.history fetch := by
        rintro fetch ⟨⟩
        rw [fetch_pool_info_asks]
        exact .asked
      have set := stages_set resting number _ stage
      exact ⟨⟨set.trace, set.later, set.stages⟩, Or.inl under, Or.inl rfl, fun _ => under⟩

theorem step_fresh (unborn : genesis.pool = none) {before after : System deployment}
    {action : Action deployment} (fresh : Fresh verifier genesis balance account since before)
    (permitted : Permits balance account action) (step : Step verifier before action after) :
    Fresh verifier genesis balance account since after := by
  have sound := step_sound unborn fresh.sound permitted step
  cases step with
  | transact tx next committed =>
      refine ⟨sound, ?_, fresh.error, fresh.loading⟩
      exact fresh.shown.imp_right (Or.imp_right fun ⟨info, shown, between⟩ =>
        ⟨info, shown, between_grows (List.prefix_append _ _) between⟩)
  | start number free =>
      have under := fetch_set before number
        ⟨fetchPoolInfo deployment.pool deployment.poolVault, false⟩
      exact ⟨sound, Or.inl under, Or.inl rfl, fun _ => under⟩
  | answer number request next unread waits =>
      have under := fetch_set before number
        ⟨next (.ok (answerOf deployment before.chain request)), unread⟩
      exact ⟨sound, Or.inl under, fresh.error, fun _ => under⟩
  | refuse number thrown request next unread waits =>
      have under := fetch_set before number ⟨next (.error thrown), request.ofAccount⟩
      exact ⟨sound, Or.inl under, fresh.error, fun _ => under⟩
  | finish number result unread ended =>
      cases result with
      | error thrown =>
          -- only a refused balance is thrown; a refused account is taken for a missing one
          cases fresh.sound.stages number _ ended with
          | failed _ cause =>
              exact ⟨sound, Or.inr (Or.inl nofun), Or.inr cause, fun loads => absurd loads nofun⟩
      | ok info =>
          have between := finished_between fresh.sound ended
          exact ⟨sound, Or.inr (Or.inr ⟨info, rfl, between⟩), fresh.error,
            fun loads => absurd loads nofun⟩

theorem fetch_held (system : System deployment) (number : Nat) (held : Option Fetch) :
    (system.setFetch number held).fetches number = held := by simp [System.setFetch]

theorem fetch_apart (system : System deployment) {number other : Nat} (apart : other ≠ number)
    (held : Option Fetch) :
    (system.setFetch number held).fetches other = system.fetches other := by
  simp [System.setFetch, apart]

/-- Two answers bring a fetch to its end. -/
theorem fetch_settles {system started : System deployment} {number : Nat} (quiet : Quiet system)
    (step : Step verifier system (.start number) started) :
    ∃ settled, Reachable (Step verifier) (fun _ => Permits False False) started settled ∧
      Quiet settled := by
  have held : started.fetches number = some ⟨.ask (.getBalance deployment.poolVault)
      (balanceAnswered deployment.pool deployment.poolVault), false⟩ := by
    cases step with
    | start number free =>
        rw [← fetch_pool_info_asks]
        exact fetch_held system number _
  have others : ∀ other, other ≠ number → started.fetches other = none := by
    cases step with
    | start number free =>
        exact fun other apart => (fetch_apart system apart _).trans (quiet other)
  obtain ⟨vaultBalance, answered, balance, waits⟩ :
      ∃ vaultBalance answered, Step verifier started (.answer number) answered ∧
        answered = started.setFetch number (some ⟨.ask (.fetchEncodedAccount deployment.pool)
          (accountAnswered deployment.pool deployment.poolVault vaultBalance), false⟩) :=
    ⟨_, _, .answer number _ _ _ held, rfl⟩
  obtain ⟨info, read, account, ends⟩ :
      ∃ info read, Step verifier answered (.answer number) read ∧
        read = answered.setFetch number (some ⟨.done (.ok info), false⟩) :=
    ⟨_, _, .answer number _ _ _ (waits ▸ fetch_held started number _), rfl⟩
  have finished : Step verifier read (.finish number) (read.finish number (.ok info) false) :=
    .finish number _ _ (ends ▸ fetch_held answered number _)
  have reached : Reachable (Step verifier) (fun _ => Permits False False) started read := by
    refine Reachable.next (Reachable.next .start ?_ balance) ?_ account
    · trivial
    · trivial
  refine ⟨_, reached.next ?_ finished, ?_⟩
  · trivial
  · intro other
    by_cases here : other = number
    · rw [here]
      exact fetch_held read number none
    · refine (fetch_apart read here none).trans ?_
      rw [ends, fetch_apart answered here, waits, fetch_apart started here, others other here]

/-- Whatever a page shows was on the ledger, the balance before the rest, and a pool that was
there is missing only if its account was refused to the very fetch that is shown. A fetch that
is started on a page at rest can come to its end. Once all that is under way has ended, however
it did, the page is not loading; an error is shown only if the request for a balance was
refused; and without an error the page shows the ledger of no earlier than that start. -/
theorem page_shows_ledger (verifier : List UInt8 → Bool) {deployment : Deployment}
    {genesis : Chain} (unborn : genesis.pool = none) {system : System deployment}
    (reached : Reachable (Step verifier) (fun _ _ => True) (opened genesis) system) :
    (∀ info, system.page.poolInfo = some info →
      Between verifier genesis (system.blind = true) [] system.history info) ∧
    ∀ (number : Nat) (started : System deployment), Quiet system →
      Step verifier system (.start number) started →
      (∃ settled, Reachable (Step verifier) (fun _ => Permits False False) started settled ∧
        Quiet settled) ∧
      ∀ (balance account : Prop) (settled : System deployment),
        Reachable (Step verifier) (fun _ => Permits balance account) started settled →
        Quiet settled →
          settled.page.loading = false ∧ (settled.page.error = none ∨ balance) ∧
            (settled.page.error = none → ∃ info, settled.page.poolInfo = some info ∧
              Between verifier genesis (settled.blind = true ∧ account) system.history
                settled.history info) := by
  refine ⟨fun info shown => reachable_shown unborn reached shown, ?_⟩
  intro number started quiet step
  refine ⟨fetch_settles quiet step, ?_⟩
  intro balance account settled onwards rests
  have fresh : Fresh verifier genesis balance account system.history settled := by
    refine reachable_invariant ?_ ?_ onwards
    · exact started_fresh (reachable_sound unborn reached).trace quiet step
    · exact fun _ _ _ fresh permitted taken => step_fresh unborn fresh permitted taken
  have idle : ¬ ∃ number, settled.fetches number ≠ none := by
    rintro ⟨other, held⟩
    exact held (rests other)
  refine ⟨?_, fresh.error, fun clear => ?_⟩
  · exact Bool.eq_false_iff.mpr fun loads => idle (fresh.loading loads)
  · exact (fresh.shown.resolve_left idle).resolve_left fun error => error clear

end Invariant

/-! A page that is opened once the sample pool has been created. -/
section Sample
open Verifier

theorem sample_page_shown :
    ∃ (settled : System sampleDeployment) (info : PoolInfo),
      settled.page.poolInfo = some info ∧ settled.page.loading = false ∧
        Between (fun _ => true) sampleGenesis False [sampleCreation] settled.history info := by
  have created : Reachable (Step fun _ => true) (fun _ _ => True) (opened sampleGenesis) _ :=
    Reachable.next .start trivial
      (Step.transact sampleCreation _ (sampleLaunch fun _ => true).launched)
  obtain ⟨ends, settles⟩ := (page_shows_ledger (fun _ => true) rfl created).2 0 _ (fun _ => rfl)
    (.start 0 rfl)
  obtain ⟨settled, onwards, rests⟩ := ends
  obtain ⟨loaded, error, shows⟩ := settles False False settled onwards rests
  obtain ⟨info, shown, between⟩ := shows (error.resolve_right id)
  exact ⟨settled, info, shown, loaded, between_weaken And.right between⟩

end Sample

end PrivateTransfer.PoolPage
