import Mathlib.Logic.Function.Basic
import PrivateTransfer.PoolState
import PrivateTransfer.PublicInputs
import PrivateTransfer.Runs

/-!
The pool program: `instructions/pool.rs`, `instructions/deposit.rs` and
`instructions/withdraw.rs`, with the account validation their `Accounts` structs
declare. A failed instruction is rolled back, so each one is a function from the
chain to an error or the next chain. The verifier program is a predicate on the
bytes it is invoked with.
-/

namespace PrivateTransfer.PoolProgram

open PoolState PublicInputs

/-- The addresses derived from the program's seeds and the rent of its accounts.
Derived addresses differ from one another where the program relies on it. -/
structure Deployment where
  pool : Pubkey
  poolVault : Pubkey
  nullifierRecord : Bytes32 → Pubkey
  poolRent : Nat
  recordRent : Nat
  poolApart : pool ≠ poolVault
  recordApart : ∀ nullifierHash, nullifierRecord nullifierHash ≠ poolVault

/-- The part of the ledger the program reads or writes. Records are listed by the
hash in their seeds, lamports by address. -/
structure Chain where
  pool : Option PoolAcc
  records : Bytes32 → Option NullifierRecord
  lamports : Pubkey → Nat
  log : List Event

structure InitPool where
  pool : Pubkey
  poolVault : Pubkey
  authority : Pubkey
  systemProgram : Pubkey

structure InitDeposit where
  pool : Pubkey
  poolVault : Pubkey
  depositor : Pubkey
  systemProgram : Pubkey

structure InitWithdraw where
  pool : Pubkey
  nullifierRecord : Pubkey
  poolVault : Pubkey
  recipient : Pubkey
  payer : Pubkey
  verifierProgram : Pubkey
  systemProgram : Pubkey

structure DepositArgs where
  commitment : Bytes32
  newRoot : Bytes32
  amount : UInt64

/-- `toKey` is the argument called `to`. -/
structure WithdrawArgs where
  proof : List UInt8
  nullifierHash : Bytes32
  root : Bytes32
  toKey : Pubkey
  amount : UInt64

/-- The program's instructions, and a plain transfer of the system program. -/
inductive Instruction where
  | pool (accounts : InitPool)
  | deposit (accounts : InitDeposit) (args : DepositArgs)
  | withdraw (accounts : InitWithdraw) (args : WithdrawArgs)
  | transfer (sender receiver : Pubkey) (amount : UInt64)

/-- One instruction as the runtime presents it. The vault has no private key, so it
signs nothing; `aborted` covers the limits the runtime enforces by itself. -/
structure Transaction (deployment : Deployment) where
  signers : List Pubkey
  writable : List Pubkey
  clock : Option Int64
  aborted : Bool
  instruction : Instruction
  vaultUnsigned : deployment.poolVault ∉ signers

def require (holds : Bool) (error : ProgramError) : Except ProgramError Unit :=
  if holds then .ok () else .error error

section SystemProgram

def systemTransfer (lamports : Pubkey → Nat) (sender receiver : Pubkey) (amount : Nat) :
    Except ProgramError (Pubkey → Nat) := do
  require (amount ≤ lamports sender) (.account .insufficientFunds)
  let debited := Function.update lamports sender (lamports sender - amount)
  require (debited receiver + amount < 2 ^ 64) (.account .arithmeticOverflow)
  .ok (Function.update debited receiver (debited receiver + amount))

/-- The account side of `init`: the payer tops the address up to its rent. -/
def createAccount (lamports : Pubkey → Nat) (payer address : Pubkey) (rent : Nat)
    (inUse : Bool) : Except ProgramError (Pubkey → Nat) := do
  require (!inUse) (.account .alreadyInUse)
  systemTransfer lamports payer address (rent - lamports address)

end SystemProgram

section Validation
variable {deployment : Deployment} (tx : Transaction deployment)

def signer (key : Pubkey) : Except ProgramError Unit :=
  require (tx.signers.contains key) (.account .notSigner)

def mutable (key : Pubkey) : Except ProgramError Unit :=
  require (tx.writable.contains key) (.account .constraintMut)

def seeds (key derived : Pubkey) : Except ProgramError Unit :=
  require (key == derived) (.account .constraintSeeds)

def programId (key expected : Pubkey) : Except ProgramError Unit :=
  require (key == expected) (.account .invalidProgramId)

/-- `Account<PoolAcc>`: only the derived address ever holds a pool. -/
def loadPool (deployment : Deployment) (chain : Chain) (key : Pubkey) :
    Except ProgramError PoolAcc :=
  match (if key = deployment.pool then chain.pool else none) with
  | some pool => .ok pool
  | none => .error (.account .notInitialized)

/-- `Clock::get()`. -/
def clockGet : Except ProgramError Int64 :=
  match tx.clock with
  | some timestamp => .ok timestamp
  | none => .error .sysvarUnavailable

end Validation

section Handlers
variable {deployment : Deployment} (tx : Transaction deployment)

/-- The loop of `handler_pool` writes every slot. -/
def handlerPool (authority : Pubkey) : PoolAcc where
  authority := authority
  nextLeafIndex := 0
  totalDeposits := 0
  currentRootIndex := 0
  roots := Vector.replicate rootHistorySize emptyRoot

def handlerDeposit (chain : Chain) (pool : PoolAcc) (accounts : InitDeposit) (args : DepositArgs) :
    Except ProgramError Chain := do
  let timestamp ← clockGet tx
  require (pool.nextLeafIndex < maxLeaves) (.ptrans .treeFull)
  require (minDepositAmount ≤ args.amount) (.ptrans .depositTooSmall)
  let currentRoot ← rootAt pool.roots pool.currentRootIndex.toNat
  -- Only the current root is compared: an older one may be pushed again.
  require (args.newRoot != currentRoot) (.ptrans .invalidRoot)
  let lamports ←
    systemTransfer chain.lamports accounts.depositor accounts.poolVault args.amount.toNat
  let leafIndex := pool.nextLeafIndex
  let nextLeafIndex ← checkedAdd pool.nextLeafIndex 1
  let totalDeposits ← checkedAdd pool.totalDeposits 1
  let next ← { pool with nextLeafIndex, totalDeposits }.addRoot args.newRoot
  let event := { commitment := args.commitment, leafIndex, timestamp, newRoot := args.newRoot }
  .ok { chain with pool := some next, lamports, log := chain.log ++ [.deposit event] }

/-- `chain` is the ledger after validation, with the record already paid for. -/
def handlerWithdraw (verifier : List UInt8 → Bool) (chain : Chain) (pool : PoolAcc)
    (accounts : InitWithdraw) (args : WithdrawArgs) : Except ProgramError Chain := do
  let timestamp ← clockGet tx
  require (accounts.recipient == args.toKey) (.ptrans .recipientMismatch)
  require (args.amount.toNat ≤ chain.lamports accounts.poolVault)
    (.ptrans .insufficientVaultBalance)
  require (pool.isKnownRoot args.root) (.ptrans .invalidRoot)
  let publicInputs := encodePublicInputs args.root args.nullifierHash args.toKey args.amount
  require (verifier (args.proof ++ publicInputs)) (.ptrans .invalidProof)
  let record :=
    { pool := accounts.pool, nullifierHash := args.nullifierHash, recipient := args.toKey,
      amount := args.amount, timestamp }
  let lamports ←
    systemTransfer chain.lamports accounts.poolVault accounts.recipient args.amount.toNat
  let event := { nullifierHash := args.nullifierHash, recipient := accounts.recipient, timestamp }
  .ok { chain with
    records := Function.update chain.records args.nullifierHash (some record)
    lamports
    log := chain.log ++ [.withdraw event] }

end Handlers

section Instructions
variable (verifier : List UInt8 → Bool) (deployment : Deployment)

def pool (chain : Chain) (tx : Transaction deployment) (accounts : InitPool) :
    Except ProgramError Chain := do
  signer tx accounts.authority
  programId accounts.systemProgram systemProgramId
  seeds accounts.pool deployment.pool
  let lamports ←
    createAccount chain.lamports accounts.authority accounts.pool deployment.poolRent
      chain.pool.isSome
  mutable tx accounts.pool
  seeds accounts.poolVault deployment.poolVault
  mutable tx accounts.poolVault
  mutable tx accounts.authority
  .ok { chain with pool := some (handlerPool accounts.authority), lamports }

def deposit (chain : Chain) (tx : Transaction deployment) (accounts : InitDeposit)
    (args : DepositArgs) : Except ProgramError Chain := do
  let pool ← loadPool deployment chain accounts.pool
  signer tx accounts.depositor
  programId accounts.systemProgram systemProgramId
  seeds accounts.pool deployment.pool
  mutable tx accounts.pool
  seeds accounts.poolVault deployment.poolVault
  mutable tx accounts.poolVault
  mutable tx accounts.depositor
  handlerDeposit tx chain pool accounts args

def withdraw (chain : Chain) (tx : Transaction deployment) (accounts : InitWithdraw)
    (args : WithdrawArgs) : Except ProgramError Chain := do
  let pool ← loadPool deployment chain accounts.pool
  signer tx accounts.payer
  programId accounts.systemProgram systemProgramId
  seeds accounts.nullifierRecord (deployment.nullifierRecord args.nullifierHash)
  -- `init` runs before the remaining constraints and fails on a record that exists.
  let lamports ←
    createAccount chain.lamports accounts.payer accounts.nullifierRecord deployment.recordRent
      (chain.records args.nullifierHash).isSome
  seeds accounts.pool deployment.pool
  mutable tx accounts.pool
  mutable tx accounts.nullifierRecord
  seeds accounts.poolVault deployment.poolVault
  mutable tx accounts.poolVault
  mutable tx accounts.recipient
  mutable tx accounts.payer
  require (accounts.verifierProgram == verifierProgramId) (.ptrans .invalidVerifier)
  handlerWithdraw tx verifier { chain with lamports } pool accounts args

def transfer (chain : Chain) (tx : Transaction deployment) (sender receiver : Pubkey)
    (amount : UInt64) : Except ProgramError Chain := do
  signer tx sender
  let lamports ← systemTransfer chain.lamports sender receiver amount.toNat
  .ok { chain with lamports }

def process (chain : Chain) (tx : Transaction deployment) : Except ProgramError Chain := do
  require (!tx.aborted) .aborted
  match tx.instruction with
  | .pool accounts => pool deployment chain tx accounts
  | .deposit accounts args => deposit deployment chain tx accounts args
  | .withdraw accounts args => withdraw verifier deployment chain tx accounts args
  | .transfer sender receiver amount => transfer deployment chain tx sender receiver amount

end Instructions

/-! Inversion. A monadic step succeeds exactly when each of its checks does, so a
handler is read off as the list of its guards. -/
section Inversion

theorem bind_ok_iff {Value Result : Type} (first : Except ProgramError Value)
    (next : Value → Except ProgramError Result) (result : Result) :
    (first >>= next) = .ok result ↔ ∃ value, first = .ok value ∧ next value = .ok result := by
  cases first with
  | ok value => simp [bind, Except.bind]
  | error error => simp [bind, Except.bind]

theorem require_ok_iff (holds : Bool) (error : ProgramError) (checked : Unit) :
    require holds error = .ok checked ↔ holds = true := by
  cases holds <;> simp [require]

theorem load_pool_ok_iff (deployment : Deployment) (chain : Chain) (key : Pubkey)
    (pool : PoolAcc) :
    loadPool deployment chain key = .ok pool ↔ key = deployment.pool ∧ chain.pool = some pool := by
  rw [loadPool]
  by_cases derived : key = deployment.pool
  · cases stored : chain.pool <;> simp [derived]
  · simp [derived]

theorem clock_ok_iff {deployment : Deployment} (tx : Transaction deployment) (timestamp : Int64) :
    clockGet tx = .ok timestamp ↔ tx.clock = some timestamp := by
  rw [clockGet]
  cases tx.clock <;> simp

/-- A transfer moves exactly its amount, and nothing when it goes back to its sender. -/
theorem transfer_balance {lamports after : Pubkey → Nat} {sender receiver : Pubkey} {amount : Nat}
    (moved : systemTransfer lamports sender receiver amount = .ok after) (key : Pubkey) :
    after key + (if key = sender then amount else 0) =
      lamports key + (if key = receiver then amount else 0) := by
  simp only [systemTransfer, bind_ok_iff, require_ok_iff, decide_eq_true_eq, Except.ok.injEq]
    at moved
  obtain ⟨_, funded, _, _, rfl⟩ := moved
  by_cases receives : key = receiver
  · subst receives
    by_cases sends : key = sender
    · subst sends
      simp only [Function.update_self, if_true]
      omega
    · simp [sends]
  · rw [Function.update_of_ne receives, if_neg receives]
    by_cases sends : key = sender
    · subst sends
      simp only [Function.update_self, if_true]
      omega
    · rw [Function.update_of_ne sends, if_neg sends]

variable {verifier : List UInt8 → Bool} {deployment : Deployment}

/-- Everything a successful deposit has checked, with what it computed on the way. -/
structure Deposits (before : Chain) (tx : Transaction deployment) (accounts : InitDeposit)
    (args : DepositArgs) (pool next : PoolAcc) (lamports : Pubkey → Nat) (timestamp : Int64) :
    Prop where
  loaded : before.pool = some pool
  signed : accounts.depositor ∈ tx.signers
  vault : accounts.poolVault = deployment.poolVault
  clock : tx.clock = some timestamp
  room : pool.nextLeafIndex < maxLeaves
  enough : minDepositAmount ≤ args.amount
  changed : ∃ root, pool.roots[pool.currentRootIndex.toNat]? = some root ∧ args.newRoot ≠ root
  paid : systemTransfer before.lamports accounts.depositor deployment.poolVault
    args.amount.toNat = .ok lamports
  indexFits : pool.nextLeafIndex.toNat + (1 : UInt64).toNat < 2 ^ 64
  totalFits : pool.totalDeposits.toNat + (1 : UInt64).toNat < 2 ^ 64
  pushed : { pool with
    nextLeafIndex := pool.nextLeafIndex + 1
    totalDeposits := pool.totalDeposits + 1 }.addRoot args.newRoot = .ok next

/-- Everything a successful withdrawal has checked; `rented` is the ledger once the
record is paid for. -/
structure Withdraws (verifier : List UInt8 → Bool) (before : Chain) (tx : Transaction deployment)
    (accounts : InitWithdraw) (args : WithdrawArgs) (pool : PoolAcc)
    (rented lamports : Pubkey → Nat) (timestamp : Int64) : Prop where
  loaded : before.pool = some pool
  signed : accounts.payer ∈ tx.signers
  unspent : before.records args.nullifierHash = none
  rent : systemTransfer before.lamports accounts.payer
    (deployment.nullifierRecord args.nullifierHash)
    (deployment.recordRent - before.lamports (deployment.nullifierRecord args.nullifierHash)) =
      .ok rented
  clock : tx.clock = some timestamp
  verifierProgram : accounts.verifierProgram = verifierProgramId
  recipient : accounts.recipient = args.toKey
  covered : args.amount.toNat ≤ rented deployment.poolVault
  known : pool.isKnownRoot args.root = true
  proved : verifier (args.proof ++
    encodePublicInputs args.root args.nullifierHash args.toKey args.amount) = true
  paid : systemTransfer rented deployment.poolVault args.toKey args.amount.toNat = .ok lamports

def depositEvent (args : DepositArgs) (pool : PoolAcc) (timestamp : Int64) : Event :=
  .deposit ⟨args.commitment, pool.nextLeafIndex, timestamp, args.newRoot⟩

def recordOf (deployment : Deployment) (args : WithdrawArgs) (timestamp : Int64) :
    NullifierRecord :=
  ⟨deployment.pool, args.nullifierHash, args.toKey, args.amount, timestamp⟩

/-- The committed outcomes of one transaction. -/
inductive Step (verifier : List UInt8 → Bool) (before : Chain) (tx : Transaction deployment) :
    Chain → Prop
  | pool (accounts : InitPool) (lamports : Pubkey → Nat)
      (called : tx.instruction = .pool accounts) (fresh : before.pool = none)
      (signed : accounts.authority ∈ tx.signers)
      (rent : systemTransfer before.lamports accounts.authority deployment.pool
        (deployment.poolRent - before.lamports deployment.pool) = .ok lamports) :
      Step verifier before tx
        { before with pool := some (handlerPool accounts.authority), lamports }
  | deposit (accounts : InitDeposit) (args : DepositArgs) (pool next : PoolAcc)
      (lamports : Pubkey → Nat) (timestamp : Int64)
      (called : tx.instruction = .deposit accounts args)
      (checked : Deposits before tx accounts args pool next lamports timestamp) :
      Step verifier before tx
        { before with
          pool := some next, lamports, log := before.log ++ [depositEvent args pool timestamp] }
  | withdraw (accounts : InitWithdraw) (args : WithdrawArgs) (pool : PoolAcc)
      (rented lamports : Pubkey → Nat) (timestamp : Int64)
      (called : tx.instruction = .withdraw accounts args)
      (checked : Withdraws verifier before tx accounts args pool rented lamports timestamp) :
      Step verifier before tx
        { before with
          records := Function.update before.records args.nullifierHash
            (some (recordOf deployment args timestamp))
          lamports
          log := before.log ++ [.withdraw ⟨args.nullifierHash, args.toKey, timestamp⟩] }
  | transfer (sender receiver : Pubkey) (amount : UInt64) (lamports : Pubkey → Nat)
      (called : tx.instruction = .transfer sender receiver amount)
      (signed : sender ∈ tx.signers)
      (moved : systemTransfer before.lamports sender receiver amount.toNat = .ok lamports) :
      Step verifier before tx { before with lamports }

theorem deposit_step {before after : Chain} {tx : Transaction deployment} {accounts : InitDeposit}
    {args : DepositArgs} (called : tx.instruction = .deposit accounts args)
    (done : deposit deployment before tx accounts args = .ok after) :
    Step verifier before tx after := by
  simp only [deposit, handlerDeposit, signer, mutable, seeds, programId, bind_ok_iff,
    load_pool_ok_iff, clock_ok_iff, require_ok_iff, root_at_ok_iff, checked_add_ok_iff,
    beq_iff_eq, bne_iff_ne, decide_eq_true_eq, List.contains_iff_mem, Except.ok.injEq] at done
  obtain ⟨pool, ⟨_, loaded⟩, _, signed, _, _, _, _, _, _, _, vault, _, _, _, _, timestamp, clock,
    _, room, _, enough, root, current, _, changed, lamports, paid, _, ⟨indexFits, rfl⟩,
    _, ⟨totalFits, rfl⟩, next, pushed, rfl⟩ := done
  rw [vault] at paid
  exact Step.deposit accounts args pool next lamports timestamp called
    ⟨loaded, signed, vault, clock, room, enough, ⟨root, current, changed⟩, paid, indexFits,
      totalFits, pushed⟩

theorem withdraw_step {before after : Chain} {tx : Transaction deployment}
    {accounts : InitWithdraw} {args : WithdrawArgs}
    (called : tx.instruction = .withdraw accounts args)
    (done : withdraw verifier deployment before tx accounts args = .ok after) :
    Step verifier before tx after := by
  simp only [withdraw, handlerWithdraw, createAccount, signer, mutable, seeds, programId,
    bind_ok_iff, load_pool_ok_iff, clock_ok_iff, require_ok_iff, beq_iff_eq, decide_eq_true_eq,
    List.contains_iff_mem, Except.ok.injEq, Bool.not_eq_true'] at done
  obtain ⟨pool, ⟨_, loaded⟩, _, signed, _, _, _, recordKey, rented, ⟨_, unspent, rent⟩, _, poolKey,
    _, _, _, _, _, vault, _, _, _, _, _, _, _, verifierProgram, timestamp, clock, _, recipient,
    _, covered, _, known, _, proved, lamports, paid, rfl⟩ := done
  rw [recordKey] at rent
  rw [vault] at covered
  rw [vault, recipient] at paid
  have outcome := Step.withdraw accounts args pool rented lamports timestamp called
    ⟨loaded, signed, Option.isSome_eq_false_iff.mp unspent |> Option.isNone_iff_eq_none.mp, rent,
      clock, verifierProgram, recipient, covered, known, proved, paid⟩
  simpa only [recordOf, poolKey, recipient] using outcome

/-- What a transaction that commits has done. -/
theorem process_step {before after : Chain} {tx : Transaction deployment}
    (done : process verifier deployment before tx = .ok after) : Step verifier before tx after := by
  rw [process, bind_ok_iff] at done
  obtain ⟨_, _, done⟩ := done
  cases called : tx.instruction with
  | pool accounts =>
      simp only [called, pool, createAccount, signer, mutable, seeds, programId, bind_ok_iff,
        require_ok_iff, beq_iff_eq, List.contains_iff_mem, Except.ok.injEq, Bool.not_eq_true']
        at done
      obtain ⟨_, signed, _, _, _, key, lamports, ⟨_, fresh, rent⟩, _, _, _, _, _, _, _, _, rfl⟩ :=
        done
      rw [key] at rent
      exact Step.pool accounts lamports called
        (Option.isSome_eq_false_iff.mp fresh |> Option.isNone_iff_eq_none.mp) signed rent
  | deposit accounts args =>
      rw [called] at done
      exact deposit_step called done
  | withdraw accounts args =>
      rw [called] at done
      exact withdraw_step called done
  | transfer sender receiver amount =>
      simp only [called, transfer, signer, bind_ok_iff, require_ok_iff, List.contains_iff_mem,
        Except.ok.injEq] at done
      obtain ⟨_, signed, lamports, moved, rfl⟩ := done
      exact Step.transfer sender receiver amount lamports called signed moved

end Inversion

end PrivateTransfer.PoolProgram
