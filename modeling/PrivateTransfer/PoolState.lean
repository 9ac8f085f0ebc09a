import PrivateTransfer.Field
import PrivateTransfer.RingBuffer

/-!
`constants.rs`, `error.rs`, `state.rs` and `events.rs` of the pool program.
The workspace builds with overflow checks, so an addition that wraps and an
index that misses its array both end the instruction in `ProgramError.panic`.
-/

namespace PrivateTransfer.PoolState

def treeDepth : Nat := 20

def maxLeaves : UInt64 := 1 <<< UInt64.ofNat treeDepth

def rootHistorySize : Nat := 10

def minDepositAmount : UInt64 := 1_000_000

def emptyRoot : Bytes32 := Bytes32.zero

/-- `EewognjaJhZUQgP59BrCx5SaJcsFQ6sn65FEwZ2FdZhg`. -/
def verifierProgramId : Pubkey :=
  Bytes32.ofNat 0xcae0635b484f5602e0a0a6874908165e32109a53f23cadf0e41cdcb55fff47d7

def systemProgramId : Pubkey := Bytes32.zero

inductive PtransError where
  | treeFull
  | invalidRoot
  | nullifierUsed
  | depositTooSmall
  | recipientMismatch
  | invalidVerifier
  | insufficientVaultBalance
  | invalidProof
  | verificationFailed
  | overflow
  deriving DecidableEq

def PtransError.message : PtransError → String
  | treeFull => "Merkle tree is full"
  | invalidRoot => "Invalid Merkle root"
  | nullifierUsed => "Nullifier already used"
  | depositTooSmall => "Deposit amount too small (minimum 0.001 SOL)"
  | recipientMismatch => "Recipient account does not match recipient parameter"
  | invalidVerifier => "Invalid verifier program"
  | insufficientVaultBalance => "Insufficient vault balance for withdrawal"
  | invalidProof => "Invalid ZK proof"
  | verificationFailed => "Verification failed"
  | overflow => "Arithmetic overflow"

/-- What account validation and the system program answer. -/
inductive AccountError where
  | notInitialized
  | constraintSeeds
  | constraintMut
  | notSigner
  | invalidProgramId
  | alreadyInUse
  | insufficientFunds
  | arithmeticOverflow
  deriving DecidableEq

inductive ProgramError where
  | ptrans (error : PtransError)
  | account (error : AccountError)
  | sysvarUnavailable
  | aborted
  | panic
  deriving DecidableEq

structure PoolAcc where
  authority : Pubkey
  nextLeafIndex : UInt64
  totalDeposits : UInt64
  currentRootIndex : UInt64
  roots : Vector Bytes32 rootHistorySize
  deriving DecidableEq

structure NullifierRecord where
  pool : Pubkey
  nullifierHash : Bytes32
  recipient : Pubkey
  amount : UInt64
  timestamp : Int64
  deriving DecidableEq

structure DepositEvent where
  commitment : Bytes32
  leafIndex : UInt64
  timestamp : Int64
  newRoot : Bytes32
  deriving DecidableEq

structure WithdrawEvent where
  nullifierHash : Bytes32
  recipient : Pubkey
  timestamp : Int64
  deriving DecidableEq

inductive Event where
  | deposit (event : DepositEvent)
  | withdraw (event : WithdrawEvent)
  deriving DecidableEq

/-- `+` on `u64` under overflow checks. -/
def checkedAdd (left right : UInt64) : Except ProgramError UInt64 :=
  if left.toNat + right.toNat < 2 ^ 64 then .ok (left + right) else .error .panic

/-- `roots[index]`. -/
def rootAt (roots : Vector Bytes32 rootHistorySize) (index : Nat) : Except ProgramError Bytes32 :=
  if inside : index < rootHistorySize then .ok roots[index] else .error .panic

namespace PoolAcc

def isKnownRoot (pool : PoolAcc) (root : Bytes32) : Bool := pool.roots.any (· == root)

def addRoot (pool : PoolAcc) (newRoot : Bytes32) : Except ProgramError PoolAcc := do
  let next ← checkedAdd pool.currentRootIndex 1
  let index := next.toNat % rootHistorySize
  let roots := pool.roots.set index newRoot (Nat.mod_lt _ (by decide))
  .ok { pool with currentRootIndex := UInt64.ofNat index, roots := roots }

end PoolAcc

theorem checked_add_ok_iff (left right sum : UInt64) :
    checkedAdd left right = .ok sum ↔
      left.toNat + right.toNat < 2 ^ 64 ∧ sum = left + right := by
  rw [checkedAdd]
  by_cases fits : left.toNat + right.toNat < 2 ^ 64
  · rw [if_pos fits, Except.ok.injEq, eq_comm, and_iff_right fits]
  · rw [if_neg fits, iff_false_right (fun both => fits both.1)]
    exact nofun

theorem checked_add_value {left right : UInt64} (fits : left.toNat + right.toNat < 2 ^ 64) :
    (left + right).toNat = left.toNat + right.toNat := by
  rw [UInt64.toNat_add, Nat.mod_eq_of_lt fits]

theorem root_at_ok_iff (roots : Vector Bytes32 rootHistorySize) (index : Nat) (root : Bytes32) :
    rootAt roots index = .ok root ↔ roots[index]? = some root := by
  rw [rootAt]
  split
  · rename_i inside
    rw [Vector.getElem?_eq_getElem inside, Except.ok.injEq, Option.some.injEq]
  · rename_i outside
    rw [Vector.getElem?_eq_none (Nat.le_of_not_lt outside)]
    simp

theorem known_root_iff (pool : PoolAcc) (root : Bytes32) :
    pool.isKnownRoot root = true ↔ root ∈ pool.roots := by
  simp [PoolAcc.isKnownRoot, Vector.any_eq_true']

/-! The program keeps the write position in the account; the history of a pool
is ten empty roots followed by everything pushed, and the position is the number
of pushes modulo ten. -/
section RootHistory

def rootHistory (pushed : List Bytes32) : List Bytes32 :=
  List.replicate rootHistorySize emptyRoot ++ pushed

structure KeepsHistory (pool : PoolAcc) (pushed : List Bytes32) : Prop where
  position : pool.currentRootIndex.toNat = pushed.length % rootHistorySize
  window : RingBuffer.Holds pool.roots (rootHistory pushed)

theorem history_length (pushed : List Bytes32) :
    (rootHistory pushed).length = rootHistorySize + pushed.length := by
  simp [rootHistory]

theorem history_push (pushed : List Bytes32) (newRoot : Bytes32) :
    rootHistory (pushed ++ [newRoot]) = rootHistory pushed ++ [newRoot] := by
  simp [rootHistory]

theorem position_bound {pool : PoolAcc} {pushed : List Bytes32}
    (kept : KeepsHistory pool pushed) : pool.currentRootIndex.toNat < rootHistorySize := by
  rw [kept.position]
  exact Nat.mod_lt _ (by decide)

/-- The slot the account calls current holds the newest root. -/
theorem current_root {pool : PoolAcc} {pushed : List Bytes32} (kept : KeepsHistory pool pushed) :
    pool.roots[pool.currentRootIndex.toNat]? = some ((emptyRoot :: pushed).getLast (by simp)) := by
  have nonempty : rootHistory pushed ≠ [] := by simp [rootHistory, rootHistorySize]
  have newest := RingBuffer.holds_newest (by decide) kept.window nonempty
  have same : (rootHistory pushed).length % rootHistorySize = pool.currentRootIndex.toNat := by
    rw [kept.position, history_length, Nat.add_mod_left]
  have last : (rootHistory pushed).getLast nonempty = (emptyRoot :: pushed).getLast (by simp) := by
    rcases List.eq_nil_or_concat pushed with rfl | ⟨front, root, rfl⟩
    · simp [rootHistory]
    · simp [rootHistory]
  rwa [same, last] at newest

theorem add_root_value {pool : PoolAcc}
    (fits : pool.currentRootIndex.toNat + (1 : UInt64).toNat < 2 ^ 64) (newRoot : Bytes32) :
    pool.addRoot newRoot = .ok
      { pool with
        currentRootIndex := UInt64.ofNat ((pool.currentRootIndex + 1).toNat % rootHistorySize)
        roots := pool.roots.set ((pool.currentRootIndex + 1).toNat % rootHistorySize) newRoot
          (Nat.mod_lt _ (by decide)) } := by
  have added := (checked_add_ok_iff pool.currentRootIndex 1 _).mpr ⟨fits, rfl⟩
  rw [PoolAcc.addRoot, added]
  rfl

/-- `add_root` never panics on a well-kept history and pushes onto it. -/
theorem add_root_keeps {pool : PoolAcc} {pushed : List Bytes32} (kept : KeepsHistory pool pushed)
    (newRoot : Bytes32) :
    ∃ next, pool.addRoot newRoot = .ok next ∧ KeepsHistory next (pushed ++ [newRoot]) ∧
      next.authority = pool.authority ∧ next.nextLeafIndex = pool.nextLeafIndex ∧
      next.totalDeposits = pool.totalDeposits := by
  have bound := position_bound kept
  rw [rootHistorySize] at bound
  have fits : pool.currentRootIndex.toNat + (1 : UInt64).toNat < 2 ^ 64 := by
    rw [UInt64.toNat_one]
    omega
  have slot : (pool.currentRootIndex + 1).toNat % rootHistorySize =
      (pushed.length + 1) % rootHistorySize := by
    rw [checked_add_value fits, kept.position, UInt64.toNat_one, Nat.mod_add_mod]
  -- The history starts ten long, so its length and the number of pushes agree modulo ten.
  have small : (pushed.length + 1) % rootHistorySize < 2 ^ 64 :=
    Nat.lt_trans (Nat.mod_lt _ (by decide)) (by decide)
  refine ⟨_, add_root_value fits newRoot, ⟨?_, ?_⟩, rfl, rfl, rfl⟩
  · simp only [slot, UInt64.toNat_ofNat', Nat.mod_eq_of_lt small, List.length_append,
      List.length_singleton]
  · have next : (pushed.length + 1) % rootHistorySize =
        ((rootHistory pushed).length + 1) % rootHistorySize := by
      rw [history_length, Nat.add_assoc, Nat.add_mod_left]
    rw [history_push]
    simp only [slot, next]
    exact RingBuffer.holds_push (by decide) kept.window newRoot

end RootHistory

end PrivateTransfer.PoolState
