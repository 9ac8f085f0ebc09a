import Mathlib.Data.List.Chain
import PrivateTransfer.PoolProgram

/-!
Runs of the pool program. A run starts from a pool that was just created and
feeds the program any transactions at all; what it leaves behind is determined
by its history, the transactions that committed. The pool account is tied to
the deposits of that history by one invariant, kept by every step.
-/

namespace PrivateTransfer.PoolRuns

open PoolState PoolProgram

section History
variable {deployment : Deployment}

def depositOf (tx : Transaction deployment) : Option DepositArgs :=
  match tx.instruction with
  | .deposit _ args => some args
  | _ => none

def withdrawalOf (tx : Transaction deployment) : Option WithdrawArgs :=
  match tx.instruction with
  | .withdraw _ args => some args
  | _ => none

def deposits (history : List (Transaction deployment)) : List DepositArgs :=
  history.filterMap depositOf

def withdrawals (history : List (Transaction deployment)) : List WithdrawArgs :=
  history.filterMap withdrawalOf

def pushedRoots (history : List (Transaction deployment)) : List Bytes32 :=
  (deposits history).map DepositArgs.newRoot

variable (history : List (Transaction deployment)) {tx : Transaction deployment}

theorem deposits_snoc_other (other : depositOf tx = none) :
    deposits (history ++ [tx]) = deposits history := by
  simp [deposits, other]

theorem deposits_snoc {args : DepositArgs} (called : depositOf tx = some args) :
    deposits (history ++ [tx]) = deposits history ++ [args] := by
  simp [deposits, called]

theorem withdrawals_snoc_other (other : withdrawalOf tx = none) :
    withdrawals (history ++ [tx]) = withdrawals history := by
  simp [withdrawals, other]

theorem withdrawals_snoc {args : WithdrawArgs} (called : withdrawalOf tx = some args) :
    withdrawals (history ++ [tx]) = withdrawals history ++ [args] := by
  simp [withdrawals, called]

end History

/-! Calls of one kind at their positions in a history. -/
section Positions
variable {deployment : Deployment} {Called : Type}

def calledAt (read : Transaction deployment → Option Called)
    (history : List (Transaction deployment)) (i : Nat) : Option Called :=
  history[i]?.bind read

variable {read : Transaction deployment → Option Called} {history : List (Transaction deployment)}

theorem called_at_cut {i : Nat} {args : Called} (called : calledAt read history i = some args) :
    ∃ tx after, history = history.take i ++ tx :: after ∧
      history.take (i + 1) = history.take i ++ [tx] ∧ read tx = some args := by
  obtain ⟨tx, found, same⟩ := Option.bind_eq_some_iff.mp called
  obtain ⟨inside, rfl⟩ := List.getElem?_eq_some_iff.mp found
  refine ⟨history[i], history.drop (i + 1), ?_, List.take_succ_eq_append_getElem inside, same⟩
  rw [← List.drop_eq_getElem_cons inside, List.take_append_drop]

theorem called_at_sent {i : Nat} {args : Called} (called : calledAt read history i = some args) :
    args ∈ history.filterMap read := by
  obtain ⟨tx, after, cut, _, sent⟩ := called_at_cut called
  rw [cut]
  exact List.mem_filterMap.mpr ⟨tx, by simp, sent⟩

theorem sent_called_at {i : Nat} {args : Called} (sent : args ∈ (history.take i).filterMap read) :
    ∃ k < i, calledAt read history k = some args := by
  obtain ⟨tx, member, called⟩ := List.mem_filterMap.mp sent
  obtain ⟨k, inside, rfl⟩ := List.getElem_of_mem member
  rw [List.length_take] at inside
  obtain ⟨earlier, within⟩ := Nat.lt_min.mp inside
  refine ⟨k, earlier, ?_⟩
  rw [List.getElem_take] at called
  rw [calledAt, List.getElem?_eq_getElem within]
  exact called

end Positions

/-! What a step did, by the kind of its instruction. -/
section Kinds
variable {verifier : List UInt8 → Bool} {deployment : Deployment}
variable {before after : Chain} {tx : Transaction deployment}

theorem step_deposits {args : DepositArgs} (step : Step verifier before tx after)
    (sent : depositOf tx = some args) :
    ∃ accounts pool next lamports timestamp,
      Deposits before tx accounts args pool next lamports timestamp ∧
        after = { before with
          pool := some next
          lamports
          log := before.log ++ [depositEvent args pool timestamp] } := by
  cases step with
  | deposit accounts deposited pool next lamports timestamp called checked =>
      rw [depositOf, called] at sent
      obtain rfl := Option.some.inj sent
      exact ⟨accounts, pool, next, lamports, timestamp, checked, rfl⟩
  | pool accounts lamports called fresh signed rent => simp [depositOf, called] at sent
  | withdraw accounts withdrawn pool rented lamports timestamp called checked =>
      simp [depositOf, called] at sent
  | transfer sender receiver amount lamports called signed moved =>
      simp [depositOf, called] at sent

theorem step_withdraws {args : WithdrawArgs} (step : Step verifier before tx after)
    (sent : withdrawalOf tx = some args) :
    ∃ accounts pool rented lamports timestamp,
      Withdraws verifier before tx accounts args pool rented lamports timestamp ∧
        after = { before with
          records := Function.update before.records args.nullifierHash
            (some (recordOf deployment args timestamp))
          lamports
          log := before.log ++ [.withdraw ⟨args.nullifierHash, args.toKey, timestamp⟩] } := by
  cases step with
  | withdraw accounts withdrawn pool rented lamports timestamp called checked =>
      rw [withdrawalOf, called] at sent
      obtain rfl := Option.some.inj sent
      exact ⟨accounts, pool, rented, lamports, timestamp, checked, rfl⟩
  | pool accounts lamports called fresh signed rent => simp [withdrawalOf, called] at sent
  | deposit accounts deposited pool next lamports timestamp called checked =>
      simp [withdrawalOf, called] at sent
  | transfer sender receiver amount lamports called signed moved =>
      simp [withdrawalOf, called] at sent

end Kinds

/-- A pool fresh out of `handler_pool`, on a ledger where the program had not run before. -/
structure Launch (verifier : List UInt8 → Bool) (deployment : Deployment) where
  genesis : Chain
  creation : Transaction deployment
  accounts : InitPool
  started : Chain
  unborn : genesis.pool = none
  unspent : ∀ nullifierHash, genesis.records nullifierHash = none
  silent : genesis.log = []
  called : creation.instruction = .pool accounts
  launched : process verifier deployment genesis creation = .ok started

namespace Launch
variable {verifier : List UInt8 → Bool} {deployment : Deployment}

def run (launch : Launch verifier deployment) (calls : List (Transaction deployment)) : Chain :=
  Runs.run (process verifier deployment) launch.started calls

/-- The transactions of a run that committed. -/
def history (launch : Launch verifier deployment) (calls : List (Transaction deployment)) :
    List (Transaction deployment) :=
  Runs.accepted (process verifier deployment) launch.started calls

theorem run_trace (launch : Launch verifier deployment) (calls : List (Transaction deployment)) :
    Runs.Trace (process verifier deployment) launch.started (launch.history calls)
      (launch.run calls) :=
  Runs.run_trace _ launch.started calls

/-- What a history holds was called. -/
theorem sent_subset (launch : Launch verifier deployment) (calls : List (Transaction deployment))
    {Called : Type} {read : Transaction deployment → Option Called} {args : Called}
    (member : args ∈ (launch.history calls).filterMap read) : args ∈ calls.filterMap read := by
  obtain ⟨tx, accepted, called⟩ := List.mem_filterMap.mp member
  exact List.mem_filterMap.mpr ⟨tx, Runs.accepted_subset _ _ _ _ accepted, called⟩

theorem started_chain (launch : Launch verifier deployment) :
    launch.started.pool = some (handlerPool launch.accounts.authority) ∧
      (∀ nullifierHash, launch.started.records nullifierHash = none) ∧
      launch.started.log = [] ∧
      launch.started.lamports deployment.poolVault =
        launch.genesis.lamports deployment.poolVault := by
  have step := process_step launch.launched
  generalize launch.started = started at step ⊢
  cases step with
  | pool accounts lamports called fresh signed rent =>
      obtain rfl : accounts = launch.accounts :=
        Instruction.pool.inj (called.symm.trans launch.called)
      have balance := transfer_balance rent deployment.poolVault
      have payer : deployment.poolVault ≠ launch.accounts.authority :=
        fun same => launch.creation.vaultUnsigned (same ▸ signed)
      rw [if_neg payer, if_neg deployment.poolApart.symm] at balance
      exact ⟨rfl, launch.unspent, launch.silent, balance⟩
  | deposit accounts args pool next lamports timestamp called checked =>
      exact absurd (called.symm.trans launch.called) nofun
  | withdraw accounts args pool rented lamports timestamp called checked =>
      exact absurd (called.symm.trans launch.called) nofun
  | transfer sender receiver amount lamports called signed moved =>
      exact absurd (called.symm.trans launch.called) nofun

end Launch

/-! The pool account holds nothing but a summary of the deposits so far. -/
section PoolAccount
variable {verifier : List UInt8 → Bool} {deployment : Deployment}

structure Follows (history : List (Transaction deployment)) (pool : PoolAcc) : Prop where
  indexed : pool.nextLeafIndex.toNat = (deposits history).length
  totalled : pool.totalDeposits.toNat = (deposits history).length
  bounded : (deposits history).length ≤ 2 ^ treeDepth
  rooted : KeepsHistory pool (pushedRoots history)
  changing : (emptyRoot :: pushedRoots history).IsChain (· ≠ ·)

def PoolFollows (history : List (Transaction deployment)) (chain : Chain) : Prop :=
  ∃ pool, chain.pool = some pool ∧ Follows history pool

theorem follows_other {history : List (Transaction deployment)} {pool : PoolAcc}
    (follows : Follows history pool) {tx : Transaction deployment}
    (other : depositOf tx = none) : Follows (history ++ [tx]) pool := by
  have same := deposits_snoc_other history other
  have roots : pushedRoots (history ++ [tx]) = pushedRoots history := by
    rw [pushedRoots, pushedRoots, same]
  constructor
  · rw [same]
    exact follows.indexed
  · rw [same]
    exact follows.totalled
  · rw [same]
    exact follows.bounded
  · rw [roots]
    exact follows.rooted
  · rw [roots]
    exact follows.changing

theorem max_leaves_value : maxLeaves.toNat = 2 ^ treeDepth := by decide

theorem follows_deposit {history : List (Transaction deployment)} {before : Chain}
    {tx : Transaction deployment} {accounts : InitDeposit} {args : DepositArgs}
    {pool next : PoolAcc} {lamports : Pubkey → Nat} {timestamp : Int64}
    (follows : Follows history pool) (called : tx.instruction = .deposit accounts args)
    (checked : Deposits before tx accounts args pool next lamports timestamp) :
    Follows (history ++ [tx]) next := by
  have sent : depositOf tx = some args := by rw [depositOf, called]
  have extended := deposits_snoc history sent
  have roots : pushedRoots (history ++ [tx]) = pushedRoots history ++ [args.newRoot] := by
    rw [pushedRoots, extended, List.map_append, List.map_singleton, pushedRoots]
  have room := UInt64.lt_iff_toNat_lt.mp checked.room
  rw [max_leaves_value, follows.indexed] at room
  -- the counters are not part of what the root history constrains
  have counted : KeepsHistory { pool with
      nextLeafIndex := pool.nextLeafIndex + 1
      totalDeposits := pool.totalDeposits + 1 } (pushedRoots history) :=
    ⟨follows.rooted.position, follows.rooted.window⟩
  obtain ⟨pushed, added, kept, _, sameIndex, sameTotal⟩ := add_root_keeps counted args.newRoot
  obtain rfl : pushed = next := Except.ok.inj (added.symm.trans checked.pushed)
  constructor
  · rw [sameIndex, checked_add_value checked.indexFits, follows.indexed, extended,
      List.length_append]
    rfl
  · rw [sameTotal, checked_add_value checked.totalFits, follows.totalled, extended,
      List.length_append]
    rfl
  · rw [extended, List.length_append]
    exact room
  · rw [roots]
    exact kept
  · obtain ⟨root, current, differs⟩ := checked.changed
    rw [current_root follows.rooted, Option.some.injEq] at current
    rw [roots, ← List.cons_append, List.isChain_append]
    refine ⟨follows.changing, List.isChain_singleton _, ?_⟩
    intro last isLast newest isNewest
    rw [List.getLast?_eq_some_getLast (by simp), Option.mem_some_iff, current] at isLast
    rw [List.head?_singleton, Option.mem_some_iff] at isNewest
    rw [← isLast, ← isNewest]
    exact differs.symm

theorem step_follows {history : List (Transaction deployment)} {before after : Chain}
    {tx : Transaction deployment} (follows : PoolFollows history before)
    (step : Step verifier before tx after) : PoolFollows (history ++ [tx]) after := by
  obtain ⟨pool, stored, summary⟩ := follows
  cases step with
  | pool accounts lamports called fresh signed rent =>
      rw [stored] at fresh
      exact absurd fresh nofun
  | deposit accounts args loaded next lamports timestamp called checked =>
      obtain rfl : pool = loaded := Option.some.inj (stored.symm.trans checked.loaded)
      exact ⟨next, rfl, follows_deposit summary called checked⟩
  | withdraw accounts args loaded rented lamports timestamp called checked =>
      exact ⟨pool, stored, follows_other summary (by rw [depositOf, called])⟩
  | transfer sender receiver amount lamports called signed moved =>
      exact ⟨pool, stored, follows_other summary (by rw [depositOf, called])⟩

theorem trace_follows (launch : Launch verifier deployment)
    {history : List (Transaction deployment)} {chain : Chain}
    (trace : Runs.Trace (process verifier deployment) launch.started history chain) :
    PoolFollows history chain := by
  induction trace with
  | none =>
      refine ⟨_, launch.started_chain.1, ⟨rfl, rfl, by simp [deposits], ⟨rfl, ?_⟩, ?_⟩⟩
      · have filled : RingBuffer.Holds (Vector.replicate rootHistorySize emptyRoot) _ :=
          RingBuffer.holds_fill emptyRoot
        simpa [handlerPool, rootHistory, pushedRoots, deposits] using filled
      · exact List.isChain_singleton _
  | snoc _ last ih => exact step_follows ih (process_step last)

theorem run_follows (launch : Launch verifier deployment)
    (calls : List (Transaction deployment)) :
    PoolFollows (launch.history calls) (launch.run calls) :=
  trace_follows launch (launch.run_trace calls)

end PoolAccount

end PrivateTransfer.PoolRuns
