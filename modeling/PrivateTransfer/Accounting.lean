import Mathlib.Algebra.BigOperators.Group.List.Basic
import Mathlib.Data.List.Nodup
import PrivateTransfer.Verifier

/-!
The books of the pool: leaf indices, nullifier records and the vault's balance,
each against the history of committed transactions. No subtraction is used: what
was paid out is added back on the side of the vault.
-/

namespace PrivateTransfer.Accounting

open PoolState PoolProgram PoolRuns

variable {verifier : List UInt8 → Bool} {deployment : Deployment}

def depositEvents (log : List Event) : List DepositEvent :=
  log.filterMap fun event =>
    match event with
    | .deposit event => some event
    | .withdraw _ => none

def paidIn (history : List (Transaction deployment)) : Nat :=
  ((deposits history).map fun args => args.amount.toNat).sum

/-- Withdrawals to the vault itself pay nothing out. -/
def paidOut (deployment : Deployment) (history : List (Transaction deployment)) : Nat :=
  ((withdrawals history).map fun args =>
    if args.toKey = deployment.poolVault then 0 else args.amount.toNat).sum

/-- What a transaction outside the program adds to the vault. -/
def donation (tx : Transaction deployment) : Nat :=
  match tx.instruction with
  | .transfer _ receiver amount => if receiver = deployment.poolVault then amount.toNat else 0
  | _ => 0

def donated (history : List (Transaction deployment)) : Nat := (history.map donation).sum

/-! The event stream. -/
section Events

structure LogFollows (history : List (Transaction deployment)) (chain : Chain) : Prop where
  indices : (depositEvents chain.log).map (fun event => event.leafIndex.toNat) =
    List.range (deposits history).length
  contents : (depositEvents chain.log).map (fun event => (event.commitment, event.newRoot)) =
    (deposits history).map fun args => (args.commitment, args.newRoot)

theorem events_deposit (log : List Event) (args : DepositArgs) (pool : PoolAcc)
    (timestamp : Int64) :
    depositEvents (log ++ [depositEvent args pool timestamp]) =
      depositEvents log ++ [⟨args.commitment, pool.nextLeafIndex, timestamp, args.newRoot⟩] := by
  simp [depositEvents, depositEvent]

theorem events_withdraw (log : List Event) (event : WithdrawEvent) :
    depositEvents (log ++ [.withdraw event]) = depositEvents log := by
  simp [depositEvents]

theorem step_log {history : List (Transaction deployment)} {before after : Chain}
    {tx : Transaction deployment} (pool : PoolFollows history before)
    (follows : LogFollows history before) (step : Step verifier before tx after) :
    LogFollows (history ++ [tx]) after := by
  obtain ⟨account, stored, summary⟩ := pool
  cases step with
  | pool accounts lamports called fresh signed rent =>
      rw [stored] at fresh
      exact absurd fresh nofun
  | deposit accounts args loaded next lamports timestamp called checked =>
      obtain rfl : account = loaded := Option.some.inj (stored.symm.trans checked.loaded)
      have sent : depositOf tx = some args := by rw [depositOf, called]
      have extended := deposits_snoc history sent
      constructor
      · rw [events_deposit, List.map_append, follows.indices, extended, List.length_append,
          List.length_singleton, List.range_succ, List.map_singleton, summary.indexed]
      · rw [events_deposit, List.map_append, follows.contents, extended, List.map_append]
        rfl
  | withdraw accounts args loaded rented lamports timestamp called checked =>
      have other : depositOf tx = none := by rw [depositOf, called]
      have same := deposits_snoc_other history other
      constructor
      · rw [events_withdraw, same]
        exact follows.indices
      · rw [events_withdraw, same]
        exact follows.contents
  | transfer sender receiver amount lamports called signed moved =>
      have other : depositOf tx = none := by rw [depositOf, called]
      have same := deposits_snoc_other history other
      constructor
      · rw [same]
        exact follows.indices
      · rw [same]
        exact follows.contents

end Events

/-! Nullifier records are only ever added, one by each withdrawal. -/
section Records

structure RecordsFollow (history : List (Transaction deployment)) (chain : Chain) : Prop where
  distinct : ((withdrawals history).map WithdrawArgs.nullifierHash).Nodup
  written : ∀ args ∈ withdrawals history, ∃ timestamp,
    chain.records args.nullifierHash = some (recordOf deployment args timestamp)
  accounted : ∀ nullifierHash record, chain.records nullifierHash = some record →
    ∃ args ∈ withdrawals history, args.nullifierHash = nullifierHash

theorem records_other {history : List (Transaction deployment)} {before after : Chain}
    (follows : RecordsFollow history before) {tx : Transaction deployment}
    (other : withdrawalOf tx = none) (untouched : after.records = before.records) :
    RecordsFollow (history ++ [tx]) after := by
  have same := withdrawals_snoc_other history other
  constructor
  · rw [same]
    exact follows.distinct
  · rw [same, untouched]
    exact follows.written
  · rw [same, untouched]
    exact follows.accounted

theorem records_withdraw {history : List (Transaction deployment)} {before after : Chain}
    (follows : RecordsFollow history before) {tx : Transaction deployment} {args : WithdrawArgs}
    (timestamp : Int64) (called : withdrawalOf tx = some args)
    (unspent : before.records args.nullifierHash = none)
    (added : after.records = Function.update before.records args.nullifierHash
      (some (recordOf deployment args timestamp))) :
    RecordsFollow (history ++ [tx]) after := by
  have extended := withdrawals_snoc history called
  have fresh : ∀ earlier ∈ withdrawals history, earlier.nullifierHash ≠ args.nullifierHash := by
    intro earlier member same
    obtain ⟨_, stored⟩ := follows.written earlier member
    rw [same, unspent] at stored
    exact absurd stored nofun
  constructor
  · rw [extended, List.map_append, List.nodup_append]
    refine ⟨follows.distinct, List.nodup_singleton _, ?_⟩
    intro hash before' hash' new
    obtain ⟨earlier, member, rfl⟩ := List.mem_map.mp before'
    rw [List.map_singleton, List.mem_singleton] at new
    rw [new]
    exact fresh earlier member
  · intro withdrawal member
    rw [extended, List.mem_append, List.mem_singleton] at member
    rw [added]
    rcases member with earlier | rfl
    · rw [Function.update_of_ne (fresh withdrawal earlier)]
      exact follows.written withdrawal earlier
    · exact ⟨timestamp, Function.update_self ..⟩
  · intro nullifierHash record stored
    rw [extended]
    by_cases new : nullifierHash = args.nullifierHash
    · exact ⟨args, by simp, new.symm⟩
    · rw [added, Function.update_of_ne new] at stored
      obtain ⟨earlier, member, same⟩ := follows.accounted nullifierHash record stored
      exact ⟨earlier, List.mem_append_left _ member, same⟩

theorem step_records {history : List (Transaction deployment)} {before after : Chain}
    {tx : Transaction deployment} (follows : RecordsFollow history before)
    (step : Step verifier before tx after) : RecordsFollow (history ++ [tx]) after := by
  cases step with
  | pool accounts lamports called fresh signed rent =>
      exact records_other follows (by rw [withdrawalOf, called]) rfl
  | deposit accounts args loaded next lamports timestamp called checked =>
      exact records_other follows (by rw [withdrawalOf, called]) rfl
  | withdraw accounts args loaded rented lamports timestamp called checked =>
      exact records_withdraw follows timestamp (by rw [withdrawalOf, called]) checked.unspent rfl
  | transfer sender receiver amount lamports called signed moved =>
      exact records_other follows (by rw [withdrawalOf, called]) rfl

/-- A record that exists is never altered. -/
theorem step_keeps_record {before after : Chain} {tx : Transaction deployment}
    (step : Step verifier before tx after) {nullifierHash : Bytes32} {record : NullifierRecord}
    (stored : before.records nullifierHash = some record) :
    after.records nullifierHash = some record := by
  cases step with
  | pool accounts lamports called fresh signed rent => exact stored
  | deposit accounts args loaded next lamports timestamp called checked => exact stored
  | withdraw accounts args loaded rented lamports timestamp called checked =>
      have other : nullifierHash ≠ args.nullifierHash := by
        rintro rfl
        rw [checked.unspent] at stored
        exact absurd stored nofun
      simp only [Function.update_of_ne other, stored]
  | transfer sender receiver amount lamports called signed moved => exact stored

theorem run_keeps_record (start : Chain) (calls : List (Transaction deployment))
    {nullifierHash : Bytes32} {record : NullifierRecord}
    (stored : start.records nullifierHash = some record) :
    (Runs.run (process verifier deployment) start calls).records nullifierHash = some record :=
  Runs.run_invariant _ (fun chain => chain.records nullifierHash = some record) start calls stored
    fun _ _ _ kept done => step_keeps_record (process_step done) kept

end Records

/-! The vault. Every transfer the program makes names the vault on one side only,
unless a withdrawal is sent back to it. -/
section Vault

/-- One step of the balance equation: what leaves is added to the after side. -/
def Balanced (opening : Nat) (history : List (Transaction deployment)) (chain : Chain) : Prop :=
  chain.lamports deployment.poolVault + paidOut deployment history =
    opening + paidIn history + donated history

theorem paid_in_snoc (history : List (Transaction deployment)) (tx : Transaction deployment) :
    paidIn (history ++ [tx]) =
      paidIn history + ((depositOf tx).map fun args => args.amount.toNat).getD 0 := by
  cases called : depositOf tx with
  | none => simp [paidIn, deposits_snoc_other history called]
  | some args => simp [paidIn, deposits_snoc history called]

theorem paid_out_snoc (history : List (Transaction deployment)) (tx : Transaction deployment) :
    paidOut deployment (history ++ [tx]) = paidOut deployment history +
      ((withdrawalOf tx).map fun args =>
        if args.toKey = deployment.poolVault then 0 else args.amount.toNat).getD 0 := by
  cases called : withdrawalOf tx with
  | none => simp [paidOut, withdrawals_snoc_other history called]
  | some args => simp [paidOut, withdrawals_snoc history called]

theorem donated_snoc (history : List (Transaction deployment)) (tx : Transaction deployment) :
    donated (history ++ [tx]) = donated history + donation tx := by
  simp [donated]

theorem unsigned_other {tx : Transaction deployment} {key : Pubkey} (signed : key ∈ tx.signers) :
    deployment.poolVault ≠ key :=
  fun same => tx.vaultUnsigned (same ▸ signed)

theorem step_balanced {opening : Nat} {history : List (Transaction deployment)}
    {before after : Chain} {tx : Transaction deployment}
    (balanced : Balanced opening history before) (step : Step verifier before tx after) :
    Balanced opening (history ++ [tx]) after := by
  rw [Balanced] at balanced ⊢
  rw [paid_in_snoc, paid_out_snoc, donated_snoc]
  cases step with
  | pool accounts lamports called fresh signed rent =>
      have moved := transfer_balance rent deployment.poolVault
      rw [if_neg (unsigned_other signed), if_neg deployment.poolApart.symm] at moved
      simp only [depositOf, withdrawalOf, donation, called, Option.map_none, Option.getD_none]
      omega
  | deposit accounts args loaded next lamports timestamp called checked =>
      have moved := transfer_balance checked.paid deployment.poolVault
      rw [if_neg (unsigned_other checked.signed), if_pos rfl] at moved
      simp only [depositOf, withdrawalOf, donation, called, Option.map_none, Option.getD_none,
        Option.map_some, Option.getD_some]
      omega
  | withdraw accounts args loaded rented lamports timestamp called checked =>
      -- The rent passes the vault by: its payer has signed and the record is not the vault.
      have rent := transfer_balance checked.rent deployment.poolVault
      have moved := transfer_balance checked.paid deployment.poolVault
      rw [if_neg (unsigned_other checked.signed),
        if_neg (deployment.recordApart args.nullifierHash).symm] at rent
      rw [if_pos rfl] at moved
      simp only [depositOf, withdrawalOf, donation, called, Option.map_none, Option.getD_none,
        Option.map_some, Option.getD_some]
      by_cases back : args.toKey = deployment.poolVault
      · -- paid back to the vault, the amount is counted on neither side
        rw [if_pos back.symm] at moved
        rw [if_pos back]
        omega
      · rw [if_neg (Ne.symm back)] at moved
        rw [if_neg back]
        omega
  | transfer sender receiver amount lamports called signed moved =>
      have moved := transfer_balance moved deployment.poolVault
      rw [if_neg (unsigned_other signed)] at moved
      simp only [depositOf, withdrawalOf, donation, called, Option.map_none, Option.getD_none]
      by_cases gift : receiver = deployment.poolVault
      · rw [if_pos gift.symm] at moved
        rw [if_pos gift]
        omega
      · rw [if_neg (Ne.symm gift)] at moved
        rw [if_neg gift]
        omega

end Vault

/-! Panics. Only the handler of a deposit indexes an array or adds to a counter. -/
section Panics

theorem bind_panic_iff {Value Result : Type} (first : Except ProgramError Value)
    (next : Value → Except ProgramError Result) :
    (first >>= next) = .error .panic ↔
      first = .error .panic ∨ ∃ value, first = .ok value ∧ next value = .error .panic := by
  cases first with
  | ok value => simp [bind, Except.bind]
  | error error => simp [bind, Except.bind]

theorem require_panic_iff (holds : Bool) (error : ProgramError) :
    require holds error = .error .panic ↔ holds = false ∧ error = .panic := by
  cases holds <;> simp [require]

theorem transfer_no_panic (lamports : Pubkey → Nat) (sender receiver : Pubkey) (amount : Nat) :
    systemTransfer lamports sender receiver amount ≠ .error .panic := by
  simp [systemTransfer, bind_panic_iff, require_panic_iff]

theorem clock_no_panic (tx : Transaction deployment) : clockGet tx ≠ .error .panic := by
  rw [clockGet]
  cases tx.clock with
  | some timestamp => simp
  | none => simp

theorem load_no_panic (chain : Chain) (key : Pubkey) :
    loadPool deployment chain key ≠ .error .panic := by
  rw [loadPool]
  cases (if key = deployment.pool then chain.pool else none) with
  | some pool => simp
  | none => simp

theorem handler_no_panic {history : List (Transaction deployment)} {chain : Chain}
    {pool : PoolAcc} (follows : Follows history pool) (tx : Transaction deployment)
    (accounts : InitDeposit) (args : DepositArgs) :
    handlerDeposit tx chain pool accounts args ≠ .error .panic := by
  intro panicked
  simp only [handlerDeposit, bind_panic_iff, require_panic_iff, clock_no_panic, transfer_no_panic,
    require_ok_iff, checked_add_ok_iff, decide_eq_true_eq, false_or, reduceCtorEq, and_false]
    at panicked
  obtain ⟨_, _, _, room, _, _, rest⟩ := panicked
  have small := UInt64.lt_iff_toNat_lt.mp room
  rw [max_leaves_value, follows.indexed, treeDepth] at small
  have indexFits : pool.nextLeafIndex.toNat + (1 : UInt64).toNat < 2 ^ 64 := by
    rw [follows.indexed, UInt64.toNat_one]
    omega
  have totalFits : pool.totalDeposits.toNat + (1 : UInt64).toNat < 2 ^ 64 := by
    rw [follows.totalled, UInt64.toNat_one]
    omega
  -- What is left are the handler's own panics: the read of the current root, the two
  -- counters and the push, all in range on a pool that follows its history.
  have slot := position_bound follows.rooted
  rcases rest with misses | ⟨_, _, _, _, _, _, counter⟩
  · rw [rootAt, dif_pos slot] at misses
    cases misses
  · rw [checkedAdd, if_pos indexFits, checkedAdd, if_pos totalFits] at counter
    rcases counter with wraps | ⟨index, _, wraps | ⟨total, _, unpushed⟩⟩
    · cases wraps
    · cases wraps
    · have counted : KeepsHistory { pool with nextLeafIndex := index, totalDeposits := total }
          (pushedRoots history) := ⟨follows.rooted.position, follows.rooted.window⟩
      obtain ⟨next, added, _⟩ := add_root_keeps counted args.newRoot
      rw [added] at unpushed
      rcases unpushed with failed | ⟨_, impossible⟩
      · cases failed
      · exact impossible

theorem process_no_panic {history : List (Transaction deployment)} {chain : Chain}
    (follows : PoolFollows history chain) (tx : Transaction deployment) :
    process verifier deployment chain tx ≠ .error .panic := by
  obtain ⟨account, stored, summary⟩ := follows
  intro panicked
  rw [process, bind_panic_iff, require_panic_iff] at panicked
  rcases panicked with ⟨_, wrong⟩ | ⟨_, _, panicked⟩
  · cases wrong
  cases called : tx.instruction with
  | pool accounts =>
      simp [called, pool, createAccount, signer, mutable, seeds, programId, bind_panic_iff,
        require_panic_iff, transfer_no_panic] at panicked
  | deposit accounts args =>
      simp only [called, deposit, signer, mutable, seeds, programId, bind_panic_iff,
        require_panic_iff, load_no_panic, load_pool_ok_iff, false_or, reduceCtorEq, and_false]
        at panicked
      obtain ⟨loaded, ⟨_, same⟩, _, _, _, _, _, _, _, _, _, _, _, _, _, _, handler⟩ := panicked
      obtain rfl : account = loaded := Option.some.inj (stored.symm.trans same)
      exact handler_no_panic summary tx accounts args handler
  | withdraw accounts args =>
      simp [called, withdraw, handlerWithdraw, createAccount, signer, mutable, seeds, programId,
        bind_panic_iff, require_panic_iff, load_no_panic, clock_no_panic, transfer_no_panic]
        at panicked
  | transfer sender receiver amount =>
      simp [called, transfer, signer, bind_panic_iff, require_panic_iff, transfer_no_panic]
        at panicked

end Panics

/-! The books of a whole run. -/
section Books

structure Books (launch : Launch verifier deployment) (calls : List (Transaction deployment))
    (pool : PoolAcc) : Prop where
  stored : (launch.run calls).pool = some pool
  indexed : pool.nextLeafIndex.toNat = (deposits (launch.history calls)).length
  totalled : pool.totalDeposits.toNat = (deposits (launch.history calls)).length
  bounded : (deposits (launch.history calls)).length ≤ 2 ^ 20
  emitted : (depositEvents (launch.run calls).log).map (fun event => event.leafIndex.toNat) =
    List.range (deposits (launch.history calls)).length
  contents : (depositEvents (launch.run calls).log).map
      (fun event => (event.commitment, event.newRoot)) =
    (deposits (launch.history calls)).map fun args => (args.commitment, args.newRoot)
  position : pool.currentRootIndex.toNat < 10
  unpanicked : ∀ tx, process verifier deployment (launch.run calls) tx ≠ .error .panic
  withdrawKeeps : ∀ tx after, withdrawalOf tx ≠ none →
    process verifier deployment (launch.run calls) tx = .ok after →
      after.pool = (launch.run calls).pool
  distinct : ((withdrawals (launch.history calls)).map WithdrawArgs.nullifierHash).Nodup
  written : ∀ args ∈ withdrawals (launch.history calls), ∃ record,
    (launch.run calls).records args.nullifierHash = some record ∧
      record.nullifierHash = args.nullifierHash ∧ record.recipient = args.toKey ∧
      record.amount = args.amount
  accounted : ∀ nullifierHash record,
    (launch.run calls).records nullifierHash = some record →
      ∃ args ∈ withdrawals (launch.history calls), args.nullifierHash = nullifierHash
  kept : ∀ more nullifierHash record,
    (launch.run calls).records nullifierHash = some record →
      (launch.run (calls ++ more)).records nullifierHash = some record
  balanced : (launch.run calls).lamports deployment.poolVault +
      paidOut deployment (launch.history calls) = paidIn (launch.history calls)

/-- Lamports reach the vault through deposits only. -/
structure NoDonation (launch : Launch verifier deployment)
    (calls : List (Transaction deployment)) : Prop where
  opening : launch.genesis.lamports deployment.poolVault = 0
  calls : ∀ tx ∈ calls, donation tx = 0

theorem step_withdraw_pool {before after : Chain} {tx : Transaction deployment}
    (withdrawn : withdrawalOf tx ≠ none) (step : Step verifier before tx after) :
    after.pool = before.pool := by
  obtain ⟨args, sent⟩ := Option.ne_none_iff_exists'.mp withdrawn
  obtain ⟨_, _, _, _, _, _, rfl⟩ := step_withdraws step sent
  rfl

theorem trace_log (launch : Launch verifier deployment)
    {history : List (Transaction deployment)} {chain : Chain}
    (trace : Runs.Trace (process verifier deployment) launch.started history chain) :
    LogFollows history chain := by
  induction trace with
  | none =>
      have silent := launch.started_chain.2.2.1
      constructor <;> simp [silent, depositEvents, deposits]
  | snoc earlier last ih => exact step_log (trace_follows launch earlier) ih (process_step last)

theorem trace_records (launch : Launch verifier deployment)
    {history : List (Transaction deployment)} {chain : Chain}
    (trace : Runs.Trace (process verifier deployment) launch.started history chain) :
    RecordsFollow history chain := by
  induction trace with
  | none =>
      have unspent := launch.started_chain.2.1
      constructor <;> simp [unspent, withdrawals]
  | snoc _ last ih => exact step_records ih (process_step last)

theorem trace_balanced (launch : Launch verifier deployment)
    {history : List (Transaction deployment)} {chain : Chain}
    (trace : Runs.Trace (process verifier deployment) launch.started history chain) :
    Balanced (launch.genesis.lamports deployment.poolVault) history chain := by
  induction trace with
  | none =>
      have opening := launch.started_chain.2.2.2
      simp [Balanced, opening, paidOut, paidIn, donated, deposits, withdrawals]
  | snoc _ last ih => exact step_balanced ih (process_step last)

theorem donated_zero (launch : Launch verifier deployment) (calls : List (Transaction deployment))
    (closed : NoDonation launch calls) : donated (launch.history calls) = 0 := by
  rw [donated, List.sum_eq_zero]
  intro lamports member
  obtain ⟨tx, accepted, rfl⟩ := List.mem_map.mp member
  exact closed.calls tx (Runs.accepted_subset _ _ _ _ accepted)

/-- After any run of any callers the pool's counters, events, records and balance agree. -/
theorem books_balance (launch : Launch verifier deployment)
    (calls : List (Transaction deployment)) (closed : NoDonation launch calls) :
    ∃ pool, Books launch calls pool := by
  have follows := run_follows launch calls
  have log := trace_log launch (launch.run_trace calls)
  have records := trace_records launch (launch.run_trace calls)
  have balanced := trace_balanced launch (launch.run_trace calls)
  obtain ⟨pool, stored, summary⟩ := follows
  refine ⟨pool, ?_⟩
  constructor
  · exact stored
  · exact summary.indexed
  · exact summary.totalled
  · exact summary.bounded
  · exact log.indices
  · exact log.contents
  · exact position_bound summary.rooted
  · exact process_no_panic (run_follows launch calls)
  · intro tx after withdrawn done
    exact step_withdraw_pool withdrawn (process_step done)
  · exact records.distinct
  · intro args member
    obtain ⟨timestamp, written⟩ := records.written args member
    exact ⟨_, written, rfl, rfl, rfl⟩
  · exact records.accounted
  · intro more nullifierHash record present
    rw [Launch.run, Runs.run_append]
    exact run_keeps_record _ more present
  · rw [Balanced, closed.opening, donated_zero launch calls closed, Nat.zero_add, Nat.add_zero]
      at balanced
    exact balanced

theorem honest_books :
    ∃ pool, Books (Verifier.sampleLaunch (Verifier.idealVerifier Poseidon2.poseidon2Permutation))
      Verifier.honestSpend pool := by
  apply books_balance
  constructor
  · have empty : Verifier.sampleGenesis.lamports Verifier.sampleDeployment.poolVault = 0 := by
      decide
    exact empty
  · intro tx member
    simp only [Verifier.honestSpend, List.mem_cons, List.not_mem_nil, or_false] at member
    rcases member with rfl | rfl
    · rfl
    · rfl

end Books

end PrivateTransfer.Accounting
