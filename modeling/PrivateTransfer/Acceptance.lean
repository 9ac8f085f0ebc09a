import Mathlib.Algebra.BigOperators.Group.Finset.Piecewise
import Mathlib.Algebra.Order.BigOperators.Group.Finset
import PrivateTransfer.Accounting
import PrivateTransfer.RootWindow
import PrivateTransfer.Verifier

/-!
When the program takes a transaction. Its checks fall in two: what the transaction
brings along, and what the ledger must hold. After a run the second half is a
matter of the history and of the balances alone.
-/

namespace PrivateTransfer.Acceptance

open PoolState PoolProgram PoolRuns Accounting

variable {verifier : List UInt8 → Bool} {deployment : Deployment}

/-! Lamports are moved and never made, so balances that once fit keep fitting. -/
section Supply

/-- Any accounts together hold less than one balance can express. -/
def Bounded (lamports : Pubkey → Nat) : Prop :=
  ∀ keys : Finset Pubkey, keys.sum lamports < 2 ^ 64

theorem transfer_total {lamports after : Pubkey → Nat} {sender receiver : Pubkey} {amount : Nat}
    (moved : systemTransfer lamports sender receiver amount = .ok after) {keys : Finset Pubkey}
    (sends : sender ∈ keys) (receives : receiver ∈ keys) :
    keys.sum after = keys.sum lamports := by
  have balances : keys.sum (fun key => after key + if key = sender then amount else 0) =
      keys.sum fun key => lamports key + if key = receiver then amount else 0 :=
    Finset.sum_congr rfl fun key _ => transfer_balance moved key
  rw [Finset.sum_add_distrib, Finset.sum_add_distrib, Finset.sum_ite_eq', Finset.sum_ite_eq',
    if_pos sends, if_pos receives] at balances
  exact Nat.add_right_cancel balances

theorem transfer_bounded {lamports after : Pubkey → Nat} {sender receiver : Pubkey} {amount : Nat}
    (bounded : Bounded lamports)
    (moved : systemTransfer lamports sender receiver amount = .ok after) : Bounded after := by
  intro keys
  have wider : keys ⊆ keys ∪ {sender, receiver} := Finset.subset_union_left
  calc keys.sum after
      ≤ (keys ∪ {sender, receiver}).sum after := Finset.sum_le_sum_of_subset wider
    _ = (keys ∪ {sender, receiver}).sum lamports := transfer_total moved (by simp) (by simp)
    _ < 2 ^ 64 := bounded _

/-- On bounded balances a transfer needs its amount and nothing else. -/
theorem transfer_ok_iff {lamports : Pubkey → Nat} (bounded : Bounded lamports)
    (sender receiver : Pubkey) (amount : Nat) :
    (∃ after, systemTransfer lamports sender receiver amount = .ok after) ↔
      amount ≤ lamports sender := by
  simp only [systemTransfer, bind_ok_iff, require_ok_iff, decide_eq_true_eq, Except.ok.injEq]
  constructor
  · rintro ⟨_, _, funded, _⟩
    exact funded
  · intro funded
    refine ⟨_, (), funded, (), ?_, rfl⟩
    by_cases same : receiver = sender
    · have alone := bounded {sender}
      rw [Finset.sum_singleton] at alone
      rw [same, Function.update_self]
      omega
    · have both := bounded {receiver, sender}
      rw [Finset.sum_pair same] at both
      rw [Function.update_of_ne same]
      omega

theorem step_bounded {before after : Chain} {tx : Transaction deployment}
    (bounded : Bounded before.lamports) (step : Step verifier before tx after) :
    Bounded after.lamports := by
  cases step with
  | pool accounts lamports called fresh signed rent => exact transfer_bounded bounded rent
  | deposit accounts args pool next lamports timestamp called checked =>
      exact transfer_bounded bounded checked.paid
  | withdraw accounts args pool rented lamports timestamp called checked =>
      exact transfer_bounded (transfer_bounded bounded checked.rent) checked.paid
  | transfer sender receiver amount lamports called signed moved =>
      exact transfer_bounded bounded moved

theorem trace_bounded (launch : Launch verifier deployment)
    (bounded : Bounded launch.genesis.lamports) {history : List (Transaction deployment)}
    {chain : Chain}
    (trace : Runs.Trace (process verifier deployment) launch.started history chain) :
    Bounded chain.lamports := by
  have started : Bounded launch.started.lamports :=
    step_bounded bounded (process_step launch.launched)
  induction trace with
  | none => exact started
  | snoc _ last ih => exact step_bounded ih (process_step last)

theorem run_bounded (launch : Launch verifier deployment)
    (bounded : Bounded launch.genesis.lamports) (calls : List (Transaction deployment)) :
    Bounded (launch.run calls).lamports :=
  trace_bounded launch bounded (launch.run_trace calls)

end Supply

/-! The runtime's own rules: the fee, the rent state an account is left in, the compute
limit. What they refuse may depend on the ledger. -/
section Runtime

abbrev Runtime (deployment : Deployment) := Chain → Transaction deployment → Bool

/-- A transaction as the runtime judges it on this ledger. -/
def judged (runtime : Runtime deployment) (chain : Chain) (tx : Transaction deployment) :
    Transaction deployment :=
  { tx with aborted := runtime chain tx }

theorem judged_same {runtime : Runtime deployment} {chain : Chain} {tx : Transaction deployment}
    (same : runtime chain tx = tx.aborted) : judged runtime chain tx = tx := by
  rw [judged, same]

end Runtime

/-! Withdrawals. -/
section Withdrawals

/-- What a withdrawal brings along besides its proof: the runtime's limits are met and
its accounts pass their constraints. -/
structure InOrder (tx : Transaction deployment) (accounts : InitWithdraw) (args : WithdrawArgs) :
    Prop where
  unaborted : tx.aborted = false
  clock : tx.clock.isSome
  signed : accounts.payer ∈ tx.signers
  systemProgram : accounts.systemProgram = systemProgramId
  verifierProgram : accounts.verifierProgram = verifierProgramId
  pool : accounts.pool = deployment.pool
  record : accounts.nullifierRecord = deployment.nullifierRecord args.nullifierHash
  vault : accounts.poolVault = deployment.poolVault
  recipient : accounts.recipient = args.toKey
  writable : ∀ key ∈ [accounts.pool, accounts.nullifierRecord, accounts.poolVault,
    accounts.recipient, accounts.payer], key ∈ tx.writable

/-- What a transaction brings along is in order wherever the runtime lets it pass. -/
theorem order_judged {tx : Transaction deployment} {accounts : InitWithdraw} {args : WithdrawArgs}
    (inOrder : InOrder tx accounts args) {refused : Bool} (passes : refused = false) :
    InOrder { tx with aborted := refused } accounts args :=
  ⟨passes, inOrder.clock, inOrder.signed, inOrder.systemProgram, inOrder.verifierProgram,
    inOrder.pool, inOrder.record, inOrder.vault, inOrder.recipient, inOrder.writable⟩

def Proved (verifier : List UInt8 → Bool) (args : WithdrawArgs) : Prop :=
  verifier (args.proof ++ PublicInputs.encodePublicInputs args.root args.nullifierHash args.toKey
    args.amount) = true

/-- The lamports it takes: what its record still lacks of the rent, and the amount. -/
structure Funded (deployment : Deployment) (lamports : Pubkey → Nat) (accounts : InitWithdraw)
    (args : WithdrawArgs) : Prop where
  rent : deployment.recordRent - lamports (deployment.nullifierRecord args.nullifierHash) ≤
    lamports accounts.payer
  covered : args.amount.toNat ≤ lamports deployment.poolVault

theorem withdraw_ok_iff {before : Chain} {tx : Transaction deployment} {accounts : InitWithdraw}
    {args : WithdrawArgs} (called : tx.instruction = .withdraw accounts args) :
    (∃ after, process verifier deployment before tx = .ok after) ↔
      InOrder tx accounts args ∧ Proved verifier args ∧
        ∃ pool, before.pool = some pool ∧ pool.isKnownRoot args.root = true ∧
          before.records args.nullifierHash = none ∧
          ∃ rented, systemTransfer before.lamports accounts.payer
              (deployment.nullifierRecord args.nullifierHash)
              (deployment.recordRent -
                before.lamports (deployment.nullifierRecord args.nullifierHash)) = .ok rented ∧
            args.amount.toNat ≤ rented deployment.poolVault ∧
            ∃ lamports, systemTransfer rented deployment.poolVault args.toKey
              args.amount.toNat = .ok lamports := by
  simp only [process, called, withdraw, handlerWithdraw, createAccount, signer, mutable, seeds,
    programId, bind_ok_iff, load_pool_ok_iff, clock_ok_iff, require_ok_iff, beq_iff_eq,
    decide_eq_true_eq, List.contains_iff_mem, Except.ok.injEq, Bool.not_eq_true',
    Option.isSome_eq_false_iff, Option.isNone_iff_eq_none]
  constructor
  · rintro ⟨_, _, unaborted, pool, ⟨poolKey, loaded⟩, _, signed, _, systemProgram, _, record,
      rented, ⟨_, unspent, rent⟩, _, _, _, poolWritable, _, recordWritable, _, vault, _,
      vaultWritable, _, recipientWritable, _, payerWritable, _, verifierProgram, timestamp, clock,
      _, recipient, _, covered, _, known, _, proved, lamports, paid, _⟩
    rw [record] at rent
    rw [vault] at covered
    rw [vault, recipient] at paid
    refine ⟨⟨unaborted, by rw [clock]; rfl, signed, systemProgram, verifierProgram, poolKey, record,
      vault, recipient, ?_⟩, proved, pool, loaded, known, unspent, rented, rent, covered, lamports,
      paid⟩
    simp only [List.forall_mem_cons, List.not_mem_nil, false_implies, implies_true, and_true]
    exact ⟨poolWritable, recordWritable, vaultWritable, recipientWritable, payerWritable⟩
  · rintro ⟨inOrder, proved, pool, loaded, known, unspent, rented, rent, covered, lamports, paid⟩
    obtain ⟨timestamp, clock⟩ := Option.isSome_iff_exists.mp inOrder.clock
    have writable := inOrder.writable
    simp only [List.forall_mem_cons, List.not_mem_nil, false_implies, implies_true, and_true]
      at writable
    obtain ⟨poolWritable, recordWritable, vaultWritable, recipientWritable, payerWritable⟩ :=
      writable
    rw [← inOrder.record] at rent
    rw [← inOrder.vault] at covered
    rw [← inOrder.vault, ← inOrder.recipient] at paid
    exact ⟨_, (), inOrder.unaborted, pool, ⟨inOrder.pool, loaded⟩, (), inOrder.signed, (),
      inOrder.systemProgram, (), inOrder.record, rented, ⟨(), unspent, rent⟩, (),
      inOrder.pool, (), poolWritable, (), recordWritable, (), inOrder.vault, (), vaultWritable,
      (), recipientWritable, (), payerWritable, (), inOrder.verifierProgram, timestamp, clock, (),
      inOrder.recipient, (), covered, (), known, (), proved, lamports, paid, rfl⟩

/-- The rent goes past the vault, so it does not touch what covers the amount. -/
theorem rent_keeps_vault {tx : Transaction deployment} {accounts : InitWithdraw}
    {args : WithdrawArgs} {lamports rented : Pubkey → Nat} {rent : Nat}
    (signed : accounts.payer ∈ tx.signers)
    (moved : systemTransfer lamports accounts.payer
      (deployment.nullifierRecord args.nullifierHash) rent = .ok rented) :
    rented deployment.poolVault = lamports deployment.poolVault := by
  have balance := transfer_balance moved deployment.poolVault
  rwa [if_neg (unsigned_other signed), if_neg (deployment.recordApart args.nullifierHash).symm]
    at balance

theorem funded_iff {lamports : Pubkey → Nat} (bounded : Bounded lamports)
    {tx : Transaction deployment} {accounts : InitWithdraw} {args : WithdrawArgs}
    (signed : accounts.payer ∈ tx.signers) :
    Funded deployment lamports accounts args ↔
      ∃ rented, systemTransfer lamports accounts.payer
          (deployment.nullifierRecord args.nullifierHash)
          (deployment.recordRent - lamports (deployment.nullifierRecord args.nullifierHash)) =
            .ok rented ∧
        args.amount.toNat ≤ rented deployment.poolVault ∧
        ∃ paid, systemTransfer rented deployment.poolVault args.toKey args.amount.toNat =
          .ok paid := by
  constructor
  · rintro ⟨rent, covered⟩
    obtain ⟨rented, moved⟩ := (transfer_ok_iff bounded _ _ _).mpr rent
    rw [← rent_keeps_vault signed moved] at covered
    exact ⟨rented, moved, covered,
      (transfer_ok_iff (transfer_bounded bounded moved) _ _ _).mpr covered⟩
  · rintro ⟨rented, moved, covered, _⟩
    rw [rent_keeps_vault signed moved] at covered
    exact ⟨(transfer_ok_iff bounded _ _ _).mp ⟨rented, moved⟩, covered⟩

/-- What has been withdrawn, by the records of the ledger. -/
theorem unrecorded_iff {history : List (Transaction deployment)} {chain : Chain}
    (follows : RecordsFollow history chain) (nullifierHash : Bytes32) :
    chain.records nullifierHash = none ↔
      ∀ earlier ∈ withdrawals history, earlier.nullifierHash ≠ nullifierHash := by
  constructor
  · rintro unspent earlier member rfl
    obtain ⟨_, stored⟩ := follows.written earlier member
    rw [unspent] at stored
    exact absurd stored nofun
  · intro fresh
    cases stored : chain.records nullifierHash with
    | none => rfl
    | some record =>
        obtain ⟨earlier, member, same⟩ := follows.accounted nullifierHash record stored
        exact absurd same (fresh earlier member)

theorem withdraw_trace_iff (launch : Launch verifier deployment)
    (bounded : Bounded launch.genesis.lamports) {history : List (Transaction deployment)}
    {chain : Chain}
    (trace : Runs.Trace (process verifier deployment) launch.started history chain)
    {tx : Transaction deployment} {accounts : InitWithdraw} {args : WithdrawArgs}
    (called : tx.instruction = .withdraw accounts args) :
    (∃ after, process verifier deployment chain tx = .ok after) ↔
      InOrder tx accounts args ∧ Proved verifier args ∧
        args.root ∈ RootWindow.recentRoots (pushedRoots history) ∧
        (∀ earlier ∈ withdrawals history, earlier.nullifierHash ≠ args.nullifierHash) ∧
        Funded deployment chain.lamports accounts args := by
  obtain ⟨pool, stored, follows⟩ := trace_follows launch trace
  have known := (RootWindow.follows_window follows).known args.root
  have unrecorded := unrecorded_iff (trace_records launch trace) args.nullifierHash
  have within := trace_bounded launch bounded trace
  rw [withdraw_ok_iff called]
  constructor
  · rintro ⟨inOrder, proved, loaded, found, isKnown, unspent, lamports⟩
    obtain rfl : pool = loaded := Option.some.inj (stored.symm.trans found)
    exact ⟨inOrder, proved, known.mp isKnown, unrecorded.mp unspent,
      (funded_iff within inOrder.signed).mpr lamports⟩
  · rintro ⟨inOrder, proved, recent, fresh, funded⟩
    exact ⟨inOrder, proved, pool, stored, known.mpr recent, unrecorded.mpr fresh,
      (funded_iff within inOrder.signed).mp funded⟩

/-- After any run a withdrawal is taken exactly when it is in order, its root is among
the last ten pushed, its hash was not withdrawn, and the lamports are there. -/
theorem withdraw_taken_iff (launch : Launch verifier deployment)
    (bounded : Bounded launch.genesis.lamports) (calls : List (Transaction deployment))
    {tx : Transaction deployment} {accounts : InitWithdraw} {args : WithdrawArgs}
    (called : tx.instruction = .withdraw accounts args) :
    (∃ after, process verifier deployment (launch.run calls) tx = .ok after) ↔
      InOrder tx accounts args ∧ Proved verifier args ∧
        args.root ∈ RootWindow.recentRoots (pushedRoots (launch.history calls)) ∧
        (∀ earlier ∈ withdrawals (launch.history calls),
          earlier.nullifierHash ≠ args.nullifierHash) ∧
        Funded deployment (launch.run calls).lamports accounts args :=
  withdraw_trace_iff launch bounded (launch.run_trace calls) called

end Withdrawals

/-! Deposits. -/
section Deposits

structure Offered (tx : Transaction deployment) (accounts : InitDeposit) (args : DepositArgs) :
    Prop where
  unaborted : tx.aborted = false
  clock : tx.clock.isSome
  signed : accounts.depositor ∈ tx.signers
  systemProgram : accounts.systemProgram = systemProgramId
  pool : accounts.pool = deployment.pool
  vault : accounts.poolVault = deployment.poolVault
  writable : ∀ key ∈ [accounts.pool, accounts.poolVault, accounts.depositor], key ∈ tx.writable
  enough : minDepositAmount ≤ args.amount

theorem offered_judged {tx : Transaction deployment} {accounts : InitDeposit} {args : DepositArgs}
    (offered : Offered tx accounts args) {refused : Bool} (passes : refused = false) :
    Offered { tx with aborted := refused } accounts args :=
  ⟨passes, offered.clock, offered.signed, offered.systemProgram, offered.pool, offered.vault,
    offered.writable, offered.enough⟩

/-- The counters are below the size of the tree, so neither of them overflows. -/
theorem counted_follows {history : List (Transaction deployment)} {pool : PoolAcc}
    (follows : Follows history pool) (room : pool.nextLeafIndex < maxLeaves) (newRoot : Bytes32) :
    pool.nextLeafIndex.toNat + (1 : UInt64).toNat < 2 ^ 64 ∧
      pool.totalDeposits.toNat + (1 : UInt64).toNat < 2 ^ 64 ∧
      ∃ next, { pool with
        nextLeafIndex := pool.nextLeafIndex + 1
        totalDeposits := pool.totalDeposits + 1 }.addRoot newRoot = .ok next := by
  have small := UInt64.lt_iff_toNat_lt.mp room
  rw [max_leaves_value, follows.indexed, treeDepth] at small
  have counted : KeepsHistory { pool with
      nextLeafIndex := pool.nextLeafIndex + 1
      totalDeposits := pool.totalDeposits + 1 } (pushedRoots history) :=
    ⟨follows.rooted.position, follows.rooted.window⟩
  obtain ⟨next, pushed, _⟩ := add_root_keeps counted newRoot
  refine ⟨?_, ?_, next, pushed⟩
  · rw [follows.indexed, UInt64.toNat_one]
    omega
  · rw [follows.totalled, UInt64.toNat_one]
    omega

theorem deposit_ok_iff {before : Chain} {tx : Transaction deployment} {accounts : InitDeposit}
    {args : DepositArgs} (called : tx.instruction = .deposit accounts args)
    {history : List (Transaction deployment)} {pool : PoolAcc} (stored : before.pool = some pool)
    (follows : Follows history pool) :
    (∃ after, process verifier deployment before tx = .ok after) ↔
      Offered tx accounts args ∧ pool.nextLeafIndex < maxLeaves ∧
        args.newRoot ≠ (emptyRoot :: pushedRoots history).getLast (by simp) ∧
        ∃ lamports, systemTransfer before.lamports accounts.depositor deployment.poolVault
          args.amount.toNat = .ok lamports := by
  simp only [process, called, deposit, handlerDeposit, signer, mutable, seeds, programId,
    bind_ok_iff, load_pool_ok_iff, clock_ok_iff, require_ok_iff, root_at_ok_iff,
    checked_add_ok_iff, beq_iff_eq, bne_iff_ne, decide_eq_true_eq, List.contains_iff_mem,
    Except.ok.injEq, Bool.not_eq_true']
  have current := current_root follows.rooted
  constructor
  · rintro ⟨_, _, unaborted, loaded, ⟨poolKey, found⟩, _, signed, _, systemProgram, _, _, _,
      poolWritable, _, vault, _, vaultWritable, _, depositorWritable, timestamp, clock, _, room, _,
      enough, root, read, _, changed, lamports, paid, _⟩
    obtain rfl : pool = loaded := Option.some.inj (stored.symm.trans found)
    obtain rfl := Option.some.inj (current.symm.trans read)
    rw [vault] at paid
    refine ⟨⟨unaborted, by rw [clock]; rfl, signed, systemProgram, poolKey, vault, ?_, enough⟩,
      room, changed, lamports, paid⟩
    simp only [List.forall_mem_cons, List.not_mem_nil, false_implies, implies_true, and_true]
    exact ⟨poolWritable, vaultWritable, depositorWritable⟩
  · rintro ⟨offered, room, changed, lamports, paid⟩
    obtain ⟨timestamp, clock⟩ := Option.isSome_iff_exists.mp offered.clock
    obtain ⟨indexFits, totalFits, next, pushed⟩ := counted_follows follows room args.newRoot
    have writable := offered.writable
    simp only [List.forall_mem_cons, List.not_mem_nil, false_implies, implies_true, and_true]
      at writable
    obtain ⟨poolWritable, vaultWritable, depositorWritable⟩ := writable
    rw [← offered.vault] at paid
    exact ⟨_, (), offered.unaborted, pool, ⟨offered.pool, stored⟩, (), offered.signed, (),
      offered.systemProgram, (), offered.pool, (), poolWritable, (), offered.vault, (),
      vaultWritable, (), depositorWritable, timestamp, clock, (), room, (), offered.enough, _,
      current, (), changed, lamports, paid, _, ⟨indexFits, rfl⟩, _, ⟨totalFits, rfl⟩, next, pushed,
      rfl⟩

theorem deposit_trace_iff (launch : Launch verifier deployment)
    (bounded : Bounded launch.genesis.lamports) {history : List (Transaction deployment)}
    {chain : Chain}
    (trace : Runs.Trace (process verifier deployment) launch.started history chain)
    {tx : Transaction deployment} {accounts : InitDeposit} {args : DepositArgs}
    (called : tx.instruction = .deposit accounts args) :
    (∃ after, process verifier deployment chain tx = .ok after) ↔
      Offered tx accounts args ∧ (deposits history).length < 2 ^ treeDepth ∧
        args.newRoot ≠ (emptyRoot :: pushedRoots history).getLast (by simp) ∧
        args.amount.toNat ≤ chain.lamports accounts.depositor := by
  obtain ⟨pool, stored, follows⟩ := trace_follows launch trace
  have room : pool.nextLeafIndex < maxLeaves ↔ (deposits history).length < 2 ^ treeDepth := by
    rw [UInt64.lt_iff_toNat_lt, max_leaves_value, follows.indexed]
  have funded := transfer_ok_iff (trace_bounded launch bounded trace) accounts.depositor
    deployment.poolVault args.amount.toNat
  rw [deposit_ok_iff called stored follows, room, funded]

/-- After any run a deposit is taken exactly when it is in order, the tree has room, its
root is not the one pushed last, and the depositor has the amount. -/
theorem deposit_taken_iff (launch : Launch verifier deployment)
    (bounded : Bounded launch.genesis.lamports) (calls : List (Transaction deployment))
    {tx : Transaction deployment} {accounts : InitDeposit} {args : DepositArgs}
    (called : tx.instruction = .deposit accounts args) :
    (∃ after, process verifier deployment (launch.run calls) tx = .ok after) ↔
      Offered tx accounts args ∧ (deposits (launch.history calls)).length < 2 ^ treeDepth ∧
        args.newRoot ≠ (emptyRoot :: pushedRoots (launch.history calls)).getLast (by simp) ∧
        args.amount.toNat ≤ (launch.run calls).lamports accounts.depositor :=
  deposit_trace_iff launch bounded (launch.run_trace calls) called

end Deposits

/-! A withdrawal that waits. Others may run in front of it; its root stays among the
last ten until ten deposits have been made, and each of them pays the minimum. -/
section Pending

theorem history_append (launch : Launch verifier deployment)
    (calls others : List (Transaction deployment)) :
    launch.history (calls ++ others) = launch.history calls ++
      Runs.accepted (process verifier deployment) (launch.run calls) others :=
  Runs.accepted_append _ launch.started calls others

theorem pushed_append (earlier later : List (Transaction deployment)) :
    pushedRoots (earlier ++ later) = pushedRoots earlier ++ pushedRoots later := by
  simp [pushedRoots, deposits]

/-- The root pushed last stays recent for nine more pushes, and after that if repushed. -/
theorem newest_recent_iff (pushed more : List Bytes32) :
    (emptyRoot :: pushed).getLast (by simp) ∈ RootWindow.recentRoots (pushed ++ more) ↔
      more.length < 10 ∨
        (emptyRoot :: pushed).getLast (by simp) ∈ more.drop (more.length - 10) := by
  rw [RootWindow.recent_mem_iff, List.length_append]
  by_cases few : more.length < 10
  · refine ⟨fun _ => Or.inl few, fun _ => ?_⟩
    rcases List.eq_nil_or_concat pushed with rfl | ⟨front, newest, rfl⟩
    · exact Or.inl ⟨by simpa using few, rfl⟩
    · -- its position is the last one before `more`
      right
      rw [List.mem_drop_iff_getElem]
      have offset : (front.concat newest).length + more.length - 10 +
          (front.length - ((front.concat newest).length + more.length - 10)) = front.length := by
        rw [List.length_concat]
        omega
      refine ⟨front.length - ((front.concat newest).length + more.length - 10), ?_, ?_⟩
      · rw [Nat.add_comm, offset, List.length_append, List.length_concat]
        omega
      · simp only [offset]
        simp
  · have cut : pushed.length + more.length - 10 = pushed.length + (more.length - 10) := by omega
    have long : ¬ pushed.length + more.length < 10 := by omega
    rw [cut, List.drop_append, List.drop_eq_nil_of_le (Nat.le_add_right _ _), List.nil_append,
      Nat.add_sub_cancel_left]
    simp [few, long]

theorem trace_enough {start chain : Chain} {history : List (Transaction deployment)}
    (trace : Runs.Trace (process verifier deployment) start history chain) :
    ∀ args ∈ deposits history, minDepositAmount ≤ args.amount := by
  induction trace with
  | none => exact nofun
  | @snoc history before after tx earlier last ih =>
      intro args member
      rw [deposits, List.filterMap_append, List.mem_append] at member
      rcases member with old | new
      · exact ih args old
      · obtain ⟨call, same, sent⟩ := List.mem_filterMap.mp new
        obtain rfl := List.mem_singleton.mp same
        obtain ⟨_, _, _, _, _, checked, _⟩ := step_deposits (process_step last) sent
        exact checked.enough

theorem paid_in_least {start chain : Chain} {history : List (Transaction deployment)}
    (trace : Runs.Trace (process verifier deployment) start history chain) :
    (deposits history).length * minDepositAmount.toNat ≤ paidIn history := by
  have each : ∀ amount ∈ (deposits history).map (fun args => args.amount.toNat),
      minDepositAmount.toNat ≤ amount := by
    intro amount member
    obtain ⟨args, sent, rfl⟩ := List.mem_map.mp member
    exact UInt64.le_iff_toNat_le.mp (trace_enough trace args sent)
  have total := List.card_nsmul_le_sum _ _ each
  rwa [List.length_map, smul_eq_mul] at total

/-- What commits after `calls`, when others run in front of it. -/
def later (launch : Launch verifier deployment) (calls others : List (Transaction deployment)) :
    List (Transaction deployment) :=
  Runs.accepted (process verifier deployment) (launch.run calls) others

/-- A withdrawal that would be taken against the current root is still taken after others
ran, unless the runtime refuses it by its own rules there, or they made ten deposits and did
not push its root again, withdrew its hash, or left it without the lamports; and each deposit
they made was paid for. -/
theorem pending_taken_iff (launch : Launch verifier deployment)
    (bounded : Bounded launch.genesis.lamports) (runtime : Runtime deployment)
    (calls others : List (Transaction deployment))
    {tx : Transaction deployment} {accounts : InitWithdraw} {args : WithdrawArgs}
    (called : tx.instruction = .withdraw accounts args)
    (taken : ∃ after, process verifier deployment (launch.run calls)
      (judged runtime (launch.run calls) tx) = .ok after)
    (current : args.root = (emptyRoot :: pushedRoots (launch.history calls)).getLast (by simp)) :
    ((∃ after, process verifier deployment (launch.run (calls ++ others))
        (judged runtime (launch.run (calls ++ others)) tx) = .ok after) ↔
      runtime (launch.run (calls ++ others)) tx = false ∧
      ((deposits (later launch calls others)).length < 10 ∨
        args.root ∈ (pushedRoots (later launch calls others)).drop
          ((deposits (later launch calls others)).length - 10)) ∧
      (∀ other ∈ withdrawals (later launch calls others),
        other.nullifierHash ≠ args.nullifierHash) ∧
      Funded deployment (launch.run (calls ++ others)).lamports accounts args) ∧
    (deposits (later launch calls others)).length * minDepositAmount.toNat ≤
      paidIn (later launch calls others) := by
  obtain ⟨inOrder, proved, _, fresh, _⟩ :=
    (withdraw_trace_iff launch bounded (launch.run_trace calls)
      (show (judged runtime (launch.run calls) tx).instruction = _ from called)).mp taken
  have pushes : (pushedRoots (later launch calls others)).length =
      (deposits (later launch calls others)).length := List.length_map _
  have sent : withdrawals (launch.history (calls ++ others)) =
      withdrawals (launch.history calls) ++ withdrawals (later launch calls others) := by
    rw [history_append, withdrawals, List.filterMap_append]
    rfl
  refine ⟨?_, paid_in_least (Runs.run_trace _ (launch.run calls) others)⟩
  rw [withdraw_trace_iff launch bounded (launch.run_trace _)
      (show (judged runtime (launch.run (calls ++ others)) tx).instruction = _ from called),
    history_append, pushed_append, ← history_append, sent, current, newest_recent_iff, ← later,
    pushes]
  constructor
  · rintro ⟨judgedOrder, _, recent, apart, funded⟩
    exact ⟨judgedOrder.unaborted, recent,
      fun other member => apart other (List.mem_append_right _ member), funded⟩
  · rintro ⟨passes, recent, apart, funded⟩
    -- accounts and proof stay as they were; only the runtime may judge otherwise here
    refine ⟨order_judged inOrder passes, proved, recent, ?_, funded⟩
    intro earlier member
    exact (List.mem_append.mp member).elim (fresh earlier) (apart earlier)

end Pending

/-! The `Prover.toml` note, its withdrawal waiting behind somebody's deposit. -/
section Note
open Verifier Poseidon2

theorem sample_bounded : Bounded sampleGenesis.lamports := by
  intro keys
  have held : keys.sum sampleGenesis.lamports ≤ 10_000_000_000 := by
    simp only [sampleGenesis, Finset.sum_ite_eq']
    split <;> omega
  exact Nat.lt_of_le_of_lt held (by decide)

noncomputable def noteLaunch : Launch (idealVerifier poseidon2Permutation) sampleDeployment :=
  sampleLaunch (idealVerifier poseidon2Permutation)

theorem note_spends :
    Runs.allCommit (process (idealVerifier poseidon2Permutation) sampleDeployment)
      noteLaunch.started honestSpend = true := by
  apply Runs.all_commit_mono _ _ _ _ honest_commits
  intro before tx member after done
  apply process_verified _ done
  simp only [honestSpend, List.mem_cons, List.not_mem_nil, or_false] at member
  rcases member with rfl | rfl
  · exact deposit_verified _ _ _
  · exact note_verified spentHash spent_hash_denotes

theorem note_deposit_taken : ∃ after, process (idealVerifier poseidon2Permutation)
    sampleDeployment (noteLaunch.run []) noteDeposit = .ok after :=
  ⟨_, (Runs.all_commit_cons _ note_spends).1⟩

theorem note_withdrawal_taken : ∃ after, process (idealVerifier poseidon2Permutation)
    sampleDeployment (noteLaunch.run [noteDeposit]) (noteWithdrawal spentHash) = .ok after :=
  ⟨_, (Runs.all_commit_cons _ (Runs.all_commit_cons _ note_spends).2).1⟩

theorem note_deposit_pays : oneSol.toNat ≤ (noteLaunch.run []).lamports payer :=
  ((deposit_taken_iff noteLaunch sample_bounded [] rfl).mp note_deposit_taken).2.2.2

theorem note_root_recent : proverRoot ∈
    RootWindow.recentRoots (pushedRoots (noteLaunch.history [noteDeposit])) :=
  ((withdraw_taken_iff noteLaunch sample_bounded [noteDeposit] rfl).mp note_withdrawal_taken).2.2.1

def passingDeposit : Transaction sampleDeployment :=
  sampleDeposit (Bytes32.ofNat 7) (Bytes32.ofNat 8) 2_000_000

/-- The vault is not left with something, but less than the rent of an account without
data. -/
def vaultRent : Runtime sampleDeployment := fun chain tx =>
  match tx.instruction with
  | .withdraw _ args =>
      let left := chain.lamports sampleDeployment.poolVault - args.amount.toNat
      decide (0 < left ∧ left < 890_880)
  | _ => false

theorem note_waits : ∃ after, process (idealVerifier poseidon2Permutation) sampleDeployment
    (noteLaunch.run ([noteDeposit] ++ [passingDeposit]))
    (judged vaultRent (noteLaunch.run ([noteDeposit] ++ [passingDeposit]))
      (noteWithdrawal spentHash)) = .ok after := by
  have passes : vaultRent (noteLaunch.run [noteDeposit]) (noteWithdrawal spentHash) = false := by
    decide +kernel
  have taken : ∃ after, process (idealVerifier poseidon2Permutation) sampleDeployment
      (noteLaunch.run [noteDeposit]) (judged vaultRent (noteLaunch.run [noteDeposit])
        (noteWithdrawal spentHash)) = .ok after := by
    rw [judged_same passes]
    exact note_withdrawal_taken
  have pending := pending_taken_iff noteLaunch sample_bounded vaultRent [noteDeposit]
    [passingDeposit] rfl taken (by decide +kernel)
  refine pending.1.mpr ⟨by decide +kernel, Or.inl (by decide +kernel), ?_, ?_, ?_⟩
  · have none : withdrawals (later noteLaunch [noteDeposit] [passingDeposit]) = [] := by
      decide +kernel
    rw [none]
    exact nofun
  · decide +kernel
  · decide +kernel

end Note

end PrivateTransfer.Acceptance
