import Mathlib.Algebra.BigOperators.Group.Finset.Basic
import PrivateTransfer.Acceptance
import PrivateTransfer.Backing

/-!
What the vault still owes. In a run whose deposits are made as the client makes
them, the vault holds every deposit that was not withdrawn, whatever withdrawals
were sent, and each of them can be withdrawn at once against the current root.
-/

namespace PrivateTransfer.Solvency

open PoolState hiding treeDepth
open PoolProgram PoolRuns Accounting Verifier Circuit Authenticity Backing

/-! Sums over the calls of one kind, by position. -/
section Positions
variable {deployment : Deployment} {Called : Type}

def weightAt (read : Transaction deployment → Option Called) (weigh : Called → Nat)
    (history : List (Transaction deployment)) (i : Nat) : Nat :=
  ((calledAt read history i).map weigh).getD 0

variable (read : Transaction deployment → Option Called) (weigh : Called → Nat)

theorem weight_at {history : List (Transaction deployment)} {i : Nat} {args : Called}
    (called : calledAt read history i = some args) :
    weightAt read weigh history i = weigh args := by
  rw [weightAt, called]
  rfl

theorem weight_snoc_earlier (history : List (Transaction deployment))
    (tx : Transaction deployment) {i : Nat} (inside : i < history.length) :
    weightAt read weigh (history ++ [tx]) i = weightAt read weigh history i := by
  rw [weightAt, weightAt, calledAt, calledAt, List.getElem?_append_left inside]

theorem weight_snoc_newest (history : List (Transaction deployment))
    (tx : Transaction deployment) :
    weightAt read weigh (history ++ [tx]) history.length = ((read tx).map weigh).getD 0 := by
  rw [weightAt, calledAt, List.getElem?_append_right (Nat.le_refl _), Nat.sub_self]
  rfl

theorem sum_positions (history : List (Transaction deployment)) :
    ((history.filterMap read).map weigh).sum =
      (Finset.range history.length).sum (weightAt read weigh history) := by
  induction history using List.reverseRecOn with
  | nil => rfl
  | append_singleton history tx ih =>
      rw [List.length_append, List.length_singleton, Finset.sum_range_succ, weight_snoc_newest,
        List.filterMap_append, List.map_append, List.sum_append, ih]
      congr 1
      · apply Finset.sum_congr rfl
        intro i member
        exact (weight_snoc_earlier read weigh history tx (Finset.mem_range.mp member)).symm
      · cases called : read tx with
        | none => simp [called]
        | some args => simp [called]

theorem called_at_inside {read : Transaction deployment → Option Called}
    {history : List (Transaction deployment)} {i : Nat} {args : Called}
    (called : calledAt read history i = some args) : i < history.length := by
  obtain ⟨tx, found, _⟩ := Option.bind_eq_some_iff.mp called
  exact (List.getElem?_eq_some_iff.mp found).1

theorem weight_filtered (kept : Called → Bool) (history : List (Transaction deployment))
    (i : Nat) :
    weightAt (fun tx => (read tx).filter kept) weigh history i =
      (((calledAt read history i).filter kept).map weigh).getD 0 := by
  rw [weightAt, calledAt, calledAt]
  cases history[i]? with
  | none => rfl
  | some tx => rfl

/-- Calls of one kind matched one to one with calls of equal weight of another kind, none
of them among the `kept` ones, weigh with those no more than the whole. -/
theorem matched_within {Other : Type} {history : List (Transaction deployment)}
    (readOther : Transaction deployment → Option Other) (weighOther : Other → Nat)
    (kept : Called → Bool) (source : Nat → Nat)
    (matched : ∀ i other, calledAt readOther history i = some other →
      ∃ args, calledAt read history (source i) = some args ∧ kept args = false ∧
        weigh args = weighOther other)
    (apart : Set.InjOn source {i | (calledAt readOther history i).isSome}) :
    (((history.filterMap read).filter kept).map weigh).sum +
        ((history.filterMap readOther).map weighOther).sum ≤
      ((history.filterMap read).map weigh).sum := by
  rw [List.filter_filterMap, sum_positions, sum_positions, sum_positions]
  -- the calls of the other kind, moved to the positions they are matched with
  let others := (Finset.range history.length).filter
    fun i => (calledAt readOther history i).isSome
  have placed : ∀ i, (calledAt readOther history i).isSome → ∃ args,
      calledAt read history (source i) = some args ∧ kept args = false ∧
        weigh args = weightAt readOther weighOther history i := by
    intro i isOther
    obtain ⟨other, called⟩ := Option.isSome_iff_exists.mp isOther
    obtain ⟨args, sent, dropped, same⟩ := matched i other called
    exact ⟨args, sent, dropped, same.trans (weight_at readOther weighOther called).symm⟩
  have moved : (Finset.range history.length).sum (weightAt readOther weighOther history) =
      (others.image source).sum (weightAt read weigh history) := by
    have onOthers : Set.InjOn source others := by
      intro i isLeft j isRight same
      exact apart (Finset.mem_filter.mp isLeft).2 (Finset.mem_filter.mp isRight).2 same
    have weighty : ∀ i ∈ Finset.range history.length,
        weightAt readOther weighOther history i ≠ 0 →
          (calledAt readOther history i).isSome := by
      intro i _ nonzero
      cases called : calledAt readOther history i with
      | none => exact absurd (by rw [weightAt, called]; rfl) nonzero
      | some other => rfl
    rw [Finset.sum_image onOthers, ← Finset.sum_filter_of_ne weighty]
    apply Finset.sum_congr rfl
    intro i member
    obtain ⟨args, sent, _, same⟩ := placed i (Finset.mem_filter.mp member).2
    rw [weight_at read weigh sent, same]
  have inside : others.image source ⊆ Finset.range history.length := by
    intro k member
    obtain ⟨i, isOther, rfl⟩ := Finset.mem_image.mp member
    obtain ⟨args, sent, _⟩ := placed i (Finset.mem_filter.mp isOther).2
    exact Finset.mem_range.mpr (called_at_inside sent)
  rw [moved, ← Finset.inter_eq_right.mpr inside, ← Finset.sum_ite_mem, ← Finset.sum_add_distrib]
  apply Finset.sum_le_sum
  intro k _
  by_cases taken : k ∈ others.image source
  · obtain ⟨i, isOther, rfl⟩ := Finset.mem_image.mp taken
    obtain ⟨args, sent, dropped, _⟩ := placed i (Finset.mem_filter.mp isOther).2
    rw [if_pos taken, weight_filtered, sent, Option.filter_some, dropped]
    simp
  · rw [if_neg taken, Nat.add_zero, weight_filtered, weightAt]
    cases called : calledAt read history k with
    | none => simp
    | some args => cases stays : kept args <;> simp [Option.filter, stays]

end Positions

section Owed
variable (poseidon2Permutation : Vector Field 4 → Vector Field 4)
variable {verifier : List UInt8 → Bool} {deployment : Deployment}

/-- A run whose deposits carry the root of the tree they make and commit to what they
pay, and whose withdrawals write their hashes reduced, each as far as it was accepted. -/
structure Honest (launch : Launch verifier deployment) (calls : List (Transaction deployment))
    (openings : Nat → PrivateInputs) (preimage : DepositArgs → Field × Field) : Prop where
  roots : CorrectRoots poseidon2Permutation (launch.history calls)
  tied : Tied poseidon2Permutation preimage (launch.history calls)
  canonical : ∀ args ∈ withdrawals (launch.history calls), Canonical args.nullifierHash
  opens : Opens poseidon2Permutation (launch.history calls) openings
  unbroken : Unbroken poseidon2Permutation
    (Used poseidon2Permutation (launch.history calls) openings preimage)

/-- Somebody withdrew under the hash of the deposit's nullifier. -/
def Spent (preimage : DepositArgs → Field × Field) (history : List (Transaction deployment))
    (deposit : DepositArgs) : Prop :=
  ∃ args ∈ withdrawals history,
    fieldOf args.nullifierHash = hash1 poseidon2Permutation (preimage deposit).1

instance (preimage : DepositArgs → Field × Field) (history : List (Transaction deployment))
    (deposit : DepositArgs) : Decidable (Spent poseidon2Permutation preimage history deposit) :=
  inferInstanceAs (Decidable (∃ args ∈ withdrawals history, _))

def outstanding (preimage : DepositArgs → Field × Field)
    (history : List (Transaction deployment)) : List DepositArgs :=
  (deposits history).filter fun deposit =>
    !decide (Spent poseidon2Permutation preimage history deposit)

def owed (preimage : DepositArgs → Field × Field) (history : List (Transaction deployment)) :
    Nat :=
  ((outstanding poseidon2Permutation preimage history).map fun args => args.amount.toNat).sum

theorem paid_out_within (history : List (Transaction deployment)) :
    paidOut deployment history ≤
      ((withdrawals history).map fun args => args.amount.toNat).sum := by
  apply List.sum_le_sum
  intro args _
  split
  · exact Nat.zero_le _
  · exact Nat.le_refl _

variable {poseidon2Permutation}
variable {launch : Launch verifier deployment} {calls : List (Transaction deployment)}
variable {openings : Nat → PrivateInputs} {preimage : DepositArgs → Field × Field}

/-- The deposit behind a withdrawal is spent by it. -/
theorem backed_spent (honest : Honest poseidon2Permutation launch calls openings preimage)
    {i k : Nat} {args : WithdrawArgs} {deposit : DepositArgs}
    (called : calledAt withdrawalOf (launch.history calls) i = some args)
    (sent : calledAt depositOf (launch.history calls) k = some deposit)
    (same : fieldOf deposit.commitment =
      commitmentOf poseidon2Permutation (shownOf args) (openings i)) :
    Spent poseidon2Permutation preimage (launch.history calls) deposit := by
  have member := called_at_sent sent
  have own := honest.tied deposit member
  have equal := honest.unbroken.injective _ _ (Used.deposit member) (Used.opening called)
    (own.symm.trans same)
  have hashed := ((accepts_iff _ _ _).mp (honest.opens i args called)).1
  refine ⟨args, called_at_sent called, ?_⟩
  rw [(Prod.mk.inj equal).1]
  exact hashed.symm

/-- What is still owed and what went out were both paid in. -/
theorem owed_paid (honest : Honest poseidon2Permutation launch calls openings preimage) :
    owed poseidon2Permutation preimage (launch.history calls) +
      paidOut deployment (launch.history calls) ≤ paidIn (launch.history calls) := by
  have behind : ∀ i, ∃ k, ∀ args, calledAt withdrawalOf (launch.history calls) i = some args →
      Backs poseidon2Permutation launch (launch.history calls) openings i k args := by
    intro i
    cases called : calledAt withdrawalOf (launch.history calls) i with
    | none => exact ⟨0, nofun⟩
    | some args =>
        obtain ⟨k, backs⟩ := withdrawal_backed honest.roots honest.tied honest.opens
          honest.unbroken called
        exact ⟨k, fun _ same => Option.some.inj same ▸ backs⟩
  choose source backs using behind
  apply Nat.le_trans (Nat.add_le_add_left (paid_out_within _) _)
  apply matched_within depositOf (fun args => args.amount.toNat) withdrawalOf
    (fun args => args.amount.toNat)
    (fun deposit => !decide (Spent poseidon2Permutation preimage (launch.history calls) deposit))
    source
  · intro i args called
    obtain ⟨_, deposit, sent, commitment, amount, _⟩ := backs i args called
    refine ⟨deposit, sent, ?_, congrArg UInt64.toNat amount⟩
    simpa using backed_spent honest called sent commitment
  · intro i isLeft j isRight same
    obtain ⟨left, first⟩ := Option.isSome_iff_exists.mp isLeft
    obtain ⟨right, second⟩ := Option.isSome_iff_exists.mp isRight
    exact backing_unique honest.canonical honest.opens honest.unbroken first second
      (backs i left first) (same ▸ backs j right second)

/-- The vault holds the amounts of any deposits that were not withdrawn. -/
theorem outstanding_held (honest : Honest poseidon2Permutation launch calls openings preimage)
    {notes : List DepositArgs}
    (owing : notes.Subperm (outstanding poseidon2Permutation preimage (launch.history calls))) :
    (notes.map fun args => args.amount.toNat).sum ≤
      (launch.run calls).lamports deployment.poolVault := by
  have balanced := trace_balanced launch (launch.run_trace calls)
  have paid := owed_paid honest
  rw [Accounting.Balanced] at balanced
  obtain ⟨sorted, same, among⟩ := owing
  have part : (sorted.map fun args => args.amount.toNat).sum ≤
      owed poseidon2Permutation preimage (launch.history calls) :=
    (among.map _).sum_le_sum fun _ _ => Nat.zero_le _
  rw [← (same.map _).sum_eq]
  omega

/-- The vault holds every deposit that was not withdrawn. -/
theorem vault_owes (honest : Honest poseidon2Permutation launch calls openings preimage) :
    owed poseidon2Permutation preimage (launch.history calls) ≤
      (launch.run calls).lamports deployment.poolVault :=
  outstanding_held honest (List.Subperm.refl _)

end Owed

/-! Withdrawals sent one after another, none of them in another's way. -/
section Queue
variable {verifier : List UInt8 → Bool} {deployment : Deployment}

/-- The chain in front of a queue of withdrawals paid for by one account. -/
structure Ready (deployment : Deployment) (payer : Pubkey) (pool : PoolAcc)
    (queue : List WithdrawArgs) (chain : Chain) : Prop where
  stored : chain.pool = some pool
  bounded : Acceptance.Bounded chain.lamports
  unspent : ∀ args ∈ queue, chain.records args.nullifierHash = none
  distinct : (queue.map WithdrawArgs.nullifierHash).Nodup
  covered : (queue.map fun args => args.amount.toNat).sum ≤ chain.lamports deployment.poolVault
  rents : queue.length * deployment.recordRent ≤ chain.lamports payer

/-- A transaction that asks for the withdrawal and is in order. -/
def Asks (payer : Pubkey) (args : WithdrawArgs) (tx : Transaction deployment) : Prop :=
  ∃ accounts, tx.instruction = .withdraw accounts args ∧ Acceptance.InOrder tx accounts args ∧
    accounts.payer = payer

theorem front_taken {payer : Pubkey} {pool : PoolAcc} {args : WithdrawArgs}
    {queue : List WithdrawArgs} {chain : Chain} {tx : Transaction deployment}
    (ready : Ready deployment payer pool (args :: queue) chain) (asks : Asks payer args tx)
    (known : pool.isKnownRoot args.root = true) (proved : Acceptance.Proved verifier args) :
    ∃ after, process verifier deployment chain tx = .ok after := by
  obtain ⟨accounts, called, inOrder, rfl⟩ := asks
  have covered := ready.covered
  have rents := ready.rents
  rw [List.map_cons, List.sum_cons] at covered
  rw [List.length_cons, Nat.succ_mul] at rents
  have funded : Acceptance.Funded deployment chain.lamports accounts args :=
    ⟨by omega, by omega⟩
  rw [Acceptance.withdraw_ok_iff called]
  exact ⟨inOrder, proved, pool, ready.stored, known, ready.unspent args List.mem_cons_self,
    (Acceptance.funded_iff ready.bounded inOrder.signed).mp funded⟩

/-- What a withdrawal does to the accounts of those behind it. -/
theorem withdraw_balances {before after : Chain} {tx : Transaction deployment}
    {accounts : InitWithdraw} {args : WithdrawArgs}
    (called : tx.instruction = .withdraw accounts args)
    (done : process verifier deployment before tx = .ok after) :
    after.pool = before.pool ∧
      (∀ other, other ≠ args.nullifierHash → after.records other = before.records other) ∧
      before.lamports deployment.poolVault ≤
        after.lamports deployment.poolVault + args.amount.toNat ∧
      before.lamports accounts.payer ≤
        after.lamports accounts.payer + deployment.recordRent := by
  have step := process_step done
  cases step with
  | withdraw asked taken pool rented lamports timestamp same checked =>
      obtain ⟨rfl, rfl⟩ := Instruction.withdraw.inj (same.symm.trans called)
      have apart := unsigned_other checked.signed
      have kept := Acceptance.rent_keeps_vault checked.signed checked.rent
      have vault := transfer_balance checked.paid deployment.poolVault
      have rent := transfer_balance checked.rent asked.payer
      have payer := transfer_balance checked.paid asked.payer
      rw [if_pos rfl, kept] at vault
      rw [if_pos rfl] at rent
      rw [if_neg apart.symm] at payer
      refine ⟨rfl, fun other different => Function.update_of_ne different _ _, ?_, ?_⟩
      · change _ ≤ lamports _ + _
        omega
      · change _ ≤ lamports _ + _
        omega
  | pool accounts lamports same fresh signed rent =>
      exact absurd (same.symm.trans called) nofun
  | deposit accounts args pool next lamports timestamp same checked =>
      exact absurd (same.symm.trans called) nofun
  | transfer sender receiver amount lamports same signed moved =>
      exact absurd (same.symm.trans called) nofun

theorem front_leaves {payer : Pubkey} {pool : PoolAcc} {args : WithdrawArgs}
    {queue : List WithdrawArgs} {chain after : Chain} {tx : Transaction deployment}
    (ready : Ready deployment payer pool (args :: queue) chain) (asks : Asks payer args tx)
    (done : process verifier deployment chain tx = .ok after) :
    Ready deployment payer pool queue after := by
  obtain ⟨accounts, called, inOrder, rfl⟩ := asks
  obtain ⟨samePool, sameRecords, vault, payer⟩ := withdraw_balances called done
  have covered := ready.covered
  have rents := ready.rents
  rw [List.map_cons, List.sum_cons] at covered
  rw [List.length_cons, Nat.succ_mul] at rents
  obtain ⟨first, rest⟩ := List.nodup_cons.mp ready.distinct
  refine ⟨samePool.trans ready.stored, Acceptance.step_bounded ready.bounded (process_step done),
    ?_, rest, by omega, by omega⟩
  intro other member
  have apart : other.nullifierHash ≠ args.nullifierHash := by
    intro same
    exact first (same ▸ List.mem_map_of_mem member)
  rw [sameRecords _ apart]
  exact ready.unspent other (List.mem_cons_of_mem _ member)

/-- The whole queue is served, each withdrawal in its turn. -/
theorem queue_served {payer : Pubkey} {pool : PoolAcc} {queue : List WithdrawArgs}
    {txs : List (Transaction deployment)} (asked : List.Forall₂ (Asks payer) queue txs)
    {chain : Chain} (ready : Ready deployment payer pool queue chain)
    (known : ∀ args ∈ queue, pool.isKnownRoot args.root = true)
    (proved : ∀ args ∈ queue, Acceptance.Proved verifier args) :
    Runs.allCommit (process verifier deployment) chain txs = true := by
  induction asked generalizing chain with
  | nil => rfl
  | @cons args tx queue txs asks _ ih =>
      obtain ⟨after, done⟩ := front_taken ready asks (known args List.mem_cons_self)
        (proved args List.mem_cons_self)
      rw [Runs.allCommit, done]
      exact ih (front_leaves ready asks done)
        (fun other member => known other (List.mem_cons_of_mem _ member))
        (fun other member => proved other (List.mem_cons_of_mem _ member))

end Queue

/-! Withdrawing what is outstanding. -/
section Notes
variable (poseidon2Permutation : Vector Field 4 → Vector Field 4)
variable {verifier : List UInt8 → Bool} {deployment : Deployment}

/-- The path of a leaf opens its commitment against the root of the tree. -/
theorem leaf_opens {leaves : List Field} (fits : leaves.length ≤ 2 ^ treeDepth)
    {nullifier secret amount : Field}
    (member : hash3 poseidon2Permutation nullifier secret amount ∈ leaves)
    {shown : Circuit.PublicInputs} (same : shown.amount = amount)
    (hashed : shown.nullifierHash = hash1 poseidon2Permutation nullifier)
    (rooted : shown.root =
      MerkleTree.root (hash2 poseidon2Permutation) 0 leaves treeDepth) :
    ∃ hidden, Accepts poseidon2Permutation shown hidden := by
  obtain ⟨i, inside, at_i⟩ := List.getElem_of_mem member
  let path := MerkleTree.pathFrom (hash2 poseidon2Permutation) (MerkleTree.padded 0 leaves) 0
    treeDepth i
  have climbed := MerkleTree.climb_leaf (hash2 poseidon2Permutation) (MerkleTree.padded 0 leaves)
    treeDepth i (Nat.lt_of_lt_of_le inside fits)
  rw [MerkleTree.padded, List.getD_eq_getElem _ _ inside, at_i] at climbed
  refine ⟨⟨nullifier, secret, ⟨(path.map Prod.fst).toArray, by simp [path]⟩,
    ⟨(path.map Prod.snd).toArray, by simp [path]⟩⟩, ?_⟩
  rw [accepts_iff, merkle_root_climb]
  refine ⟨hashed.symm, ?_⟩
  have zipped : (path.map Prod.fst).zip (path.map Prod.snd) = path :=
    List.zip_of_prod rfl rfl
  rw [same, rooted, MerkleTree.root]
  exact (congrArg _ zipped).trans climbed

theorem correct_earlier {history : List (Transaction deployment)} {tx : Transaction deployment}
    (correct : CorrectRoots poseidon2Permutation (history ++ [tx])) :
    CorrectRoots poseidon2Permutation history := by
  intro k args called
  have inside := called_at_inside called
  have extended : calledAt depositOf (history ++ [tx]) k = some args := by
    rw [calledAt, List.getElem?_append_left inside]
    exact called
  have rooted := correct k args extended
  rwa [List.take_append_of_le_length inside] at rooted

/-- The root pushed last is the root of everything deposited. -/
theorem newest_root {history : List (Transaction deployment)}
    (correct : CorrectRoots poseidon2Permutation history) (some : deposits history ≠ []) :
    fieldOf ((emptyRoot :: pushedRoots history).getLast (by simp)) =
      MerkleTree.root (hash2 poseidon2Permutation) 0 (deposited history) treeDepth := by
  induction history using List.reverseRecOn with
  | nil => exact absurd rfl some
  | append_singleton history tx ih =>
      cases sent : depositOf tx with
      | none =>
          have same := deposits_snoc_other history sent
          rw [same] at some
          simp only [pushedRoots, deposited, same]
          exact ih (correct_earlier poseidon2Permutation correct) some
      | some args =>
          have newest : calledAt depositOf (history ++ [tx]) history.length = .some args := by
            rw [calledAt, List.getElem?_append_right (Nat.le_refl _), Nat.sub_self]
            exact sent
          have rooted := correct history.length args newest
          rw [List.take_of_length_le (by simp)] at rooted
          simp only [pushedRoots, deposits_snoc history sent, List.map_append, List.map_cons,
            List.map_nil, ← List.cons_append, List.getLast_concat]
          exact rooted

/-- A withdrawal of the deposit's note: its hash written reduced, the root pushed last
and the amount it was made for. -/
structure Redeems (preimage : DepositArgs → Field × Field)
    (history : List (Transaction deployment)) (deposit : DepositArgs) (args : WithdrawArgs) :
    Prop where
  nullifierHash : args.nullifierHash = bytesOf (hash1 poseidon2Permutation (preimage deposit).1)
  root : args.root = (emptyRoot :: pushedRoots history).getLast (by simp)
  amount : args.amount = deposit.amount

variable {poseidon2Permutation}
variable {launch : Launch verifier deployment} {calls : List (Transaction deployment)}
variable {openings : Nat → PrivateInputs} {preimage : DepositArgs → Field × Field}

theorem outstanding_sent {deposit : DepositArgs}
    (owing : deposit ∈ outstanding poseidon2Permutation preimage (launch.history calls)) :
    deposit ∈ deposits (launch.history calls) ∧
      ¬ Spent poseidon2Permutation preimage (launch.history calls) deposit := by
  rw [outstanding, List.mem_filter, Bool.not_eq_true', decide_eq_false_iff_not] at owing
  exact owing

theorem redeemed_proved (decides : Decides poseidon2Permutation verifier)
    (honest : Honest poseidon2Permutation launch calls openings preimage)
    {deposit : DepositArgs} {args : WithdrawArgs}
    (owing : deposit ∈ outstanding poseidon2Permutation preimage (launch.history calls))
    (redeems : Redeems poseidon2Permutation preimage (launch.history calls) deposit args) :
    Acceptance.Proved verifier args := by
  obtain ⟨pool, _, follows⟩ := run_follows launch calls
  have sent := (outstanding_sent owing).1
  have own := honest.tied deposit sent
  have member : hash3 poseidon2Permutation (preimage deposit).1 (preimage deposit).2
      (amountField deposit.amount) ∈ deposited (launch.history calls) := by
    rw [← own]
    exact List.mem_map_of_mem sent
  rw [Acceptance.Proved, decides_withdrawal poseidon2Permutation decides]
  apply leaf_opens poseidon2Permutation _ member
  · rw [shownOf, redeems.amount]
  · rw [shownOf, redeems.nullifierHash, fieldOf_bytesOf]
  · rw [shownOf, redeems.root]
    exact newest_root poseidon2Permutation honest.roots (List.ne_nil_of_mem sent)
  · rw [deposited, List.length_map]
    exact follows.bounded

theorem redeemed_unrecorded {deposit : DepositArgs} {args : WithdrawArgs}
    (owing : deposit ∈ outstanding poseidon2Permutation preimage (launch.history calls))
    (redeems : Redeems poseidon2Permutation preimage (launch.history calls) deposit args) :
    (launch.run calls).records args.nullifierHash = none := by
  rw [Acceptance.unrecorded_iff (trace_records launch (launch.run_trace calls))]
  intro earlier member same
  apply (outstanding_sent owing).2
  exact ⟨earlier, member, by rw [same, redeems.nullifierHash, fieldOf_bytesOf]⟩

theorem redeemed_lists {notes : List DepositArgs} {queue : List WithdrawArgs}
    (redeemed : List.Forall₂
      (Redeems poseidon2Permutation preimage (launch.history calls)) notes queue) :
    queue.map WithdrawArgs.nullifierHash =
        (notes.map fun deposit => hash1 poseidon2Permutation (preimage deposit).1).map bytesOf ∧
      (queue.map fun args => args.amount.toNat) = notes.map fun args => args.amount.toNat := by
  induction redeemed with
  | nil => exact ⟨rfl, rfl⟩
  | cons first _ ih =>
      simp only [List.map_cons, ih.1, ih.2, first.nullifierHash, first.amount, and_self]

theorem redeemed_note {notes : List DepositArgs} {queue : List WithdrawArgs}
    (redeemed : List.Forall₂
      (Redeems poseidon2Permutation preimage (launch.history calls)) notes queue)
    {args : WithdrawArgs} (member : args ∈ queue) :
    ∃ deposit ∈ notes,
      Redeems poseidon2Permutation preimage (launch.history calls) deposit args := by
  induction redeemed with
  | nil => exact absurd member List.not_mem_nil
  | @cons note asked notes queue first _ ih =>
      rcases List.mem_cons.mp member with rfl | later
      · exact ⟨note, List.mem_cons_self, first⟩
      · obtain ⟨deposit, owing, redeems⟩ := ih later
        exact ⟨deposit, List.mem_cons_of_mem _ owing, redeems⟩

/-- Any notes outstanding, with nullifiers of their own, are withdrawn one after another
in any order, each to anyone. -/
theorem outstanding_pays (decides : Decides poseidon2Permutation verifier)
    (bounded : Acceptance.Bounded launch.genesis.lamports)
    (honest : Honest poseidon2Permutation launch calls openings preimage)
    {notes : List DepositArgs} {queue : List WithdrawArgs} {txs : List (Transaction deployment)}
    {payer : Pubkey}
    (owing : notes.Subperm (outstanding poseidon2Permutation preimage (launch.history calls)))
    (apart : (notes.map fun deposit => hash1 poseidon2Permutation (preimage deposit).1).Nodup)
    (redeemed : List.Forall₂
      (Redeems poseidon2Permutation preimage (launch.history calls)) notes queue)
    (asked : List.Forall₂ (Asks payer) queue txs)
    (rents : queue.length * deployment.recordRent ≤ (launch.run calls).lamports payer) :
    launch.history (calls ++ txs) = launch.history calls ++ txs := by
  obtain ⟨pool, stored, follows⟩ := run_follows launch calls
  obtain ⟨hashes, amounts⟩ := redeemed_lists redeemed
  have held : (notes.map fun args => args.amount.toNat).sum ≤
      (launch.run calls).lamports deployment.poolVault := outstanding_held honest owing
  have ready : Ready deployment payer pool queue (launch.run calls) := by
    refine ⟨stored, Acceptance.run_bounded launch bounded calls, ?_, ?_, ?_, rents⟩
    · intro args member
      obtain ⟨deposit, note, redeems⟩ := redeemed_note redeemed member
      exact redeemed_unrecorded (owing.subset note) redeems
    · rw [hashes]
      exact apart.map (Function.LeftInverse.injective fieldOf_bytesOf)
    · rw [amounts]
      exact held
  have known : ∀ args ∈ queue, pool.isKnownRoot args.root = true := by
    intro args member
    obtain ⟨deposit, note, redeems⟩ := redeemed_note redeemed member
    rw [(RootWindow.follows_window follows).known, redeems.root]
    have recent := (Acceptance.newest_recent_iff (pushedRoots (launch.history calls)) []).mpr
      (Or.inl (by decide))
    rwa [List.append_nil] at recent
  have proved : ∀ args ∈ queue, Acceptance.Proved verifier args := by
    intro args member
    obtain ⟨deposit, note, redeems⟩ := redeemed_note redeemed member
    exact redeemed_proved decides honest (owing.subset note) redeems
  rw [Acceptance.history_append,
    Runs.all_commit_accepted _ _ _ (queue_served asked ready known proved)]

end Notes

/-! The `Prover.toml` note, deposited and not yet withdrawn. -/
section Note
open Poseidon2

def noteDeposited : DepositArgs := ⟨bytesOf proverCommitment, proverRoot, oneSol⟩

theorem deposited_history :
    (sampleLaunch (idealVerifier poseidon2Permutation)).history [noteDeposit] =
      [noteDeposit] := by
  have commits : Runs.allCommit (process (fun _ => true) sampleDeployment)
      (sampleLaunch (idealVerifier poseidon2Permutation)).started [noteDeposit] = true := by
    decide +kernel
  apply history_verified _ _ _ commits
  intro tx member
  obtain rfl := List.mem_singleton.mp member
  exact deposit_verified _ _ _

theorem nothing_withdrawn (i : Nat) (args : WithdrawArgs) :
    calledAt withdrawalOf [noteDeposit] i ≠ some args := by
  intro called
  match i with
  | 0 => exact absurd called nofun
  | i + 1 => exact absurd called nofun

/-- Before its withdrawal the note puts no more through the sponge than after it. -/
theorem note_used {inputs : Field × Field × Field}
    (used : Used poseidon2Permutation [noteDeposit] (fun _ => proverHidden) notePreimage inputs) :
    Used poseidon2Permutation honestSpend (fun _ => proverHidden) notePreimage inputs := by
  cases used with
  | tree earlier member => exact Used.tree earlier member
  | path called member => exact absurd called (nothing_withdrawn _ _)
  | opening called => exact absurd called (nothing_withdrawn _ _)
  | deposit member => exact Used.deposit member

theorem note_honest :
    Honest poseidon2Permutation (sampleLaunch (idealVerifier poseidon2Permutation)) [noteDeposit]
      (fun _ => proverHidden) notePreimage := by
  constructor
  · rw [deposited_history]
    have whole : CorrectRoots poseidon2Permutation ([noteDeposit] ++ [noteWithdrawal spentHash]) :=
      honest_roots
    exact correct_earlier poseidon2Permutation whole
  · rw [deposited_history]
    exact honest_tied
  · rw [deposited_history]
    exact fun _ member => absurd member List.not_mem_nil
  · rw [deposited_history]
    exact fun i args called => absurd called (nothing_withdrawn i args)
  · rw [deposited_history]
    constructor
    · intro left right inLeft inRight same
      exact honest_unbroken.injective left right (note_used inLeft) (note_used inRight) same
    · intro inputs used
      exact honest_unbroken.nonzero inputs (note_used used)

theorem note_outstanding :
    outstanding poseidon2Permutation notePreimage [noteDeposit] = [noteDeposited] := rfl

/-- One SOL is owed, and it is there. -/
theorem note_owed :
    oneSol.toNat ≤ ((sampleLaunch (idealVerifier poseidon2Permutation)).run
      [noteDeposit]).lamports sampleDeployment.poolVault := by
  have owes := vault_owes note_honest
  rw [deposited_history] at owes
  exact owes

theorem note_redeemed :
    Redeems poseidon2Permutation notePreimage [noteDeposit] noteDeposited
      (sampleArgs spentHash proverRoot oneSol) := by
  have hashed := ((accepts_iff _ _ _).mp prover_accepted).1
  refine ⟨?_, rfl, rfl⟩
  rw [notePreimage, hashed]
  decide +kernel

theorem note_pays :
    (sampleLaunch (idealVerifier poseidon2Permutation)).history
        ([noteDeposit] ++ [noteWithdrawal spentHash]) =
      (sampleLaunch (idealVerifier poseidon2Permutation)).history [noteDeposit] ++
        [noteWithdrawal spentHash] := by
  have owing : [noteDeposited].Subperm (outstanding poseidon2Permutation notePreimage
      ((sampleLaunch (idealVerifier poseidon2Permutation)).history [noteDeposit])) := by
    rw [deposited_history, note_outstanding]
  have redeemed : List.Forall₂ (Redeems poseidon2Permutation notePreimage
      ((sampleLaunch (idealVerifier poseidon2Permutation)).history [noteDeposit]))
      [noteDeposited] [sampleArgs spentHash proverRoot oneSol] := by
    rw [deposited_history]
    exact List.Forall₂.cons note_redeemed List.Forall₂.nil
  have asks : Asks payer (sampleArgs spentHash proverRoot oneSol) (noteWithdrawal spentHash) := by
    refine ⟨_, rfl, ?_, rfl⟩
    exact (Acceptance.withdraw_ok_iff rfl |>.mp Acceptance.note_withdrawal_taken).1
  exact outstanding_pays (ideal_decides poseidon2Permutation) Acceptance.sample_bounded
    note_honest owing (List.nodup_singleton _) redeemed (List.Forall₂.cons asks List.Forall₂.nil)
    (by decide +kernel)

end Note

end PrivateTransfer.Solvency
