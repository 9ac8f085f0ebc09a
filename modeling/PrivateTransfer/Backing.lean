import Mathlib.Data.List.Infix
import PrivateTransfer.Authenticity

/-!
Value backing. A withdrawal names an amount and a nullifier; what stands behind
it is a deposit of the same commitment. The circuit puts the amount into the
commitment, the program never relates a deposit's commitment to what it paid, so
backing holds for depositors who commit to their own amount.
-/

namespace PrivateTransfer.Backing

open PoolState hiding treeDepth
open PoolProgram PoolRuns Accounting Verifier Circuit Authenticity

section Backing
variable (poseidon2Permutation : Vector Field 4 → Vector Field 4)
variable {verifier : List UInt8 → Bool} {deployment : Deployment}

/-- Transaction `k` of the history raised the vault by exactly `amount`. -/
def Moved (launch : Launch verifier deployment) (history : List (Transaction deployment))
    (k amount : Nat) : Prop :=
  (launch.run (history.take (k + 1))).lamports deployment.poolVault =
    (launch.run (history.take k)).lamports deployment.poolVault + amount

/-- Deposit `k` stands behind withdrawal `i`. -/
def Backs (launch : Launch verifier deployment) (history : List (Transaction deployment))
    (openings : Nat → PrivateInputs) (i k : Nat) (args : WithdrawArgs) : Prop :=
  k < i ∧ ∃ deposit, calledAt depositOf history k = some deposit ∧
    fieldOf deposit.commitment =
      commitmentOf poseidon2Permutation (shownOf args) (openings i) ∧
    deposit.amount = args.amount ∧ Moved launch history k args.amount.toNat

/-- Withdrawals are matched one to one with earlier deposits of their commitment
and their amount. -/
def Backed (launch : Launch verifier deployment) (history : List (Transaction deployment))
    (openings : Nat → PrivateInputs) : Prop :=
  ∃ source : Nat → Nat,
    (∀ i args, calledAt withdrawalOf history i = some args →
      Backs poseidon2Permutation launch history openings i (source i) args) ∧
    Set.InjOn source {i | (calledAt withdrawalOf history i).isSome}

/-- Every deposit carries the root of all commitments so far, its own included. -/
def CorrectRoots (history : List (Transaction deployment)) : Prop :=
  ∀ k args, calledAt depositOf history k = some args →
    fieldOf args.newRoot =
      MerkleTree.root (hash2 poseidon2Permutation) 0 (deposited (history.take (k + 1))) treeDepth

/-- Every deposit commits to the amount it pays, under a nullifier and a secret. -/
def Tied (preimage : DepositArgs → Field × Field) (calls : List (Transaction deployment)) : Prop :=
  ∀ args ∈ deposits calls, fieldOf args.commitment =
    hash3 poseidon2Permutation (preimage args).1 (preimage args).2 (amountField args.amount)

/-- The inputs the sponge is run on in the course of a run: in the trees of the
deposited commitments, along the openings' paths, and under the commitments. -/
inductive Used (history : List (Transaction deployment)) (openings : Nat → PrivateInputs)
    (preimage : DepositArgs → Field × Field) : Field × Field × Field → Prop
  | tree {leaves : List Field} {inputs : Field × Field} (earlier : leaves <+: deposited history)
      (member : MerkleTree.TreeInputs (hash2 poseidon2Permutation)
        (MerkleTree.padded 0 leaves) treeDepth inputs) :
      Used history openings preimage (inputs.1, inputs.2, 0)
  | path {i : Nat} {args : WithdrawArgs} {inputs : Field × Field}
      (called : calledAt withdrawalOf history i = some args)
      (member : inputs ∈ MerkleTree.climbInputs (hash2 poseidon2Permutation)
        (commitmentOf poseidon2Permutation (shownOf args) (openings i)) (pathOf (openings i))) :
      Used history openings preimage (inputs.1, inputs.2, 0)
  | opening {i : Nat} {args : WithdrawArgs}
      (called : calledAt withdrawalOf history i = some args) :
      Used history openings preimage
        ((openings i).nullifier, (openings i).secret, amountField args.amount)
  | deposit {args : DepositArgs} (member : args ∈ deposits history) :
      Used history openings preimage
        ((preimage args).1, (preimage args).2, amountField args.amount)

/-- On `used` inputs the hash has no collision and misses the empty leaf. -/
structure Unbroken (used : Field × Field × Field → Prop) : Prop where
  injective : ∀ left right, used left → used right →
    hash3 poseidon2Permutation left.1 left.2.1 left.2.2 =
      hash3 poseidon2Permutation right.1 right.2.1 right.2.2 → left = right
  nonzero : ∀ inputs, used inputs →
    hash3 poseidon2Permutation inputs.1 inputs.2.1 inputs.2.2 ≠ 0

/-- Calls with pairwise different keys sit at one position each. -/
theorem called_at_unique {Called : Type} {read : Transaction deployment → Option Called}
    {history : List (Transaction deployment)} {Key : Type} (key : Called → Key)
    (distinct : ((history.filterMap read).map key).Nodup) {i j : Nat} {left right : Called}
    (first : calledAt read history i = some left) (second : calledAt read history j = some right)
    (same : key left = key right) : i = j := by
  induction history generalizing i j with
  | nil => exact absurd first (by simp [calledAt])
  | cons tx rest ih =>
      have tail : ((rest.filterMap read).map key).Nodup := by
        cases called : read tx with
        | none => rwa [List.filterMap_cons_none called] at distinct
        | some args =>
            rw [List.filterMap_cons_some called] at distinct
            exact (List.nodup_cons.mp distinct).2
      have clash : ∀ {args other : Called} {k : Nat}, read tx = some args →
          calledAt read rest k = some other → key args ≠ key other := by
        intro args other k called later equal
        rw [List.filterMap_cons_some called, List.map_cons, equal] at distinct
        exact (List.nodup_cons.mp distinct).1
          (List.mem_map.mpr ⟨other, called_at_sent later, rfl⟩)
      cases i with
      | zero =>
          cases j with
          | zero => rfl
          | succ j => exact absurd same (clash first second)
      | succ i =>
          cases j with
          | zero => exact absurd same.symm (clash second first)
          | succ j => exact congrArg (· + 1) (ih tail first second)

/-- A committed deposit moves exactly its amount into the vault. -/
theorem deposit_moved (launch : Launch verifier deployment)
    (calls : List (Transaction deployment)) {k : Nat} {args : DepositArgs}
    (called : calledAt depositOf (launch.history calls) k = some args) :
    Moved launch (launch.history calls) k args.amount.toNat := by
  obtain ⟨tx, after, cut, extended, sent⟩ := called_at_cut called
  obtain ⟨middle, next, earlier, done⟩ := Runs.trace_cut _ (launch.run_trace calls) cut
  have before : launch.run ((launch.history calls).take k) = middle := Runs.trace_run _ earlier
  have later : launch.run ((launch.history calls).take (k + 1)) = next := by
    rw [extended]
    exact Runs.trace_run _ (Runs.Trace.snoc earlier done)
  obtain ⟨_, _, _, _, _, checked, rfl⟩ := step_deposits (process_step done) sent
  have moved := transfer_balance checked.paid deployment.poolVault
  rw [if_neg (unsigned_other checked.signed), if_pos rfl, Nat.add_zero] at moved
  rw [Moved, before, later]
  exact moved

section Matching
variable {poseidon2Permutation}
variable {launch : Launch verifier deployment} {calls : List (Transaction deployment)}
variable {openings : Nat → PrivateInputs} {preimage : DepositArgs → Field × Field}

/-- Compression is hashing with a zero third input, so it has no collision either. -/
theorem unbroken_collision {used : Field × Field × Field → Prop}
    (unbroken : Unbroken poseidon2Permutation used) {involved : Field × Field → Prop}
    (hashed : ∀ inputs, involved inputs → used (inputs.1, inputs.2, 0)) :
    ¬ MerkleTree.Collision (hash2 poseidon2Permutation) involved := by
  rintro ⟨left, right, atLeft, atRight, apart, same⟩
  have equal := unbroken.injective _ _ (hashed left atLeft) (hashed right atRight) same
  obtain ⟨first, rest⟩ := Prod.mk.inj equal
  exact apart (Prod.ext first (Prod.mk.inj rest).1)

/-- Nothing opens against the all-zero root. -/
theorem zero_root_unopened
    (unbroken : Unbroken poseidon2Permutation
      (Used poseidon2Permutation (launch.history calls) openings preimage))
    {i : Nat} {args : WithdrawArgs}
    (called : calledAt withdrawalOf (launch.history calls) i = some args)
    (accepted : Accepts poseidon2Permutation (shownOf args) (openings i)) :
    args.root ≠ emptyRoot := by
  intro zero
  have nonempty : pathOf (openings i) ≠ [] := by
    intro none
    have long := path_of_length (openings i)
    rw [none] at long
    exact absurd long (by decide)
  obtain ⟨inputs, member, last⟩ := MerkleTree.climb_last (hash2 poseidon2Permutation)
    (commitmentOf poseidon2Permutation (shownOf args) (openings i)) nonempty
  rw [accepts_iff, merkle_root_climb] at accepted
  have empty : fieldOf emptyRoot = 0 := by decide
  have root : (shownOf args).root = 0 := by rw [shownOf, zero, empty]
  -- the last hash of the path is the root it was held against
  have lands : hash2 poseidon2Permutation inputs.1 inputs.2 = 0 :=
    last.symm.trans (accepted.2.trans root)
  exact unbroken.nonzero _ (Used.path called member) lands

theorem deposited_earlier (history : List (Transaction deployment)) (k : Nat) :
    deposited (history.take k) <+: deposited history :=
  ((List.take_prefix k history).filterMap depositOf).map _

/-- Correct roots are genuine, over the trees of all earlier commitments. -/
theorem correct_genuine {history : List (Transaction deployment)}
    (correct : CorrectRoots poseidon2Permutation history) :
    GenuineRoots poseidon2Permutation (deposited history).inits history := by
  intro k args called
  refine ⟨deposited (history.take (k + 1)), ?_, fun leaf member => Or.inr member,
    correct k args called⟩
  exact (List.mem_inits _ _).mpr (deposited_earlier history (k + 1))

theorem opening_deposited
    (correct : CorrectRoots poseidon2Permutation (launch.history calls))
    (opens : Opens poseidon2Permutation (launch.history calls) openings)
    (unbroken : Unbroken poseidon2Permutation
      (Used poseidon2Permutation (launch.history calls) openings preimage))
    {i : Nat} {args : WithdrawArgs}
    (called : calledAt withdrawalOf (launch.history calls) i = some args) :
    ∃ k < i, ∃ deposit, calledAt depositOf (launch.history calls) k = some deposit ∧
      fieldOf deposit.commitment =
        commitmentOf poseidon2Permutation (shownOf args) (openings i) := by
  have leaf : NoEmptyLeaf poseidon2Permutation (launch.history calls) openings :=
    fun j other there => unbroken.nonzero _ (Used.opening there)
  have nonempty := zero_root_unopened unbroken called (opens i args called)
  rcases genuine_opened poseidon2Permutation launch calls (correct_genuine correct) opens leaf
    i args called nonempty with member | collision
  · obtain ⟨deposit, sent, commitment⟩ := List.mem_map.mp member
    obtain ⟨k, earlier, there⟩ := sent_called_at sent
    exact ⟨k, earlier, deposit, there, commitment⟩
  · refine absurd collision (unbroken_collision unbroken ?_)
    rintro inputs (path | ⟨leaves, member, used⟩)
    · exact Used.path called path
    · exact Used.tree ((List.mem_inits _ _).mp member) used

/-- Two withdrawals opened with one nullifier are the same withdrawal. -/
theorem nullifier_unique
    (canonical : ∀ args ∈ withdrawals (launch.history calls), Canonical args.nullifierHash)
    (opens : Opens poseidon2Permutation (launch.history calls) openings) {i j : Nat}
    {left right : WithdrawArgs}
    (first : calledAt withdrawalOf (launch.history calls) i = some left)
    (second : calledAt withdrawalOf (launch.history calls) j = some right)
    (same : (openings i).nullifier = (openings j).nullifier) : i = j := by
  have records := trace_records launch (launch.run_trace calls)
  have reduced : ∀ {k args}, calledAt withdrawalOf (launch.history calls) k = some args →
      Canonical args.nullifierHash := by
    intro k args called
    exact canonical args (called_at_sent called)
  have leftHash := ((accepts_iff _ _ _).mp (opens i left first)).1
  have rightHash := ((accepts_iff _ _ _).mp (opens j right second)).1
  rw [same] at leftHash
  have denote : fieldOf left.nullifierHash = fieldOf right.nullifierHash :=
    leftHash.symm.trans rightHash
  exact called_at_unique WithdrawArgs.nullifierHash records.distinct first second
    (canonical_injective (reduced first) (reduced second) denote)

/-- A withdrawal's opening and its deposit's preimage are one input of the sponge, so the
deposit paid what the withdrawal takes. -/
theorem withdrawal_backed
    (correct : CorrectRoots poseidon2Permutation (launch.history calls))
    (tied : Tied poseidon2Permutation preimage (launch.history calls))
    (opens : Opens poseidon2Permutation (launch.history calls) openings)
    (unbroken : Unbroken poseidon2Permutation
      (Used poseidon2Permutation (launch.history calls) openings preimage))
    {i : Nat} {args : WithdrawArgs}
    (called : calledAt withdrawalOf (launch.history calls) i = some args) :
    ∃ k, Backs poseidon2Permutation launch (launch.history calls) openings i k args := by
  obtain ⟨k, earlier, deposit, sent, commitment⟩ := opening_deposited correct opens unbroken called
  have member := called_at_sent sent
  have own := tied deposit member
  have equal := unbroken.injective _ _ (Used.deposit member) (Used.opening called)
    (own.symm.trans commitment)
  have amount : deposit.amount = args.amount :=
    amount_field_injective (Prod.mk.inj (Prod.mk.inj equal).2).2
  have moved := deposit_moved launch calls sent
  rw [amount] at moved
  exact ⟨k, earlier, deposit, sent, commitment, amount, moved⟩

/-- No deposit stands behind two withdrawals: they would share its nullifier. -/
theorem backing_unique
    (canonical : ∀ args ∈ withdrawals (launch.history calls), Canonical args.nullifierHash)
    (opens : Opens poseidon2Permutation (launch.history calls) openings)
    (unbroken : Unbroken poseidon2Permutation
      (Used poseidon2Permutation (launch.history calls) openings preimage))
    {i j k : Nat} {left right : WithdrawArgs}
    (first : calledAt withdrawalOf (launch.history calls) i = some left)
    (second : calledAt withdrawalOf (launch.history calls) j = some right)
    (leftBacked : Backs poseidon2Permutation launch (launch.history calls) openings i k left)
    (rightBacked : Backs poseidon2Permutation launch (launch.history calls) openings j k right) :
    i = j := by
  obtain ⟨_, leftDeposit, leftSent, leftCommitment, _⟩ := leftBacked
  obtain ⟨_, rightDeposit, rightSent, rightCommitment, _⟩ := rightBacked
  rw [rightSent] at leftSent
  obtain rfl := Option.some.inj leftSent
  have equal := unbroken.injective _ _ (Used.opening first) (Used.opening second)
    (leftCommitment.symm.trans rightCommitment)
  exact nullifier_unique canonical opens first second (Prod.mk.inj equal).1

end Matching

/-- Where every deposit commits to its own amount, every withdrawal is backed. -/
theorem tied_deposits_back (decides : Decides poseidon2Permutation verifier)
    (launch : Launch verifier deployment) (calls : List (Transaction deployment))
    (correct : CorrectRoots poseidon2Permutation (launch.history calls))
    (canonical : ∀ args ∈ withdrawals calls, Canonical args.nullifierHash)
    (preimage : DepositArgs → Field × Field) (tied : Tied poseidon2Permutation preimage calls) :
    (∃ openings, Opens poseidon2Permutation (launch.history calls) openings) ∧
      ∀ openings, Opens poseidon2Permutation (launch.history calls) openings →
        Unbroken poseidon2Permutation
          (Used poseidon2Permutation (launch.history calls) openings preimage) →
        Backed poseidon2Permutation launch (launch.history calls) openings := by
  refine ⟨opens_exist poseidon2Permutation decides launch calls, ?_⟩
  intro openings opens unbroken
  have accepted : Tied poseidon2Permutation preimage (launch.history calls) :=
    fun args member => tied args (launch.sent_subset calls member)
  have behind : ∀ i, ∃ k, ∀ args, calledAt withdrawalOf (launch.history calls) i = some args →
      Backs poseidon2Permutation launch (launch.history calls) openings i k args := by
    intro i
    cases called : calledAt withdrawalOf (launch.history calls) i with
    | none => exact ⟨0, nofun⟩
    | some args =>
        obtain ⟨k, backs⟩ := withdrawal_backed correct accepted opens unbroken called
        exact ⟨k, fun _ same => Option.some.inj same ▸ backs⟩
  choose source backs using behind
  refine ⟨source, backs, ?_⟩
  intro i isLeft j isRight same
  obtain ⟨left, first⟩ := Option.isSome_iff_exists.mp isLeft
  obtain ⟨right, second⟩ := Option.isSome_iff_exists.mp isRight
  exact backing_unique (fun args member => canonical args (launch.sent_subset calls member)) opens
    unbroken first second (backs i left first) (same ▸ backs j right second)

end Backing

/-! The `Prover.toml` note deposited for its own amount and withdrawn. Everything the
sponge is run on is a row of the note's table or the note itself. -/
section Honest
open Poseidon2 Nullifiers

def spongeRows : List ((Field × Field × Field) × Field) :=
  noteRows.map (fun row => ((row.1.1, row.1.2, 0), row.2)) ++
    [((proverHidden.nullifier, proverHidden.secret, proverShown.amount), proverCommitment)]

def notePreimage (_ : DepositArgs) : Field × Field := (proverHidden.nullifier, proverHidden.secret)

def sponge (inputs : Field × Field × Field) : Field :=
  hash3 poseidon2Permutation inputs.1 inputs.2.1 inputs.2.2

theorem compressed_row {inputs : Field × Field}
    (row : (inputs, hash2 poseidon2Permutation inputs.1 inputs.2) ∈ noteRows) :
    ((inputs.1, inputs.2, (0 : Field)), sponge (inputs.1, inputs.2, 0)) ∈ spongeRows :=
  List.mem_append_left _ (List.mem_map.mpr ⟨_, row, rfl⟩)

theorem note_row :
    ((proverHidden.nullifier, proverHidden.secret, proverShown.amount),
      sponge (proverHidden.nullifier, proverHidden.secret, proverShown.amount)) ∈ spongeRows := by
  apply List.mem_append_right
  rw [sponge, prover_commitment]
  exact List.mem_singleton_self _

theorem honest_deposited : deposited honestSpend = [proverCommitment] :=
  congrArg (fun leaf => [leaf]) (fieldOf_bytesOf _)

theorem honest_used {inputs : Field × Field × Field}
    (used : Used poseidon2Permutation honestSpend (fun _ => proverHidden) notePreimage inputs) :
    (inputs, sponge inputs) ∈ spongeRows := by
  cases used with
  | tree earlier member =>
      apply compressed_row
      rw [honest_deposited, List.prefix_cons_iff] at earlier
      rcases earlier with rfl | ⟨rest, rfl, none⟩
      · exact empty_tree_rows member
      · obtain rfl := List.prefix_nil.mp none
        exact note_tree_rows member
  | path called member =>
      obtain rfl := honest_called called
      rw [note_opened, note_path] at member
      exact compressed_row (climb_rows member)
  | opening called =>
      obtain rfl := honest_called called
      rw [sampleArgs, note_amount]
      exact note_row
  | deposit member =>
      obtain rfl := List.mem_singleton.mp member
      rw [notePreimage, note_amount]
      exact note_row

theorem sponge_injective : MerkleTree.rowsInjective spongeRows = true := by decide +kernel

theorem sponge_nonzero : (spongeRows.all fun row => row.2 != 0) = true := by decide +kernel

theorem honest_unbroken :
    Unbroken poseidon2Permutation
      (Used poseidon2Permutation honestSpend (fun _ => proverHidden) notePreimage) where
  injective := by
    intro left right inLeft inRight same
    exact MerkleTree.rows_injective sponge_injective (honest_used inLeft) (honest_used inRight) same
  nonzero := by
    intro inputs used
    have row := List.all_eq_true.mp sponge_nonzero (inputs, sponge inputs) (honest_used used)
    have nonzero : sponge inputs ≠ 0 := bne_iff_ne.mp row
    exact nonzero

theorem honest_roots : CorrectRoots poseidon2Permutation honestSpend := by
  intro k args called
  match k with
  | 0 =>
      obtain rfl := Option.some.inj called
      have leaves : deposited (honestSpend.take 1) = [proverCommitment] := honest_deposited
      rw [leaves]
      exact note_root
  | 1 => exact absurd called nofun
  | k + 2 => exact absurd called nofun

theorem honest_tied : Tied poseidon2Permutation notePreimage honestSpend := by
  intro args member
  obtain rfl := List.mem_singleton.mp member
  rw [notePreimage, note_amount, prover_commitment]
  exact fieldOf_bytesOf _

/-- The honest withdrawal is backed by the honest deposit. -/
theorem honest_backed :
    Backed poseidon2Permutation (sampleLaunch (idealVerifier poseidon2Permutation))
      ((sampleLaunch (idealVerifier poseidon2Permutation)).history honestSpend)
      (fun _ => proverHidden) := by
  have backing := tied_deposits_back poseidon2Permutation (ideal_decides poseidon2Permutation)
    (sampleLaunch (idealVerifier poseidon2Permutation)) honestSpend
    (by rw [honest_history]; exact honest_roots) honest_canonical notePreimage honest_tied
  apply backing.2
  · rw [honest_history]
    exact honest_opens
  · rw [honest_history]
    exact honest_unbroken

end Honest

/-! The `Prover.toml` note of one SOL, deposited for a thousandth of it. A second
depositor's lamports make up the difference. -/
section Theft
open Poseidon2 Nullifiers

/-- The commitment of the second depositor, to two SOL. -/
def otherCommitment : Field := 0x2e0e13c054b3abc0ecfbf67bc5f3e7c468393dae2e0b76a5757a1dc4e10e298b

def pairValues : List Field :=
  [0x1f69c2fef5464b5b5c0548152a598999d4a7a5cc5f9f83a95b3e72c499e28c26,
   0x1827a76aef2e98b86c3d1865bc8f788578939fd6cef0fc2c4fb794c68ca2df6f,
   0x1a3c6242f998fd0db2e4dc05592e840cb126b1bc07ac86613024981a4f69a4d2,
   0x0a76af96d40748a03f74e9c25aad05958da1e9ee246951a68b78ce5e7bd60b83,
   0x0faa4d8ba1275ddd83ef524d75be75fc9776ed7929dc310d510a34e838469748,
   0x22ac766bb4fdec3ae97a93416ec2e7f2ec31710a1a9b4d926fe5add59370eb00,
   0x1ec9e984d22ae1a15f5490fab0b922d3d6ca9f3fb3d60e630ea8e489218a3af8,
   0x22b638fa0f4e9ce921a021c448d264686092278566ccd3e85c72c745a27a8d7d,
   0x2cc0e9c1e20df78fd3b7da0125d74026ae95d5fa7fde5b9a1781905e5ecf93dd,
   0x124f1e5b3edeeb9fa01a8b765508717a315d46ac191a85169b503f545a03e65c,
   0x2fa9c1a0608273fbb2e5da942257a9c7cf5281a96eef2bdef1a9a86d984f97df,
   0x22e7cce335728600719ce15d95243fe8a38445dfdacb5487e28dcde35483216d,
   0x1a3767e836b6678faa9cde90563a1097439ed0b34a6062746d12b15afe96d41b,
   0x1ea127946c1853383f413405e0059aef781ba03ed2869f580782b52b0c677d8c,
   0x147b31ecdbd01063404262853c72826cc2ab1988785cb9c41b0fa296b766a151,
   0x23831829e1cd76d9f7badcd9003ce518e0ae00b540f592b7d9b1f13db5907a1c,
   0x23fc117fa8cd37db23860c04089928ec58dd00218a2b86263a4ce7ca058ed95f,
   0x268d09646e742ffb2a767d6467ff9c12a705082bef32ab8c13c7dfd31e45b871,
   0x0e1408018d0214e3f38e954fb0aceaffc8c14a04f3efcb98286dbc69dbaeb826,
   0x2cedc3c5993192028cd27d05400f7bb1c2c0bf486d1d1fbbadd1334a50f7ba6a]

theorem pair_values :
    MerkleTree.climbsBy (hash2 poseidon2Permutation) otherCommitment
      ((proverCommitment, false) :: leftPath.drop 1) pairValues = true := by
  decide +kernel

def pairRoot : Bytes32 := bytesOf (pairValues.getLastD 0)

theorem pair_root :
    fieldOf pairRoot = MerkleTree.root (hash2 poseidon2Permutation) 0
      [proverCommitment, otherCommitment] treeDepth := by
  have path : MerkleTree.pathFrom (hash2 poseidon2Permutation)
      (MerkleTree.padded 0 [proverCommitment, otherCommitment]) 0 treeDepth 1 =
        (proverCommitment, false) :: leftPath.drop 1 := by
    rw [treeDepth, MerkleTree.pathFrom, ← left_path, List.range_eq_range', List.range'_succ,
      List.map_cons, List.drop_one, List.tail_cons]
    exact congrArg _ (MerkleTree.path_left _ 0 [proverCommitment, otherCommitment] 1 19 (by decide))
  have climbed := MerkleTree.climb_leaf (hash2 poseidon2Permutation)
    (MerkleTree.padded 0 [proverCommitment, otherCommitment]) treeDepth 1 (by decide)
  rw [path] at climbed
  rw [MerkleTree.root, ← climbed]
  exact (fieldOf_bytesOf _).trans (MerkleTree.climbs_by_end _ pair_values).symm

def underfunded : Transaction sampleDeployment :=
  sampleDeposit (bytesOf proverCommitment) proverRoot 1_000_000

def otherDeposit : Transaction sampleDeployment :=
  sampleDeposit (bytesOf otherCommitment) pairRoot 2_000_000_000

def theft : List (Transaction sampleDeployment) :=
  [underfunded, otherDeposit, noteWithdrawal spentHash]

theorem theft_commits :
    Runs.allCommit (process (fun _ => true) sampleDeployment)
      (sampleLaunch (idealVerifier poseidon2Permutation)).started theft = true := by
  decide +kernel

theorem theft_history :
    (sampleLaunch (idealVerifier poseidon2Permutation)).history theft = theft := by
  apply history_verified _ _ _ theft_commits
  intro tx member
  simp only [theft, List.mem_cons, List.not_mem_nil, or_false] at member
  rcases member with rfl | rfl | rfl
  · exact deposit_verified _ _ _
  · exact deposit_verified _ _ _
  · exact note_verified spentHash spent_hash_denotes

theorem theft_roots : CorrectRoots poseidon2Permutation theft := by
  intro k args called
  match k with
  | 0 =>
      obtain rfl := Option.some.inj called
      have leaves : deposited (theft.take 1) = [proverCommitment] :=
        congrArg (fun leaf => [leaf]) (fieldOf_bytesOf _)
      rw [leaves]
      exact note_root
  | 1 =>
      obtain rfl := Option.some.inj called
      have leaves : deposited (theft.take 2) = [proverCommitment, otherCommitment] :=
        congrArg₂ (fun first other => [first, other]) (fieldOf_bytesOf _) (fieldOf_bytesOf _)
      rw [leaves]
      exact pair_root
  | 2 => exact absurd called nofun
  | k + 3 => exact absurd called nofun

theorem theft_opens : Opens poseidon2Permutation theft fun _ => proverHidden := by
  intro i args called
  match i with
  | 0 => exact absurd called nofun
  | 1 => exact absurd called nofun
  | 2 =>
      obtain rfl := Option.some.inj called
      exact note_accepted spentHash spent_hash_denotes
  | i + 3 => exact absurd called nofun

/-- One SOL leaves for a commitment that a thousandth of a SOL was paid in for, and
no other way of opening the withdrawal finds a deposit of one SOL. -/
theorem theft_unbacked :
    Decides poseidon2Permutation (idealVerifier poseidon2Permutation) ∧
      CorrectRoots poseidon2Permutation
        ((sampleLaunch (idealVerifier poseidon2Permutation)).history theft) ∧
      Opens poseidon2Permutation
        ((sampleLaunch (idealVerifier poseidon2Permutation)).history theft)
        (fun _ => proverHidden) ∧
      ∀ openings, ¬ Backed poseidon2Permutation (sampleLaunch (idealVerifier poseidon2Permutation))
        ((sampleLaunch (idealVerifier poseidon2Permutation)).history theft) openings := by
  rw [theft_history]
  refine ⟨ideal_decides poseidon2Permutation, theft_roots, theft_opens, ?_⟩
  rintro openings ⟨source, backs, _⟩
  obtain ⟨earlier, deposit, sent, _, amount, _⟩ :=
    backs 2 (sampleArgs spentHash proverRoot oneSol) rfl
  -- the source would be one of the two deposits, and neither paid one SOL
  match at_source : source 2 with
  | 0 =>
      rw [at_source] at sent
      obtain rfl := Option.some.inj sent
      exact absurd amount (by decide)
  | 1 =>
      rw [at_source] at sent
      obtain rfl := Option.some.inj sent
      exact absurd amount (by decide)
  | k + 2 => omega

end Theft

end PrivateTransfer.Backing
