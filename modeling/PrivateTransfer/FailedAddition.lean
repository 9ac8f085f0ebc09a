import PrivateTransfer.Outages
import PrivateTransfer.ServedProofs

/-!
`add_leaf` when a hash or a store call fails. It returns the error and undoes nothing, so the
levels it has overwritten stay. An old leaf's proof shows that exactly if its path meets the
new leaf's on one of them; below the lowest set bit of the index no path does.
-/

namespace PrivateTransfer.FailedAddition

open MerkleService (Hex64 emptyLeaf hexOf)
open RedisTree Script TreeWrites

section Strictness

theorem index_strict (level : List Hex64) (i : Nat) : Strict (index level i) := by
  rw [index]
  split <;> trivial

theorem sibling_strict (d idx : Nat) (level : List Hex64) : Strict (siblingOf d idx level) := by
  rw [siblingOf]
  split
  · exact index_strict level _
  · exact strict_bind (strict_perform _) fun _ => strict_pure _

theorem grow_strict (d missing : Nat) (level : List Hex64) :
    Strict (growLevel d missing level) := by
  induction missing generalizing level with
  | zero => exact strict_pure level
  | succ missing ih => exact strict_bind (strict_perform _) fun _ => ih _

theorem update_strict (remaining d idx : Nat) (level : List Hex64) :
    Strict (updatePath remaining d idx level) := by
  induction remaining generalizing d idx level with
  | zero => exact strict_pure level
  | succ remaining ih =>
      apply strict_bind (sibling_strict d idx level)
      intro sibling
      apply strict_bind (index_strict level idx)
      intro currentHash
      apply strict_bind (strict_perform _)
      intro parent
      apply strict_bind (strict_perform _)
      intro stored
      apply strict_bind (grow_strict (d + 1) _ _)
      intro grown
      exact strict_bind (strict_perform _) fun _ => ih _ _ _

theorem add_strict (leafIndex : Nat) (commitment : Hex64) (depth : Nat) :
    Strict (addLeaf leafIndex commitment depth) := by
  apply strict_bind (strict_perform _)
  intro stored
  dsimp only
  split
  · exact strict_bind (strict_perform _) fun _ => strict_pure _
  · apply strict_bind (strict_perform _)
    intro level0
    apply strict_bind (strict_perform _)
    intro _
    apply strict_bind (update_strict depth 0 leafIndex _)
    intro top
    apply strict_bind (index_strict top 0)
    intro root
    apply strict_bind (strict_perform _)
    intro _
    exact strict_bind (strict_perform _) fun _ => strict_pure root

end Strictness

section Failures
variable (compress : Hex64 → Hex64 → Hex64) (depth : Nat) (leaves : List Hex64)
  (commitment : Hex64)

/-- `add_leaf` at the stored size, its request number `point` failing. -/
def failedAdd (failure : Request → TreeError) (point : Nat) (landed : Bool) (store : Store) :
    Except TreeError Hex64 × Store :=
  let (result, reached, _) := run (failing (serve compress) failure point landed)
    (addLeaf leaves.length commitment depth) (store, 0)
  (result, reached)

/-- The requests of `add_leaf` that took effect before the failure. -/
def effects (point : Nat) (landed : Bool) (store : Store) : List Request :=
  (asks compress store (addLeaf leaves.length commitment depth)).take (point + landed.toNat)

/-- Root, size and every old leaf's proof are those of before, and the proofs fold. -/
structure Unchanged (store reached : Store) : Prop where
  root : reached.root = store.root
  size : reached.size = store.size
  proofs : ∀ i (inside : i < leaves.length), ∃ proof isEven root,
    (finish compress store (getProof i depth)).1 = .ok (proof, isEven, root) ∧
    store.root = some root ∧ MerkleTree.climb compress leaves[i] (proof.zip isEven) = root ∧
    (finish compress reached (getProof i depth)).1 = .ok (proof, isEven, root)

/-- No write shows: where a level is met from the left its node is the old one, so is the root,
and the size has not been written. -/
structure Harmless (made : List Request) : Prop where
  levels : ∀ d < depth, wroteLevel made d = true → leaves.length / 2 ^ d % 2 = 1 →
    MerkleTree.node compress (MerkleTree.padded emptyLeaf (leaves ++ [commitment])) d
        (leaves.length / 2 ^ d) =
      MerkleTree.node compress (MerkleTree.padded emptyLeaf leaves) d (leaves.length / 2 ^ d)
  root : wroteRoot made = true → MerkleTree.root compress emptyLeaf (leaves ++ [commitment]) depth =
    MerkleTree.root compress emptyLeaf leaves depth
  size : wroteSize made = false

variable {compress depth leaves commitment} {store : Store}

/-- A failure leaves the old tree, but for the writes that took effect. -/
theorem failed_mixed (represents : Represents compress depth leaves store)
    (failure : Request → TreeError) {point : Nat} (landed : Bool)
    (comes : point < asked (serve compress) (addLeaf leaves.length commitment depth) store) :
    (∃ problem, (failedAdd compress depth leaves commitment failure point landed store).1 =
      .error problem) ∧
    Mixed compress depth leaves commitment
      (effects compress depth leaves commitment point landed store)
      (failedAdd compress depth leaves commitment failure point landed store).2 := by
  obtain ⟨problem, ended⟩ := @failing_cut _ _ _ _ _ (serve compress) failure landed _
    (add_strict leaves.length commitment depth) 0 point store comes
  have start : Mixed compress depth leaves commitment [] store := mixed_start represents
  have cut := stopped_good mixed_step start (add_writes represents) (point + landed.toNat)
  rw [Nat.zero_add] at ended
  rw [failedAdd, ended]
  exact ⟨⟨problem, rfl⟩, cut⟩

/-- An error is returned only if the failure is one of its requests. -/
theorem failed_comes (represents : Represents compress depth leaves store)
    {failure : Request → TreeError} {point : Nat} {landed : Bool} {problem : TreeError}
    (failed : (failedAdd compress depth leaves commitment failure point landed store).1 =
      .error problem) :
    point < asked (serve compress) (addLeaf leaves.length commitment depth) store := by
  apply Nat.lt_of_not_le
  intro late
  obtain ⟨reached, added, _⟩ := add_next represents commitment
  have whole := @failing_late _ _ _ _ _ (serve compress) failure landed
    (addLeaf leaves.length commitment depth) 0 point store late
  have succeeded : (run (serve compress) (addLeaf leaves.length commitment depth) store).1 =
      .ok (MerkleTree.root compress emptyLeaf (leaves ++ [commitment]) depth) :=
    congrArg Prod.fst added
  rw [Nat.zero_add] at whole
  rw [failedAdd, whole, succeeded] at failed
  cases failed

theorem mixed_root {made : List Request} {reached : Store}
    (represents : Represents compress depth leaves store)
    (mixed : Mixed compress depth leaves commitment made reached) :
    reached.root = store.root ↔
      MerkleTree.root compress emptyLeaf (MerkleTree.appended commitment leaves (wroteRoot made))
        depth = MerkleTree.root compress emptyLeaf leaves depth := by
  rw [mixed.root, represents.root, Option.some.injEq]

/-- Triples that are the same come from the same paths. -/
theorem unchanged_paths {made : List Request} {reached : Store}
    (represents : Represents compress depth leaves store)
    (mixed : Mixed compress depth leaves commitment made reached)
    (unchanged : Unchanged compress depth leaves store reached) (i : Nat)
    (inside : i < leaves.length) :
    MerkleTree.tornPath compress emptyLeaf commitment leaves (wroteLevel made) 0 depth i =
      MerkleTree.pathFrom compress (MerkleTree.padded emptyLeaf leaves) 0 depth i := by
  obtain ⟨proof, isEven, root, before, _, _, after⟩ := unchanged.proofs i inside
  rw [MerkleProofs.finish_get_proof represents i] at before
  rw [mixed_get_proof mixed i] at after
  cases before
  injection after with same
  injection same with siblings others
  injection others with sides _
  rw [List.zip_of_prod siblings sides]
  exact (List.zip_of_prod rfl rfl).symm

theorem unchanged_harmless {made : List Request} {reached : Store}
    (represents : Represents compress depth leaves store)
    (mixed : Mixed compress depth leaves commitment made reached)
    (unchanged : Unchanged compress depth leaves store reached) :
    Harmless compress depth leaves commitment made := by
  constructor
  · exact (MerkleTree.torn_paths_old_iff compress emptyLeaf commitment leaves _ depth).mp
      (unchanged_paths represents mixed unchanged)
  · intro wrote
    have same := (mixed_root represents mixed).mp unchanged.root
    rwa [wrote] at same
  · cases wrote : wroteSize made with
    | false => rfl
    | true =>
        have size := unchanged.size
        rw [mixed.size, represents.size, wrote] at size
        simp at size

theorem harmless_unchanged {made : List Request} {reached : Store}
    (represents : Represents compress depth leaves store) (room : leaves.length < 2 ^ depth)
    (mixed : Mixed compress depth leaves commitment made reached)
    (harmless : Harmless compress depth leaves commitment made) :
    Unchanged compress depth leaves store reached := by
  have paths := (MerkleTree.torn_paths_old_iff compress emptyLeaf commitment leaves _ depth).mpr
    harmless.levels
  have same : MerkleTree.root compress emptyLeaf
      (MerkleTree.appended commitment leaves (wroteRoot made)) depth =
        MerkleTree.root compress emptyLeaf leaves depth := by
    cases wrote : wroteRoot made with
    | false => rfl
    | true => exact harmless.root wrote
  constructor
  · exact (mixed_root represents mixed).mpr same
  · rw [mixed.size, represents.size, harmless.size]
    rfl
  · intro i inside
    have before := MerkleProofs.finish_get_proof represents i
    have after := mixed_get_proof mixed i
    have climbed := MerkleTree.climb_leaf compress (MerkleTree.padded emptyLeaf leaves) depth i
      (Nat.lt_trans inside room)
    have leaf : leaves[i] = MerkleTree.padded emptyLeaf leaves i :=
      (List.getD_eq_getElem leaves emptyLeaf inside).symm
    rw [paths i inside, same] at after
    refine ⟨_, _, _, congrArg Prod.fst before, represents.root, ?_, after⟩
    rw [← List.zip_of_prod rfl rfl, leaf]
    exact climbed

theorem unchanged_iff {made : List Request} {reached : Store}
    (represents : Represents compress depth leaves store) (room : leaves.length < 2 ^ depth)
    (mixed : Mixed compress depth leaves commitment made reached) :
    Unchanged compress depth leaves store reached ↔
      Harmless compress depth leaves commitment made :=
  ⟨unchanged_harmless represents mixed, harmless_unchanged represents room mixed⟩

/-- A failed addition leaves the served tree as it was exactly if no write shows. -/
theorem failed_add_iff (represents : Represents compress depth leaves store)
    (room : leaves.length ≤ 2 ^ depth - 1) (failure : Request → TreeError) (point : Nat)
    (landed : Bool) {problem : TreeError}
    (failed : (failedAdd compress depth leaves commitment failure point landed store).1 =
      .error problem) :
    Unchanged compress depth leaves store
        (failedAdd compress depth leaves commitment failure point landed store).2 ↔
      Harmless compress depth leaves commitment
        (effects compress depth leaves commitment point landed store) := by
  have positive : 0 < 2 ^ depth := Nat.two_pow_pos depth
  have mixed := (failed_mixed represents failure landed (failed_comes represents failed)).2
  exact unchanged_iff represents (by omega) mixed

end Failures

/-! The second deposit fails after its leaf has been written, or right before that. -/
section Samples
open ServedProofs (poseidon first second oneDeposit one_deposit_represents)

def tells : Request → TreeError
  | .hash _ _ => .hash "Merkle service unavailable"
  | _ => .redis

theorem second_asks :
    3 < asked (serve poseidon) (addLeaf 1 second 20) oneDeposit ∧
      (asks poseidon oneDeposit (addLeaf 1 second 20)).take 3 = [.getSize, .getLevel 0,
        .setLevel 0 (MerkleTree.front poseidon emptyLeaf [first, second] 0)] := by
  have all := @add_asks poseidon 20 [first] second oneDeposit one_deposit_represents
  constructor
  · rw [← trace_length]
    have longer := congrArg List.length all
    simp only [List.length_cons, List.length_append, List.length_nil] at longer
    exact lt_of_lt_of_eq (by omega) longer.symm
  · exact congrArg (List.take 3) all

/-- The write of the leaf itself fails. -/
theorem leaf_write_refused :
    Unchanged poseidon 20 [first] oneDeposit
        (failedAdd poseidon 20 [first] second tells 2 false oneDeposit).2 ↔
      Harmless poseidon 20 [first] second
        (effects poseidon 20 [first] second 2 false oneDeposit) := by
  have comes : 2 < asked (serve poseidon) (addLeaf [first].length second 20) oneDeposit :=
    Nat.lt_trans (by decide) second_asks.1
  obtain ⟨problem, failed⟩ := (failed_mixed one_deposit_represents tells false comes).1
  exact failed_add_iff one_deposit_represents (by decide) tells 2 false failed

/-- The first hash fails: the second leaf stays on the lowest level, next to the first. -/
theorem refused_hash_shows :
    (∃ problem, (failedAdd poseidon 20 [first] second tells 3 false oneDeposit).1 =
      .error problem) ∧
    ¬ Unchanged poseidon 20 [first] oneDeposit
      (failedAdd poseidon 20 [first] second tells 3 false oneDeposit).2 := by
  have failed := @failed_mixed poseidon 20 [first] second oneDeposit one_deposit_represents tells 3
    false second_asks.1
  refine ⟨failed.1, ?_⟩
  rw [unchanged_iff one_deposit_represents (by decide) failed.2]
  intro harmless
  have written : wroteLevel (effects poseidon 20 [first] second 3 false oneDeposit) 0 = true := by
    rw [effects]
    exact congrArg (fun made => wroteLevel made 0) second_asks.2
  have same : second = emptyLeaf := harmless.levels 0 (by decide) written (by decide)
  have value := congrArg MerkleService.fieldOfHex same
  rw [second, MerkleService.fieldOfHex_hexOf, MerkleService.empty_leaf_field] at value
  exact absurd value (by decide +kernel)

end Samples

end PrivateTransfer.FailedAddition
