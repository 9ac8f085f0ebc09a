import PrivateTransfer.RedisTree

/-!
Authentication paths across the three implementations. The backend reads them
off the stored fronts, the merkle service off the full tree, the circuit folds
them: completeness says the honest path opens every leaf, soundness that no
other path opens anything else short of a collision.
-/

namespace PrivateTransfer.MerkleProofs

open MerkleService RedisTree

section Completeness
variable {compress : Hex64 → Hex64 → Hex64}

/-- Commitments added one after another. -/
def inOrder (commitments : List Hex64) (start : Nat) : List (Nat × Hex64) :=
  (commitments.zipIdx start).map fun entry => (entry.2, entry.1)

theorem taken_in_order {depth : Nat} (commitments : List Hex64) {leaves : List Hex64}
    {store : Store} (represents : Represents compress depth leaves store) :
    taken compress depth (inOrder commitments leaves.length) store = commitments := by
  induction commitments generalizing leaves store with
  | nil => rfl
  | cons commitment rest ih =>
      obtain ⟨reached, added, longer⟩ := add_next represents commitment
      have tail := ih longer
      rw [List.length_append, List.length_singleton] at tail
      have unfolded : inOrder (commitment :: rest) leaves.length =
          (leaves.length, commitment) :: inOrder rest (leaves.length + 1) := rfl
      rw [unfolded, taken, added, if_pos represents.size, tail]

theorem in_order_represents (compress : Hex64 → Hex64 → Hex64) (depth : Nat) (before : Store)
    (commitments : List Hex64) :
    Represents compress depth commitments
      (reachedStore compress depth before (inOrder commitments 0)) := by
  obtain ⟨reached, initialised, empty⟩ := init_empty compress before depth
  have all := add_all (inOrder commitments 0) empty
  have exact' := taken_in_order commitments empty
  rw [List.length_nil] at exact'
  rw [exact', List.nil_append] at all
  rwa [reachedStore, initialised]

/-- The backend's loop reads the path of the full tree off the fronts. -/
theorem finish_proof {depth : Nat} {leaves : List Hex64} {store : Store}
    (represents : Represents compress depth leaves store) (remaining d idx : Nat)
    (height : d + remaining ≤ depth) :
    finish compress store (RedisTree.proofFrom remaining d idx) =
      (.ok (MerkleTree.pathFrom compress (MerkleTree.padded emptyLeaf leaves) d remaining idx),
        store) := by
  induction remaining generalizing d idx with
  | zero => rw [RedisTree.proofFrom, MerkleTree.pathFrom, finish_pure]
  | succ remaining ih =>
      have rest := ih (d + 1) (idx / 2) (by omega)
      rw [RedisTree.proofFrom, finish_get_level, represents.levels d (by omega), Option.getD_some,
        finish_sibling (represents.empties d (by omega)), finish_bind _ _ rest, finish_pure,
        MerkleTree.pathFrom]

theorem finish_get_proof {depth : Nat} {leaves : List Hex64} {store : Store}
    (represents : Represents compress depth leaves store) (leafIndex : Nat) :
    finish compress store (getProof leafIndex depth) =
      (.ok ((MerkleTree.pathFrom compress (MerkleTree.padded emptyLeaf leaves) 0 depth
            leafIndex).map Prod.fst,
          (MerkleTree.pathFrom compress (MerkleTree.padded emptyLeaf leaves) 0 depth
            leafIndex).map Prod.snd,
          MerkleTree.root compress emptyLeaf leaves depth), store) := by
  have steps := finish_proof represents depth 0 leafIndex (by omega)
  rw [getProof, finish_bind _ _ steps, finish_get_root, represents.root, Option.getD_some,
    finish_pure]

/-- The merkle service's loop reads the same path off the full levels. -/
theorem built_proof (compress : Hex64 → Hex64 → Hex64) (leaf : Nat → Hex64)
    (depth remaining d idx : Nat) (height : d + remaining = depth) (inside : idx < 2 ^ remaining) :
    MerkleService.proofFrom ((List.range (depth + 1)).map fun d =>
        MerkleTree.leavesOf (MerkleTree.node compress leaf d) (2 ^ (depth - d))) remaining d idx =
      (MerkleTree.pathFrom compress leaf d remaining idx).map
        fun step => (some step.1, step.2) := by
  induction remaining generalizing d idx with
  | zero => rfl
  | succ remaining ih =>
      have width : 2 ^ (remaining + 1) = 2 * 2 ^ remaining := Nat.pow_succ'
      have above := ih (d + 1) (idx / 2) (by omega) (by omega)
      have level : ((List.range (depth + 1)).map fun d =>
          MerkleTree.leavesOf (MerkleTree.node compress leaf d) (2 ^ (depth - d)))[d]? =
            some (MerkleTree.leavesOf (MerkleTree.node compress leaf d) (2 ^ (remaining + 1))) := by
        have rest : depth - d = remaining + 1 := by omega
        rw [List.getElem?_map, List.getElem?_range (by omega), Option.map_some, rest]
      -- a level has an even number of nodes, so an index inside it has its sibling inside it
      have reach : MerkleTree.sibling idx < 2 ^ (remaining + 1) := by
        rw [MerkleTree.sibling]
        split <;> omega
      have sibling : (MerkleTree.leavesOf (MerkleTree.node compress leaf d)
          (2 ^ (remaining + 1)))[MerkleTree.sibling idx]? =
            some (MerkleTree.node compress leaf d (MerkleTree.sibling idx)) := by
        rw [MerkleTree.leavesOf, List.getElem?_map, List.getElem?_range reach, Option.map_some]
      have same : (if idx % 2 = 0 then idx + 1 else idx - 1) = MerkleTree.sibling idx := rfl
      rw [MerkleService.proofFrom, MerkleTree.pathFrom, List.map_cons, above, level]
      simp only [same, Option.getD_some, sibling]

theorem built_get_proof {depth : Nat} (commitments : List Hex64) (leafIndex : Nat)
    (small : depth ≤ 30) (inside : leafIndex < 2 ^ depth) :
    buildProof (answering compress) commitments leafIndex depth = .ok
      { proof := ((MerkleTree.pathFrom compress (MerkleTree.padded emptyLeaf commitments) 0 depth
          leafIndex).map Prod.fst).map some
        isEven := (MerkleTree.pathFrom compress (MerkleTree.padded emptyLeaf commitments) 0 depth
          leafIndex).map Prod.snd
        root := some (MerkleTree.root compress emptyLeaf commitments depth) } := by
  have steps := built_proof compress (MerkleTree.padded emptyLeaf commitments) depth
    depth 0 leafIndex (Nat.zero_add depth) inside
  rw [buildProof, build_tree_nodes compress commitments small]
  simp only [bind, Except.bind, steps, List.map_map]
  rfl

variable (poseidon2Permutation : Vector Field 4 → Vector Field 4)

/-- The backend, the merkle service and the circuit agree on the proof of leaf `i`. -/
structure ProofAgrees (compress : Hex64 → Hex64 → Hex64) (depth : Nat) (commitments : List Hex64)
    (i : Nat) (store : Store) (proof : List Hex64) (isEven : List Bool) (root : Hex64) : Prop where
  served : finish compress store (getProof i depth) = (.ok (proof, isEven, root), store)
  built : buildProof (answering compress) commitments i depth =
    .ok { proof := proof.map some, isEven, root := some root }
  stored : store.root = some root
  folded : ∃ (path : Vector Field depth) (sides : Vector Bool depth),
    path.toList = proof.map fieldOfHex ∧ sides.toList = isEven ∧
    Circuit.computeMerkleRoot poseidon2Permutation
      (fieldOfHex (commitments.getD i emptyLeaf)) path sides = fieldOfHex root

theorem fold_path (same : ∀ left right, fieldOfHex (compress left right) =
      Circuit.hash2 poseidon2Permutation (fieldOfHex left) (fieldOfHex right))
    (leaf : Nat → Hex64) (depth i : Nat) (inside : i < 2 ^ depth) :
    ∃ (path : Vector Field depth) (sides : Vector Bool depth),
      path.toList = ((MerkleTree.pathFrom compress leaf 0 depth i).map Prod.fst).map fieldOfHex ∧
      sides.toList = (MerkleTree.pathFrom compress leaf 0 depth i).map Prod.snd ∧
      Circuit.computeMerkleRoot poseidon2Permutation (fieldOfHex (leaf i)) path sides =
        fieldOfHex (MerkleTree.node compress leaf depth 0) := by
  refine ⟨⟨(((MerkleTree.pathFrom compress leaf 0 depth i).map Prod.fst).map fieldOfHex).toArray,
      by simp⟩, ⟨((MerkleTree.pathFrom compress leaf 0 depth i).map Prod.snd).toArray, by simp⟩,
    rfl, rfl, ?_⟩
  have zipped : (((MerkleTree.pathFrom compress leaf 0 depth i).map Prod.fst).map fieldOfHex).zip
      ((MerkleTree.pathFrom compress leaf 0 depth i).map Prod.snd) =
        (MerkleTree.pathFrom compress leaf 0 depth i).map
          fun step => (fieldOfHex step.1, step.2) := by
    rw [List.map_map, List.zip_map']
    rfl
  have climbed := MerkleTree.climb_map compress (Circuit.hash2 poseidon2Permutation) fieldOfHex same
    (leaf i) (MerkleTree.pathFrom compress leaf 0 depth i)
  rw [MerkleTree.climb_leaf compress leaf depth i inside] at climbed
  rw [Circuit.merkle_root_climb, ← climbed, ← zipped]
  rfl

/-- Every leaf below the capacity can be opened, filled or not. -/
theorem proofs_agree (compress : Hex64 → Hex64 → Hex64)
    (same : ∀ left right, fieldOfHex (compress left right) =
      Circuit.hash2 poseidon2Permutation (fieldOfHex left) (fieldOfHex right))
    (depth : Nat) (small : depth ≤ 30) (before : Store) (commitments : List Hex64)
    (i : Nat) (inside : i < 2 ^ depth) :
    ∃ proof isEven root, ProofAgrees poseidon2Permutation compress depth commitments i
      (reachedStore compress depth before (inOrder commitments 0)) proof isEven root := by
  have represents := in_order_represents compress depth before commitments
  refine ⟨_, _, _, finish_get_proof represents i, built_get_proof commitments i small inside,
    represents.root, ?_⟩
  exact fold_path poseidon2Permutation same (MerkleTree.padded emptyLeaf commitments) depth i inside

/-- The last of three leaves, whose sibling is still empty. -/
theorem third_leaf_agrees :
    ∃ proof isEven root, ProofAgrees Poseidon2.poseidon2Permutation
      (hashHex Poseidon2.poseidon2Permutation) 2 [hexOf 11, hexOf 12, hexOf 13] 2
      (reachedStore (hashHex Poseidon2.poseidon2Permutation) 2
        ⟨fun _ => none, fun _ => none, none, none⟩ (inOrder [hexOf 11, hexOf 12, hexOf 13] 0))
      proof isEven root :=
  proofs_agree Poseidon2.poseidon2Permutation (hashHex Poseidon2.poseidon2Permutation)
    (fun _ _ => fieldOfHex_hexOf _) 2 (by decide) _ _ 2 (by decide)

end Completeness

/-! The path, the sides and the leaf are the prover's. -/
section Soundness
variable (poseidon2Permutation : Vector Field 4 → Vector Field 4)

/-- The pairs hashed while building the tree of `leaves` and while folding the path. -/
def Hashed {depth : Nat} (leaves : List Field) (x : Field) (path : Vector Field depth)
    (isEven : Vector Bool depth) (inputs : Field × Field) : Prop :=
  inputs ∈ MerkleTree.treeInputs (Circuit.hash2 poseidon2Permutation) leaves depth ∨
    inputs ∈ MerkleTree.climbInputs (Circuit.hash2 poseidon2Permutation) x
      (path.toList.zip isEven.toList)

/-- The tree `buildTree` makes of a full list of leaves ends at the library's root. -/
theorem tree_of_root {depth : Nat} {leaves : List Field} {root : Field}
    (size : leaves.length = 2 ^ depth)
    (built : (treeOf (answering (Circuit.hash2 poseidon2Permutation)) depth leaves).map
      Tree.root = .ok (some root)) :
    MerkleTree.root (Circuit.hash2 poseidon2Permutation) 0 leaves depth = root := by
  have full := MerkleTree.leaves_padded 0 size
  have levels := tree_of_leaves (Circuit.hash2 poseidon2Permutation)
    (MerkleTree.padded 0 leaves) depth
  rw [full] at levels
  rw [levels] at built
  exact Option.some.inj (Except.ok.inj built)

/-- A fold that reaches the root opens the leaf its sides name, or exhibits a collision
among the pairs hashed on the way. -/
theorem merkle_check_sound (depth : Nat) (leaves : List Field) (size : leaves.length = 2 ^ depth)
    (root : Field)
    (built : (treeOf (answering (Circuit.hash2 poseidon2Permutation)) depth leaves).map
      Tree.root = .ok (some root))
    (x : Field) (path : Vector Field depth) (isEven : Vector Bool depth)
    (folds : Circuit.computeMerkleRoot poseidon2Permutation x path isEven = root) :
    (∃ i < 2 ^ depth, (∀ k (low : k < depth), i.testBit k = !isEven[k]) ∧
      leaves[i]? = some x) ∨
    MerkleTree.Collision (Circuit.hash2 poseidon2Permutation)
      (Hashed poseidon2Permutation leaves x path isEven) := by
  have full := MerkleTree.leaves_padded 0 size
  have steps : (path.toList.zip isEven.toList).length = depth := by simp
  have sides : (path.toList.zip isEven.toList).map Prod.snd = isEven.toList := by
    rw [List.map_snd_zip]
    simp
  have lands : MerkleTree.climb (Circuit.hash2 poseidon2Permutation) x
      (path.toList.zip isEven.toList) =
        MerkleTree.node (Circuit.hash2 poseidon2Permutation) (MerkleTree.padded 0 leaves)
          (path.toList.zip isEven.toList).length 0 := by
    rw [← Circuit.merkle_root_climb, folds, steps]
    exact (tree_of_root poseidon2Permutation size built).symm
  rcases MerkleTree.climb_sound _ _ _ _ lands with opened | found
  · left
    rw [sides] at opened
    have bound := MerkleTree.leaf_index_bound isEven.toList
    rw [Vector.length_toList] at bound
    refine ⟨MerkleTree.leafIndex isEven.toList, bound, ?_, ?_⟩
    · intro k low
      have bit := MerkleTree.leaf_index_bit isEven.toList k (by rwa [Vector.length_toList])
      rwa [Vector.getElem_toList] at bit
    · have inside : MerkleTree.leafIndex isEven.toList < leaves.length := by rwa [size]
      rw [opened, MerkleTree.padded, List.getElem?_eq_getElem inside,
        List.getD_eq_getElem _ _ inside]
  · right
    refine MerkleTree.collision_mono _ ?_ found
    rintro inputs (climbed | compressed)
    · exact Or.inr climbed
    · -- the library's pairs are the ones compressed while building the levels
      left
      rw [steps] at compressed
      have listed := (MerkleTree.tree_inputs_iff _ _ depth inputs).mpr compressed
      rwa [full] at listed

/-- The right leaf of a tree of two. -/
theorem right_leaf_opens :
    (∃ i < 2 ^ 1, (∀ k (low : k < 1), i.testBit k = !(#v[false])[k]) ∧
      ([11, 12] : List Field)[i]? = some 12) ∨
    MerkleTree.Collision (Circuit.hash2 Poseidon2.poseidon2Permutation)
      (Hashed Poseidon2.poseidon2Permutation [11, 12] 12 #v[11] #v[false]) :=
  merkle_check_sound Poseidon2.poseidon2Permutation 1 [11, 12] rfl
    (Circuit.hash2 Poseidon2.poseidon2Permutation 11 12) rfl 12 #v[11] #v[false] rfl

end Soundness

end PrivateTransfer.MerkleProofs
