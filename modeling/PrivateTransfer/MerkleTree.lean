import Mathlib.Data.List.GetD
import Mathlib.Data.Nat.Bits
import Mathlib.Tactic.Linarith
import Mathlib.Tactic.Ring

/-!
Binary hash trees over any digest type and any two-argument compression.
A tree is a total assignment of leaves to indices; `node d i` is the value at
height `d` over leaves `i * 2 ^ d` up to `(i + 1) * 2 ^ d`. Lists of leaves
enter through `padded`, which answers every index past the end with the empty
leaf. No property of the compression is assumed anywhere: soundness of a path
is stated with the collision it would otherwise exhibit.
-/

namespace PrivateTransfer.MerkleTree

variable {Digest : Type} (compress : Digest → Digest → Digest)

def node (leaf : Nat → Digest) : Nat → Nat → Digest
  | 0, i => leaf i
  | d + 1, i => compress (node leaf d (2 * i)) (node leaf d (2 * i + 1))

def emptyNode (empty : Digest) : Nat → Digest
  | 0 => empty
  | d + 1 => compress (emptyNode empty d) (emptyNode empty d)

def padded (empty : Digest) (leaves : List Digest) : Nat → Digest :=
  fun i => leaves.getD i empty

def root (empty : Digest) (leaves : List Digest) (depth : Nat) : Digest :=
  node compress (padded empty leaves) depth 0

@[simp] theorem node_zero (leaf : Nat → Digest) (i : Nat) : node compress leaf 0 i = leaf i := rfl

theorem node_succ (leaf : Nat → Digest) (d i : Nat) :
    node compress leaf (d + 1) i =
      compress (node compress leaf d (2 * i)) (node compress leaf d (2 * i + 1)) := rfl

/-- A node depends on the leaves below it and on no others. -/
theorem node_congr {leaf other : Nat → Digest} (d i : Nat)
    (agree : ∀ k, i * 2 ^ d ≤ k → k < (i + 1) * 2 ^ d → leaf k = other k) :
    node compress leaf d i = node compress other d i := by
  induction d generalizing i with
  | zero => exact agree i (by simp) (by simp)
  | succ d ih =>
      have width : 2 ^ (d + 1) = 2 * 2 ^ d := Nat.pow_succ'
      rw [width] at agree
      have left := ih (2 * i) fun k low high => agree k (by linarith) (by linarith)
      have right := ih (2 * i + 1) fun k low high => agree k (by linarith) (by linarith)
      rw [node_succ, node_succ, left, right]

/-- A map that commutes with the compression commutes with the whole tree. -/
theorem node_map {Image : Type} (target : Image → Image → Image) (read : Digest → Image)
    (commutes : ∀ left right, read (compress left right) = target (read left) (read right))
    (leaf : Nat → Digest) (d i : Nat) :
    node target (fun k => read (leaf k)) d i = read (node compress leaf d i) := by
  induction d generalizing i with
  | zero => rfl
  | succ d ih => rw [node_succ, node_succ, ih, ih, commutes]

theorem node_empty (empty : Digest) (leaves : List Digest) (d i : Nat)
    (beyond : leaves.length ≤ i * 2 ^ d) :
    node compress (padded empty leaves) d i = emptyNode compress empty d := by
  induction d generalizing i with
  | zero => simpa [padded, emptyNode] using List.getD_eq_default _ _ (by simpa using beyond)
  | succ d ih =>
      have width : 2 ^ (d + 1) = 2 * 2 ^ d := Nat.pow_succ'
      rw [width] at beyond
      have grows := Nat.zero_le (2 ^ d)
      rw [node_succ, ih (2 * i) (by linarith), ih (2 * i + 1) (by linarith)]
      rfl

@[simp] theorem padded_append_length (empty leaf : Digest) (leaves : List Digest) :
    padded empty (leaves ++ [leaf]) leaves.length = leaf := by
  simp [padded]

/-- Appending a leaf moves only the nodes above it. -/
theorem node_append_other (empty leaf : Digest) (leaves : List Digest) (d i : Nat)
    (other : i ≠ leaves.length / 2 ^ d) :
    node compress (padded empty (leaves ++ [leaf])) d i =
      node compress (padded empty leaves) d i := by
  apply node_congr
  intro k low high
  have apart : k ≠ leaves.length := by
    -- the new leaf lies below its own node only
    rintro rfl
    exact other (Nat.div_eq_of_lt_le low high).symm
  by_cases inside : k < leaves.length
  · simp [padded, List.getD_eq_getElem?_getD, List.getElem?_append_left inside]
  · have old : leaves.length ≤ k := by omega
    have new : (leaves ++ [leaf]).length ≤ k := by
      rw [List.length_append, List.length_singleton]
      omega
    rw [padded, padded, List.getD_eq_default _ _ old, List.getD_eq_default _ _ new]

/-! Authentication paths. A step carries the sibling and whether the running
value is the left input, which it is exactly at even indices. -/
section Paths

def sibling (i : Nat) : Nat := if i % 2 = 0 then i + 1 else i - 1

def stepInputs (current : Digest) (step : Digest × Bool) : Digest × Digest :=
  if step.2 then (current, step.1) else (step.1, current)

/-- The parity of an index puts a node and its sibling in the order of the step. -/
theorem step_sides (current sibling : Digest) (i : Nat) :
    (if i % 2 = 0 then (current, sibling) else (sibling, current)) =
      stepInputs current (sibling, i % 2 == 0) := by
  simp [stepInputs]

def climbStep (current : Digest) (step : Digest × Bool) : Digest :=
  compress (stepInputs current step).1 (stepInputs current step).2

def climb (leaf : Digest) (path : List (Digest × Bool)) : Digest :=
  path.foldl (climbStep compress) leaf

/-- The siblings met on the way up from node `i` at height `d`, `n` levels long. -/
def pathFrom (leaf : Nat → Digest) : Nat → Nat → Nat → List (Digest × Bool)
  | _, 0, _ => []
  | d, n + 1, i =>
      (node compress leaf d (sibling i), i % 2 == 0) :: pathFrom leaf (d + 1) n (i / 2)

@[simp] theorem path_length (leaf : Nat → Digest) (d n i : Nat) :
    (pathFrom compress leaf d n i).length = n := by
  induction n generalizing d i with
  | zero => rfl
  | succ n ih => simp [pathFrom, ih]

/-- A map that commutes with the compression takes paths to paths. -/
theorem path_map {Image : Type} (target : Image → Image → Image) (read : Digest → Image)
    (commutes : ∀ left right, read (compress left right) = target (read left) (read right))
    (leaf : Nat → Digest) (d n i : Nat) :
    pathFrom target (fun k => read (leaf k)) d n i =
      (pathFrom compress leaf d n i).map fun step => (read step.1, step.2) := by
  induction n generalizing d i with
  | zero => rfl
  | succ n ih =>
      rw [pathFrom, pathFrom, List.map_cons, ih, node_map compress target read commutes]

theorem node_parent (leaf : Nat → Digest) (d i : Nat) :
    climbStep compress (node compress leaf d i) (node compress leaf d (sibling i), i % 2 == 0) =
      node compress leaf (d + 1) (i / 2) := by
  rcases Nat.mod_two_eq_zero_or_one i with even | odd
  · have left : 2 * (i / 2) = i := by omega
    simp [climbStep, stepInputs, sibling, even, node_succ, left]
  · have near : 2 * (i / 2) = i - 1 := by omega
    have right : i - 1 + 1 = i := by omega
    have side : ¬ i % 2 = 0 := by omega
    simp [climbStep, stepInputs, sibling, side, node_succ, right, near]

theorem parent_index (i d : Nat) : i / 2 ^ d / 2 = i / 2 ^ (d + 1) := by
  rw [Nat.div_div_eq_div_mul, Nat.pow_succ]

/-- The same on the way up from a leaf. -/
theorem path_parent (leaf : Nat → Digest) (d i : Nat) :
    climbStep compress (node compress leaf d (i / 2 ^ d))
        (node compress leaf d (sibling (i / 2 ^ d)), i / 2 ^ d % 2 == 0) =
      node compress leaf (d + 1) (i / 2 ^ (d + 1)) := by
  rw [← parent_index]
  exact node_parent compress leaf d (i / 2 ^ d)

theorem climb_path (leaf : Nat → Digest) (d n i : Nat) :
    climb compress (node compress leaf d i) (pathFrom compress leaf d n i) =
      node compress leaf (d + n) (i / 2 ^ n) := by
  induction n generalizing d i with
  | zero => simp [climb, pathFrom]
  | succ n ih =>
      have above := ih (d + 1) (i / 2)
      simp only [climb, pathFrom, List.foldl_cons, node_parent] at above ⊢
      rw [above, Nat.div_div_eq_div_mul, ← Nat.pow_succ', Nat.add_right_comm, Nat.add_assoc]

/-- The honest path of a leaf inside the tree ends at the root. -/
theorem climb_leaf (leaf : Nat → Digest) (depth i : Nat) (inside : i < 2 ^ depth) :
    climb compress (leaf i) (pathFrom compress leaf 0 depth i) = node compress leaf depth 0 := by
  have full := climb_path compress leaf 0 depth i
  rwa [Nat.div_eq_of_lt inside, Nat.zero_add] at full

/-- A map that commutes with the compression commutes with climbing. -/
theorem climb_map {Image : Type} (target : Image → Image → Image) (read : Digest → Image)
    (commutes : ∀ left right, read (compress left right) = target (read left) (read right))
    (leaf : Digest) (path : List (Digest × Bool)) :
    climb target (read leaf) (path.map fun step => (read step.1, step.2)) =
      read (climb compress leaf path) := by
  induction path generalizing leaf with
  | nil => rfl
  | cons step rest ih =>
      have first : climbStep target (read leaf) (read step.1, step.2) =
          read (climbStep compress leaf step) := by
        obtain ⟨other, even⟩ := step
        cases even <;> exact (commutes _ _).symm
      have above := ih (climbStep compress leaf step)
      rw [climb] at above ⊢
      rw [List.map_cons, List.foldl_cons, first, above]
      rfl

end Paths

/-! Adversarial paths. The prover picks the leaf, the siblings and the sides.
The sides alone name a leaf of the tree; reaching the root from any other value
forces the compression to agree on two different inputs, one of them an honest
pair of the tree and one of them fed by the path. -/
section Soundness

/-- The leaf a path claims to open: bit `k` is set when step `k` is a right child. -/
def leafIndex : List Bool → Nat
  | [] => 0
  | even :: rest => 2 * leafIndex rest + (!even).toNat

def climbInputs (leaf : Digest) : List (Digest × Bool) → List (Digest × Digest)
  | [] => []
  | step :: rest => stepInputs leaf step :: climbInputs (climbStep compress leaf step) rest

def TreeInputs (leaf : Nat → Digest) (depth : Nat) (inputs : Digest × Digest) : Prop :=
  ∃ d i, d < depth ∧ i < 2 ^ (depth - (d + 1)) ∧
    inputs = (node compress leaf d (2 * i), node compress leaf d (2 * i + 1))

theorem climb_last (leaf : Digest) {path : List (Digest × Bool)} (nonempty : path ≠ []) :
    ∃ inputs ∈ climbInputs compress leaf path,
      climb compress leaf path = compress inputs.1 inputs.2 := by
  induction path generalizing leaf with
  | nil => exact absurd rfl nonempty
  | cons step rest ih =>
      by_cases final : rest = []
      · subst final
        exact ⟨stepInputs leaf step, List.mem_singleton_self _, rfl⟩
      · obtain ⟨inputs, member, same⟩ := ih (climbStep compress leaf step) final
        exact ⟨inputs, List.mem_cons_of_mem _ member, same⟩

/-- Two different inputs of the compression with one output, both among `involved`. -/
def Collision (involved : Digest × Digest → Prop) : Prop :=
  ∃ left right, involved left ∧ involved right ∧ left ≠ right ∧
    compress left.1 left.2 = compress right.1 right.2

theorem collision_mono {few many : Digest × Digest → Prop} (widen : ∀ p, few p → many p)
    (found : Collision compress few) : Collision compress many := by
  obtain ⟨left, right, atLeft, atRight, apart, same⟩ := found
  exact ⟨left, right, widen _ atLeft, widen _ atRight, apart, same⟩

theorem leaf_index_bound (sides : List Bool) : leafIndex sides < 2 ^ sides.length := by
  induction sides with
  | nil => simp [leafIndex]
  | cons even rest ih =>
      have bit : (!even).toNat < 2 := by cases even <;> decide
      simp only [leafIndex, List.length_cons, Nat.pow_succ']
      omega

theorem leaf_index_bit (sides : List Bool) (k : Nat) (inside : k < sides.length) :
    (leafIndex sides).testBit k = !sides[k] := by
  induction sides generalizing k with
  | nil => simp at inside
  | cons even rest ih =>
      have bitForm : leafIndex (even :: rest) = Nat.bit (!even) (leafIndex rest) := by
        cases even <;> rfl
      rw [bitForm]
      cases k with
      | zero => simp
      | succ k => simpa [Nat.testBit_bit_succ] using ih k (by simpa using inside)

/-- One level of the descent: a step that lands on an honest node either took the
honest pair there or collides with it. -/
theorem step_cases (leaf : Nat → Digest) (d m : Nat) (current : Digest) (step : Digest × Bool)
    (lands : climbStep compress current step = node compress leaf (d + 1) m) :
    current = node compress leaf d (2 * m + (!step.2).toNat) ∨
      (stepInputs current step ≠ (node compress leaf d (2 * m), node compress leaf d (2 * m + 1)) ∧
        compress (stepInputs current step).1 (stepInputs current step).2 =
          compress (node compress leaf d (2 * m)) (node compress leaf d (2 * m + 1))) := by
  by_cases honest :
      stepInputs current step = (node compress leaf d (2 * m), node compress leaf d (2 * m + 1))
  · left
    obtain ⟨other, even⟩ := step
    cases even with
    | true => exact (Prod.mk.inj honest).1
    | false => exact (Prod.mk.inj honest).2
  · exact Or.inr ⟨honest, lands⟩

/-- Induction from the root of the path down: `rest` is the part of the path above height `d`,
and `j` the subtree it ends in. -/
theorem climb_sound_from (leaf : Nat → Digest) (path : List (Digest × Bool)) (d j : Nat)
    (current : Digest)
    (lands : climb compress current path = node compress leaf (d + path.length) j) :
    current = node compress leaf d (j * 2 ^ path.length + leafIndex (path.map Prod.snd)) ∨
      ∃ taken ∈ climbInputs compress current path, ∃ k m, k < path.length ∧
        m < 2 ^ (path.length - (k + 1)) ∧
        taken ≠ (node compress leaf (d + k) (2 * (j * 2 ^ (path.length - (k + 1)) + m)),
          node compress leaf (d + k) (2 * (j * 2 ^ (path.length - (k + 1)) + m) + 1)) ∧
        compress taken.1 taken.2 =
          node compress leaf (d + k + 1) (j * 2 ^ (path.length - (k + 1)) + m) := by
  induction path generalizing d current with
  | nil =>
      left
      simpa [climb, leafIndex] using lands
  | cons step rest ih =>
      have above : climb compress (climbStep compress current step) rest =
          node compress leaf (d + 1 + rest.length) j := by
        rw [Nat.add_assoc, Nat.add_comm 1]
        exact lands
      -- Either the rest of the path has come down on an honest node, and only this step can
      -- leave the tree, or it has left the tree further up.
      rcases ih (d + 1) _ above with agrees | ⟨taken, member, k, m, low, narrow, differs, same⟩
      · have width : 2 * (j * 2 ^ rest.length + leafIndex (rest.map Prod.snd)) =
            j * 2 ^ (rest.length + 1) + 2 * leafIndex (rest.map Prod.snd) := by
          rw [Nat.pow_succ]
          ring
        rcases step_cases compress leaf d _ current step agrees with honest | ⟨differs, same⟩
        · left
          rw [honest, width]
          simp only [List.map_cons, leafIndex, List.length_cons, Nat.add_assoc]
        · right
          refine ⟨stepInputs current step, List.mem_cons_self, 0,
            leafIndex (rest.map Prod.snd), Nat.succ_pos _, ?_, ?_, ?_⟩
          · simpa using leaf_index_bound (rest.map Prod.snd)
          · simpa using differs
          · simpa [node_succ] using same
      · right
        have shift : d + (k + 1) = d + 1 + k := by omega
        have height : (step :: rest).length - (k + 1 + 1) = rest.length - (k + 1) := by
          simp only [List.length_cons]
          omega
        refine ⟨taken, List.mem_cons_of_mem _ member, k + 1, m, ?_, ?_, ?_, ?_⟩
        · simpa using low
        · rwa [height]
        · rwa [height, shift]
        · rwa [height, shift]

/-- A path that ends at the root opens the leaf its sides name, or it collides with the tree. -/
theorem climb_sound (leaf : Nat → Digest) (path : List (Digest × Bool)) (current : Digest)
    (lands : climb compress current path = node compress leaf path.length 0) :
    current = leaf (leafIndex (path.map Prod.snd)) ∨
      Collision compress (fun inputs =>
        inputs ∈ climbInputs compress current path ∨
          TreeInputs compress leaf path.length inputs) := by
  have start : climb compress current path = node compress leaf (0 + path.length) 0 := by
    rwa [Nat.zero_add]
  rcases climb_sound_from compress leaf path 0 0 current start with
    opened | ⟨taken, member, k, m, low, narrow, differs, same⟩
  · left
    simpa using opened
  · right
    simp only [Nat.zero_mul, Nat.zero_add] at differs same
    exact ⟨taken, _, Or.inl member, Or.inr ⟨k, m, low, narrow, rfl⟩, differs, same⟩

/-- Two trees with one node have the same leaves below it, or they part further down under a
pair of compressions that agree. -/
theorem node_binding (leaf other : Nat → Digest) (d i : Nat)
    (same : node compress leaf d i = node compress other d i) :
    (∀ k, i * 2 ^ d ≤ k → k < (i + 1) * 2 ^ d → leaf k = other k) ∨
      ∃ e j, e < d ∧ j < (i + 1) * 2 ^ (d - (e + 1)) ∧
        (node compress leaf e (2 * j), node compress leaf e (2 * j + 1)) ≠
          (node compress other e (2 * j), node compress other e (2 * j + 1)) ∧
        node compress leaf (e + 1) j = node compress other (e + 1) j := by
  induction d generalizing i with
  | zero =>
      left
      intro k low high
      obtain rfl : k = i := by omega
      exact same
  | succ d ih =>
      have width : 2 ^ (d + 1) = 2 * 2 ^ d := Nat.pow_succ'
      by_cases pair : (node compress leaf d (2 * i), node compress leaf d (2 * i + 1)) =
          (node compress other d (2 * i), node compress other d (2 * i + 1))
      · have deeper : ∀ {e j}, e < d → j < (2 * i + 2) * 2 ^ (d - (e + 1)) →
            j < (i + 1) * 2 ^ (d + 1 - (e + 1)) := by
          intro e j low narrow
          have height : d + 1 - (e + 1) = d - (e + 1) + 1 := by omega
          rw [height, Nat.pow_succ']
          linarith
        obtain ⟨left, right⟩ := Prod.mk.inj pair
        rcases ih (2 * i) left with below | ⟨e, j, low, narrow, apart, agree⟩
        · rcases ih (2 * i + 1) right with beside | ⟨e, j, low, narrow, apart, agree⟩
          · left
            intro k low high
            rw [width] at low high
            by_cases near : k < (2 * i + 1) * 2 ^ d
            · exact below k (by linarith) near
            · exact beside k (by linarith) (by linarith)
          · exact Or.inr ⟨e, j, by omega, deeper low narrow, apart, agree⟩
        · refine Or.inr ⟨e, j, by omega, deeper low (Nat.lt_of_lt_of_le narrow ?_), apart, agree⟩
          exact Nat.mul_le_mul_right _ (by omega)
      · right
        exact ⟨d, i, Nat.lt_succ_self d, by simp, pair, same⟩

/-- A root stands for one assignment of leaves, short of a collision inside the two trees. -/
theorem root_binding (leaf other : Nat → Digest) (depth : Nat)
    (same : node compress leaf depth 0 = node compress other depth 0) :
    (∀ k < 2 ^ depth, leaf k = other k) ∨
      Collision compress (fun inputs =>
        TreeInputs compress leaf depth inputs ∨ TreeInputs compress other depth inputs) := by
  rcases node_binding compress leaf other depth 0 same with
    agree | ⟨d, i, low, narrow, apart, agree⟩
  · left
    intro k inside
    exact agree k (by simp) (by simpa using inside)
  · right
    rw [Nat.zero_add, Nat.one_mul] at narrow
    exact ⟨_, _, Or.inl ⟨d, i, low, narrow, rfl⟩, Or.inr ⟨d, i, low, narrow, rfl⟩, apart, agree⟩

end Soundness

/-! The same tree built level by level, as a list program does: every level is
the list of compressed neighbours of the one below. -/
section Levels

def pairs : List Digest → List (Digest × Digest)
  | left :: right :: rest => (left, right) :: pairs rest
  | _ => []

def pairUp (level : List Digest) : List Digest :=
  (pairs level).map fun inputs => compress inputs.1 inputs.2

def levelAt (leaves : List Digest) (d : Nat) : List Digest := (pairUp compress)^[d] leaves

/-- Every input pair compressed while building the levels up to `depth`. -/
def treeInputs (leaves : List Digest) (depth : Nat) : List (Digest × Digest) :=
  (List.range depth).flatMap fun d => pairs (levelAt compress leaves d)

def leavesOf (leaf : Nat → Digest) (count : Nat) : List Digest := (List.range count).map leaf

theorem pairs_range (leaf : Nat → Digest) (start count : Nat) :
    pairs ((List.range' start (2 * count)).map leaf) =
      (List.range count).map fun i => (leaf (start + 2 * i), leaf (start + 2 * i + 1)) := by
  induction count generalizing start with
  | zero => rfl
  | succ count ih =>
      have unfolded : List.range' start (2 * (count + 1)) =
          start :: (start + 1) :: List.range' (start + 2) (2 * count) := by
        simp [Nat.mul_succ, List.range'_succ]
      rw [unfolded, List.range_succ_eq_map]
      simp only [List.map_cons, pairs, ih, List.map_map]
      congr 1
      apply List.map_congr_left
      intro i _
      simp only [Function.comp_apply, Nat.succ_eq_add_one, Nat.mul_add, Prod.mk.injEq]
      constructor <;> congr 1 <;> omega

theorem pairs_leaves (leaf : Nat → Digest) (count : Nat) :
    pairs (leavesOf leaf (2 * count)) =
      (List.range count).map fun i => (leaf (2 * i), leaf (2 * i + 1)) := by
  simpa [leavesOf, List.range_eq_range'] using pairs_range leaf 0 count

theorem level_nodes (leaf : Nat → Digest) (depth d : Nat) (low : d ≤ depth) :
    levelAt compress (leavesOf leaf (2 ^ depth)) d =
      leavesOf (node compress leaf d) (2 ^ (depth - d)) := by
  induction d with
  | zero => rfl
  | succ d ih =>
      have width : 2 ^ (depth - d) = 2 * 2 ^ (depth - (d + 1)) := by
        rw [← Nat.pow_succ']
        congr 1
        omega
      have below := ih (Nat.le_of_succ_le low)
      rw [levelAt] at below ⊢
      rw [Function.iterate_succ_apply', below, pairUp, width, pairs_leaves]
      simp [leavesOf, node_succ]

theorem tree_inputs_iff (leaf : Nat → Digest) (depth : Nat) (inputs : Digest × Digest) :
    inputs ∈ treeInputs compress (leavesOf leaf (2 ^ depth)) depth ↔
      TreeInputs compress leaf depth inputs := by
  have level : ∀ d < depth, pairs (levelAt compress (leavesOf leaf (2 ^ depth)) d) =
      (List.range (2 ^ (depth - (d + 1)))).map
        fun i => (node compress leaf d (2 * i), node compress leaf d (2 * i + 1)) := by
    intro d low
    have width : 2 ^ (depth - d) = 2 * 2 ^ (depth - (d + 1)) := by
      rw [← Nat.pow_succ']
      congr 1
      omega
    rw [level_nodes compress leaf depth d (Nat.le_of_lt low), width, pairs_leaves]
  simp only [treeInputs, List.mem_flatMap, List.mem_range, TreeInputs]
  constructor
  · rintro ⟨d, low, member⟩
    rw [level d low] at member
    obtain ⟨i, narrow, rfl⟩ := List.mem_map.mp member
    exact ⟨d, i, low, List.mem_range.mp narrow, rfl⟩
  · rintro ⟨d, i, low, narrow, rfl⟩
    refine ⟨d, low, ?_⟩
    rw [level d low]
    exact List.mem_map.mpr ⟨i, List.mem_range.mpr narrow, rfl⟩

theorem leaves_padded (empty : Digest) {leaves : List Digest} {count : Nat}
    (size : leaves.length = count) : leavesOf (padded empty leaves) count = leaves := by
  apply List.ext_getElem
  · simp [leavesOf, size]
  · intro i _ inside
    simp [leavesOf, padded, List.getElem?_eq_getElem inside]

end Levels

/-! Levels kept only as far as they are occupied. The front of a level holds at
least one node; past it every node of the level is the empty one. Appending a
leaf rewrites the last entry of each front or adds one behind it. -/
section Fronts

def frontWidth (count d : Nat) : Nat := max 1 ((count + 2 ^ d - 1) / 2 ^ d)

def front (empty : Digest) (leaves : List Digest) (d : Nat) : List Digest :=
  leavesOf (node compress (padded empty leaves) d) (frontWidth leaves.length d)

@[simp] theorem front_length (empty : Digest) (leaves : List Digest) (d : Nat) :
    (front compress empty leaves d).length = frontWidth leaves.length d := by
  simp [front, leavesOf]

theorem front_get (empty : Digest) (leaves : List Digest) (d i : Nat)
    (inside : i < frontWidth leaves.length d) :
    (front compress empty leaves d)[i]? = some (node compress (padded empty leaves) d i) := by
  rw [front, leavesOf, List.getElem?_map, List.getElem?_range inside]
  rfl

theorem front_width_snoc (count d : Nat) : frontWidth (count + 1) d = count / 2 ^ d + 1 := by
  have positive : 0 < 2 ^ d := Nat.two_pow_pos d
  have shift : count + 1 + 2 ^ d - 1 = count + 2 ^ d := by omega
  rw [frontWidth, shift, Nat.add_div_right _ positive]
  exact Nat.max_eq_right (Nat.le_add_left 1 _)

/-- Behind a new leaf the front has every node up to the leaf's own. -/
theorem front_newest (empty leaf : Digest) (leaves : List Digest) (d i : Nat)
    (near : i ≤ leaves.length / 2 ^ d) :
    (front compress empty (leaves ++ [leaf]) d)[i]? =
      some (node compress (padded empty (leaves ++ [leaf])) d i) := by
  apply front_get
  rw [List.length_append, List.length_singleton, front_width_snoc]
  exact Nat.lt_succ_of_le near

theorem front_width_near (count d : Nat) :
    count / 2 ^ d ≤ frontWidth count d ∧ frontWidth count d ≤ count / 2 ^ d + 1 := by
  have positive : 0 < 2 ^ d := Nat.two_pow_pos d
  cases count with
  | zero => simp [frontWidth, Nat.div_eq_of_lt (Nat.sub_one_lt_of_lt positive)]
  | succ count =>
      rw [front_width_snoc]
      constructor
      · exact Nat.div_le_of_le_mul (by
          have split := Nat.lt_mul_div_succ count positive
          omega)
      · exact Nat.add_le_add_right (Nat.div_le_div_right (Nat.le_succ count)) 1

/-- Past the front there are no leaves below a node. -/
theorem front_width_covers {count d i : Nat} (past : frontWidth count d ≤ i) :
    count ≤ i * 2 ^ d := by
  have positive : 0 < 2 ^ d := Nat.two_pow_pos d
  have above := Nat.le_trans (Nat.le_max_right _ _) past
  have room := Nat.lt_mul_of_div_lt (Nat.lt_succ_of_le above) positive
  rw [Nat.succ_mul] at room
  omega

theorem front_width_bound {count depth d : Nat} (fits : count ≤ 2 ^ depth) (low : d ≤ depth) :
    frontWidth count d ≤ 2 ^ (depth - d) := by
  have positive : 0 < 2 ^ d := Nat.two_pow_pos d
  have whole : 2 ^ depth = 2 ^ (depth - d) * 2 ^ d := by
    rw [← Nat.pow_add, Nat.sub_add_cancel low]
  apply Nat.max_le.mpr
  constructor
  · exact Nat.two_pow_pos _
  · apply Nat.le_of_lt_succ
    apply Nat.div_lt_of_lt_mul
    rw [Nat.mul_comm, Nat.succ_mul, ← whole]
    omega

theorem front_past (empty : Digest) (leaves : List Digest) {d i : Nat}
    (past : frontWidth leaves.length d ≤ i) :
    node compress (padded empty leaves) d i = emptyNode compress empty d :=
  node_empty compress empty leaves d i (front_width_covers past)

/-- Appending a leaf: fill the front up to the node above the leaf and write that node. -/
theorem front_snoc (empty leaf : Digest) (leaves : List Digest) (d : Nat) :
    (front compress empty leaves d ++
        List.replicate (leaves.length / 2 ^ d + 1 - frontWidth leaves.length d)
          (emptyNode compress empty d)).set (leaves.length / 2 ^ d)
        (node compress (padded empty (leaves ++ [leaf])) d (leaves.length / 2 ^ d)) =
      front compress empty (leaves ++ [leaf]) d := by
  have near := front_width_near leaves.length d
  have wide : frontWidth (leaves ++ [leaf]).length d = leaves.length / 2 ^ d + 1 := by
    rw [List.length_append, List.length_singleton, front_width_snoc]
  apply List.ext_getElem?
  intro i
  rw [List.getElem?_set]
  by_cases newest : leaves.length / 2 ^ d = i
  · subst newest
    rw [front_get _ _ _ _ _ (by omega), if_pos rfl, if_pos]
    rw [List.length_append, front_length, List.length_replicate]
    omega
  · rw [if_neg newest]
    by_cases old : i < leaves.length / 2 ^ d
    · have kept := node_append_other compress empty leaf leaves d i (Ne.symm newest)
      rw [front_get _ _ _ _ _ (by omega), kept, List.getElem?_append_left (by
        rw [front_length]
        omega), front_get _ _ _ _ _ (by omega)]
    · rw [List.getElem?_eq_none, List.getElem?_eq_none]
      · rw [front_length]
        omega
      · rw [List.length_append, front_length, List.length_replicate]
        omega

/-- Writing that node again changes nothing. -/
theorem front_rewrite (empty leaf : Digest) (leaves : List Digest) (d : Nat) :
    (front compress empty (leaves ++ [leaf]) d ++
        List.replicate (leaves.length / 2 ^ d + 1 - frontWidth (leaves ++ [leaf]).length d)
          (emptyNode compress empty d)).set (leaves.length / 2 ^ d)
        (node compress (padded empty (leaves ++ [leaf])) d (leaves.length / 2 ^ d)) =
      front compress empty (leaves ++ [leaf]) d := by
  have wide : frontWidth (leaves ++ [leaf]).length d = leaves.length / 2 ^ d + 1 := by
    rw [List.length_append, List.length_singleton, front_width_snoc]
  have written := front_get compress empty (leaves ++ [leaf]) d (leaves.length / 2 ^ d) (by omega)
  rw [wide, Nat.sub_self, List.replicate_zero, List.append_nil]
  obtain ⟨inside, held⟩ := List.getElem?_eq_some_iff.mp written
  rw [← held, List.set_getElem_self]

end Fronts

/-! A tree that is empty but for its leftmost leaves. The path along the left
edge meets empty nodes only, so such a tree is given by the running values of
that path, and a written-out list of them can be checked step by step. -/
section LeftEdge

theorem path_left (empty : Digest) (leaves : List Digest) (d n : Nat)
    (short : leaves.length ≤ 2 ^ d) :
    pathFrom compress (padded empty leaves) d n 0 =
      (List.range' d n).map fun k => (emptyNode compress empty k, true) := by
  induction n generalizing d with
  | zero => rfl
  | succ n ih =>
      have wider : leaves.length ≤ 2 ^ (d + 1) :=
        Nat.le_trans short (Nat.pow_le_pow_right (by decide) (Nat.le_succ d))
      have right := node_empty compress empty leaves d 1 (by rwa [Nat.one_mul])
      rw [pathFrom, List.range'_succ, List.map_cons, Nat.zero_div, ih (d + 1) wider]
      simp [sibling, right]

/-- The climb from a node compresses the honest pair above it at every level. -/
theorem path_inputs (leaf : Nat → Digest) (d n i k : Nat) (inside : k < n) :
    (node compress leaf (d + k) (2 * (i / 2 ^ (k + 1))),
      node compress leaf (d + k) (2 * (i / 2 ^ (k + 1)) + 1)) ∈
        climbInputs compress (node compress leaf d i) (pathFrom compress leaf d n i) := by
  induction n generalizing d i k with
  | zero => exact absurd inside (Nat.not_lt_zero k)
  | succ n ih =>
      rw [pathFrom, climbInputs, node_parent]
      cases k with
      | zero =>
          rw [Nat.add_zero, Nat.zero_add, Nat.pow_one]
          apply List.mem_cons.mpr
          left
          rcases Nat.mod_two_eq_zero_or_one i with even | odd
          · have left : 2 * (i / 2) = i := by omega
            simp [stepInputs, sibling, even, left]
          · have near : 2 * (i / 2) = i - 1 := by omega
            have right : i - 1 + 1 = i := by omega
            have side : ¬ i % 2 = 0 := by omega
            simp [stepInputs, sibling, side, near, right]
      | succ k =>
          have above := ih (d + 1) (i / 2) k (Nat.lt_of_succ_lt_succ inside)
          rw [Nat.div_div_eq_div_mul, ← Nat.pow_succ', Nat.add_assoc, Nat.add_comm 1] at above
          exact List.mem_cons_of_mem _ above

/-- A tree of at most one leaf compresses that leaf's path and pairs of empty nodes. -/
theorem single_inputs (empty : Digest) (leaves : List Digest) (short : leaves.length ≤ 1)
    (depth : Nat) (inputs : Digest × Digest)
    (used : TreeInputs compress (padded empty leaves) depth inputs) :
    inputs ∈ climbInputs compress (padded empty leaves 0)
        ((List.range depth).map fun k => (emptyNode compress empty k, true)) ∨
      ∃ d < depth, inputs = (emptyNode compress empty d, emptyNode compress empty d) := by
  obtain ⟨d, i, low, narrow, rfl⟩ := used
  cases i with
  | zero =>
      left
      have honest := path_inputs compress (padded empty leaves) 0 depth 0 d low
      rwa [Nat.zero_div, Nat.zero_add, path_left compress empty leaves 0 depth short,
        ← List.range_eq_range'] at honest
  | succ i =>
      right
      have positive : 0 < 2 ^ d := Nat.two_pow_pos d
      have beyond : leaves.length ≤ 2 * (i + 1) * 2 ^ d :=
        Nat.le_trans short (Nat.mul_pos (by omega) positive)
      have further : leaves.length ≤ (2 * (i + 1) + 1) * 2 ^ d :=
        Nat.le_trans short (Nat.mul_pos (by omega) positive)
      exact ⟨d, low, by
        rw [node_empty compress empty leaves d _ beyond,
          node_empty compress empty leaves d _ further]⟩

theorem empty_node_shift (empty : Digest) (d : Nat) :
    emptyNode compress (compress empty empty) d = emptyNode compress empty (d + 1) := by
  induction d with
  | zero => rfl
  | succ d ih =>
      rw [emptyNode, ih]
      rfl

variable [DecidableEq Digest]

/-- `values` are the results of the climb, one after each step. -/
def climbsBy : Digest → List (Digest × Bool) → List Digest → Bool
  | _, [], [] => true
  | current, step :: path, value :: values =>
      climbStep compress current step == value && climbsBy value path values
  | _, _, _ => false

theorem climbs_by_end {current : Digest} {path : List (Digest × Bool)} {values : List Digest}
    (checked : climbsBy compress current path values = true) :
    climb compress current path = values.getLastD current := by
  fun_induction climbsBy compress current path values with
  | case1 current => rfl
  | case2 current step path value values ih =>
      rw [Bool.and_eq_true, beq_iff_eq] at checked
      have above := ih checked.2
      rw [climb] at above ⊢
      rw [List.foldl_cons, checked.1, above, List.getLastD_cons]
  | case3 => exact absurd checked Bool.false_ne_true

/-- The rows of a checked climb: what each step compressed and the result. -/
def climbTable (current : Digest) (path : List (Digest × Bool)) (values : List Digest) :
    List ((Digest × Digest) × Digest) :=
  (List.zipWith stepInputs (current :: values) path).zip values

theorem climbs_by_table {current : Digest} {path : List (Digest × Bool)} {values : List Digest}
    (checked : climbsBy compress current path values = true) :
    (climbInputs compress current path).map
        (fun inputs => (inputs, compress inputs.1 inputs.2)) =
      climbTable current path values := by
  fun_induction climbsBy compress current path values with
  | case1 current => rfl
  | case2 current step path value values ih =>
      rw [Bool.and_eq_true, beq_iff_eq] at checked
      obtain ⟨rfl, rest⟩ := checked
      rw [climbInputs, List.map_cons, ih rest]
      rfl
  | case3 => exact absurd checked Bool.false_ne_true

/-- `values` are the empty nodes above `node`, each the double of the one before. -/
def doublesBy : Digest → List Digest → Bool
  | _, [] => true
  | node, above :: values => compress node node == above && doublesBy above values

theorem doubles_by_nodes {empty : Digest} {values : List Digest}
    (checked : doublesBy compress empty values = true) :
    (List.range (values.length + 1)).map (emptyNode compress empty) = empty :: values := by
  induction values generalizing empty with
  | nil => rfl
  | cons above values ih =>
      rw [doublesBy, Bool.and_eq_true, beq_iff_eq] at checked
      obtain ⟨rfl, rest⟩ := checked
      rw [List.length_cons, List.range_succ_eq_map, List.map_cons, List.map_map, ← ih rest]
      congr 1
      apply List.map_congr_left
      intro d _
      exact (empty_node_shift compress empty d).symm

def doubleTable (empty : Digest) (values : List Digest) : List ((Digest × Digest) × Digest) :=
  ((empty :: values).zip values).map fun row => ((row.1, row.1), row.2)

theorem doubles_by_table {empty : Digest} {values : List Digest}
    (checked : doublesBy compress empty values = true) :
    (List.range values.length).map (fun d =>
        ((emptyNode compress empty d, emptyNode compress empty d),
          emptyNode compress empty (d + 1))) =
      doubleTable empty values := by
  have nodes := doubles_by_nodes compress checked
  have above : (List.range values.length).map (fun d => emptyNode compress empty (d + 1)) =
      values := by
    rw [List.range_succ_eq_map, List.map_cons, List.map_map] at nodes
    exact (List.cons.inj nodes).2
  rw [doubleTable]
  apply List.ext_getElem
  · simp
  · intro d inLeft inRight
    have node : (empty :: values)[d]? = some (emptyNode compress empty d) := by
      rw [← nodes, List.getElem?_map, List.getElem?_range (by simp at inLeft; omega)]
      rfl
    have next : values[d]? = some (emptyNode compress empty (d + 1)) := by
      rw [← above, List.getElem?_map, List.getElem?_range (by simpa using inLeft)]
      rfl
    rw [List.getElem?_eq_some_iff] at node next
    obtain ⟨_, node⟩ := node
    obtain ⟨_, next⟩ := next
    simp [node, next]

/-- No two rows share a result and differ in what was compressed. -/
def rowsInjective {Inputs : Type} [DecidableEq Inputs] (rows : List (Inputs × Digest)) : Bool :=
  rows.all fun left => rows.all fun right => left.2 != right.2 || left.1 == right.1

theorem rows_injective {Inputs : Type} [DecidableEq Inputs] {rows : List (Inputs × Digest)}
    (checked : rowsInjective rows = true) {left right : Inputs × Digest} (inLeft : left ∈ rows)
    (inRight : right ∈ rows) (same : left.2 = right.2) : left.1 = right.1 := by
  have row := List.all_eq_true.mp (List.all_eq_true.mp checked left inLeft) right inRight
  rw [same, bne_self_eq_false, Bool.false_or] at row
  exact eq_of_beq row

end LeftEdge

end PrivateTransfer.MerkleTree
