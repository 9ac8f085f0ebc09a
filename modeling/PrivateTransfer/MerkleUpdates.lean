import PrivateTransfer.MerkleTree

/-!
Paths in a tree while a leaf is appended. `pathAcross` takes each level from a tree of its
own, as a reader does whose levels are rewritten below it. The trees before and after
differ above the new leaf only, so a path meets the difference at one level at most.
-/

namespace PrivateTransfer.MerkleTree

variable {Digest : Type} (compress : Digest → Digest → Digest)

/-- The siblings on the way up, those of level `d` from the tree of `leafAt d`. -/
def pathAcross (leafAt : Nat → Nat → Digest) : Nat → Nat → Nat → List (Digest × Bool)
  | _, 0, _ => []
  | d, n + 1, i =>
      (node compress (leafAt d) d (sibling i), i % 2 == 0) ::
        pathAcross leafAt (d + 1) n (i / 2)

theorem path_across_one (leaf : Nat → Digest) (d n i : Nat) :
    pathAcross compress (fun _ => leaf) d n i = pathFrom compress leaf d n i := by
  induction n generalizing d i with
  | zero => rfl
  | succ n ih => rw [pathAcross, pathFrom, ih]

theorem path_across_get (leafAt : Nat → Nat → Digest) (d n i k : Nat) (inside : k < n) :
    (pathAcross compress leafAt d n i)[k]? =
      some (node compress (leafAt (d + k)) (d + k) (sibling (i / 2 ^ k)),
        i / 2 ^ k % 2 == 0) := by
  induction n generalizing d i k with
  | zero => exact absurd inside (Nat.not_lt_zero k)
  | succ n ih =>
      cases k with
      | zero => simp [pathAcross]
      | succ k =>
          rw [pathAcross, List.getElem?_cons_succ, ih (d + 1) (i / 2) k (by omega),
            Nat.add_right_comm, Nat.add_assoc, Nat.div_div_eq_div_mul, ← Nat.pow_succ']

@[simp] theorem path_across_length (leafAt : Nat → Nat → Digest) (d n i : Nat) :
    (pathAcross compress leafAt d n i).length = n := by
  induction n generalizing d i with
  | zero => rfl
  | succ n ih => simp [pathAcross, ih]

/-- Only the siblings count. -/
theorem path_across_congr {leafAt other : Nat → Nat → Digest} {n i : Nat}
    (same : ∀ d < n, node compress (leafAt d) d (sibling (i / 2 ^ d)) =
      node compress (other d) d (sibling (i / 2 ^ d))) :
    pathAcross compress leafAt 0 n i = pathAcross compress other 0 n i := by
  apply List.ext_getElem?
  intro k
  by_cases inside : k < n
  · rw [path_across_get _ _ _ _ _ _ inside, path_across_get _ _ _ _ _ _ inside, Nat.zero_add,
      same k inside]
  · rw [List.getElem?_eq_none (by simp; omega), List.getElem?_eq_none (by simp; omega)]

/-- Nothing below the first level counts. -/
theorem path_across_above {leafAt other : Nat → Nat → Digest} {d : Nat}
    (same : ∀ k, d ≤ k → leafAt k = other k) (n i : Nat) :
    pathAcross compress leafAt d n i = pathAcross compress other d n i := by
  induction n generalizing d i with
  | zero => rfl
  | succ n ih =>
      rw [pathAcross, pathAcross, same d (Nat.le_refl d),
        ih (fun k above => same k (Nat.le_of_succ_le above))]

/-- At height `d` the path of leaf `i` has a node above leaf `n` for its sibling. -/
def Meets (n i d : Nat) : Prop := sibling (i / 2 ^ d) = n / 2 ^ d

section Meeting
variable {n i d : Nat}

theorem sibling_parent (i : Nat) : sibling i / 2 = i / 2 ∧ sibling i ≠ i := by
  rw [sibling]
  split <;> omega

/-- Above the level at which two paths meet they are one. -/
theorem meets_joined (meets : Meets n i d) {e : Nat} (above : d < e) : i / 2 ^ e = n / 2 ^ e := by
  obtain ⟨k, rfl⟩ := Nat.exists_eq_add_of_lt above
  have parent : i / 2 ^ d / 2 = n / 2 ^ d / 2 := by rw [← meets, (sibling_parent _).1]
  have split : 2 ^ (d + k + 1) = 2 ^ d * (2 * 2 ^ k) := by
    rw [← Nat.pow_succ', ← Nat.pow_add, Nat.add_assoc]
  rw [split, ← Nat.div_div_eq_div_mul, ← Nat.div_div_eq_div_mul, ← Nat.div_div_eq_div_mul,
    ← Nat.div_div_eq_div_mul, parent]

theorem meets_once {e : Nat} (first : Meets n i d) (second : Meets n i e) : d = e := by
  have apart : ∀ {low high : Nat}, Meets n i low → Meets n i high → ¬ low < high := by
    intro low high lower higher above
    rw [Meets, ← meets_joined lower above] at higher
    exact (sibling_parent _).2 higher
  exact Nat.le_antisymm (Nat.le_of_not_lt (apart second first))
    (Nat.le_of_not_lt (apart first second))

/-- A leaf further left meets the path from the left. -/
theorem meets_odd (inside : i < n) (meets : Meets n i d) : n / 2 ^ d % 2 = 1 := by
  have order : i / 2 ^ d ≤ n / 2 ^ d := Nat.div_le_div_right (Nat.le_of_lt inside)
  rw [Meets, sibling] at meets
  generalize i / 2 ^ d = left at order meets
  generalize n / 2 ^ d = right at order meets ⊢
  split at meets <;> omega

/-- Where the path of leaf `n` comes from the right, some leaf further left meets it. -/
theorem odd_meets (odd : n / 2 ^ d % 2 = 1) :
    (n / 2 ^ d - 1) * 2 ^ d < n ∧ Meets n ((n / 2 ^ d - 1) * 2 ^ d) d := by
  have whole : n / 2 ^ d * 2 ^ d ≤ n := Nat.div_mul_le_self n (2 ^ d)
  have positive : 0 < 2 ^ d := Nat.two_pow_pos d
  constructor
  · generalize n / 2 ^ d = right at odd whole
    have less : right - 1 < right := by omega
    exact Nat.lt_of_lt_of_le (Nat.mul_lt_mul_of_pos_right less positive) whole
  · rw [Meets, Nat.mul_div_cancel _ positive, sibling]
    generalize n / 2 ^ d = right at odd
    split <;> omega

end Meeting

section Appending
variable (empty leaf : Digest) (leaves : List Digest)

/-- The leaves before or after. -/
def appended (after : Bool) : List Digest := if after then leaves ++ [leaf] else leaves

/-- The path a reader gets that finds the level of each height before or after. -/
def tornPath (flags : Nat → Bool) : Nat → Nat → Nat → List (Digest × Bool) :=
  pathAcross compress fun d => padded empty (appended leaf leaves (flags d))

theorem torn_path_above {flags other : Nat → Bool} {d : Nat}
    (same : ∀ k, d ≤ k → flags k = other k) (n i : Nat) :
    tornPath compress empty leaf leaves flags d n i =
      tornPath compress empty leaf leaves other d n i :=
  path_across_above compress (fun k above => by rw [same k above]) n i

theorem torn_path_congr {flags other : Nat → Bool} {n i : Nat}
    (same : ∀ d < n, flags d = other d) :
    tornPath compress empty leaf leaves flags 0 n i =
      tornPath compress empty leaf leaves other 0 n i :=
  path_across_congr compress fun d inside => by rw [same d inside]

theorem appended_node {flag other : Bool} {d k : Nat} (apart : k ≠ leaves.length / 2 ^ d) :
    node compress (padded empty (appended leaf leaves flag)) d k =
      node compress (padded empty (appended leaf leaves other)) d k := by
  have moved := node_append_other compress empty leaf leaves d k apart
  cases flag <;> cases other <;> simp [appended, moved]

/-- Whatever it finds elsewhere, the path is that of the tree it finds where the paths meet. -/
theorem torn_path (flags : Nat → Bool) (after : Bool) (depth i : Nat)
    (meeting : ∀ d < depth, Meets leaves.length i d → flags d = after) :
    tornPath compress empty leaf leaves flags 0 depth i =
      pathFrom compress (padded empty (appended leaf leaves after)) 0 depth i := by
  rw [tornPath, ← path_across_one]
  apply path_across_congr
  intro d inside
  by_cases meets : Meets leaves.length i d
  · rw [meeting d inside meets]
  · exact appended_node compress empty leaf leaves meets

/-- The old paths are as they were exactly if no level on which some old path meets the new
leaf's is found with another node there. -/
theorem torn_paths_old_iff (flags : Nat → Bool) (depth : Nat) :
    (∀ i < leaves.length, tornPath compress empty leaf leaves flags 0 depth i =
        pathFrom compress (padded empty leaves) 0 depth i) ↔
      ∀ d < depth, flags d = true → leaves.length / 2 ^ d % 2 = 1 →
        node compress (padded empty (leaves ++ [leaf])) d (leaves.length / 2 ^ d) =
          node compress (padded empty leaves) d (leaves.length / 2 ^ d) := by
  constructor
  · intro unmoved d low found odd
    obtain ⟨inside, meets⟩ := odd_meets odd
    have same := congrArg (fun path => path[d]?) (unmoved _ inside)
    rw [← path_across_one, tornPath] at same
    simp only [path_across_get _ _ _ _ _ _ low, Nat.zero_add, found, Option.some.injEq,
      Prod.mk.injEq] at same
    rw [Meets] at meets
    rw [meets] at same
    exact same.1
  · intro kept i inside
    rw [tornPath, ← path_across_one]
    apply path_across_congr
    intro d low
    by_cases meets : Meets leaves.length i d
    · cases found : flags d with
      | false => rfl
      | true =>
          have same := kept d low found (meets_odd inside meets)
          rw [Meets] at meets
          rw [meets]
          exact same
    · change _ = node compress (padded empty (appended leaf leaves false)) d _
      exact appended_node compress empty leaf leaves meets

theorem appended_leaf {i : Nat} (inside : i < leaves.length) (after : Bool) :
    padded empty (appended leaf leaves after) i = padded empty leaves i := by
  cases after with
  | false => rfl
  | true =>
      simp [appended, padded, List.getD_eq_getElem?_getD, List.getElem?_append_left inside]

/-- Such a path climbs to the root of the tree it finds where the paths meet. -/
theorem torn_climbs (flags : Nat → Bool) (after : Bool) {depth i : Nat}
    (inside : i < leaves.length) (fits : i < 2 ^ depth)
    (meeting : ∀ d < depth, Meets leaves.length i d → flags d = after) :
    climb compress (padded empty leaves i) (tornPath compress empty leaf leaves flags 0 depth i) =
      root compress empty (appended leaf leaves after) depth := by
  rw [torn_path compress empty leaf leaves flags after depth i meeting,
    ← appended_leaf empty leaf leaves inside after]
  exact climb_leaf compress _ depth i fits

/-- The path climbs to a served root exactly if both are of one tree where the paths meet. -/
theorem torn_climbs_iff (flags : Nat → Bool) (served : Bool) {depth i : Nat}
    (inside : i < leaves.length) (fits : i < 2 ^ depth) :
    climb compress (padded empty leaves i) (tornPath compress empty leaf leaves flags 0 depth i) =
        root compress empty (appended leaf leaves served) depth ↔
      (∀ d < depth, Meets leaves.length i d → flags d = served) ∨
        root compress empty (leaves ++ [leaf]) depth = root compress empty leaves depth := by
  have climbs := fun after =>
    @torn_climbs _ compress empty leaf leaves flags after depth i inside fits
  by_cases exists' : ∃ d < depth, Meets leaves.length i d
  · obtain ⟨d, low, meets⟩ := exists'
    have climbed := climbs (flags d) fun e _ other => by rw [meets_once meets other]
    rw [climbed]
    constructor
    · intro same
      by_cases equal : flags d = served
      · left
        intro e _ other
        rw [← meets_once meets other, equal]
      · right
        cases flag : flags d <;> cases served <;> simp_all [appended]
    · rintro (equal | same)
      · rw [equal d low meets]
      · cases flags d <;> cases served <;> simp [appended, same]
  · have nowhere : ∀ after : Bool, ∀ d < depth, Meets leaves.length i d → flags d = after :=
      fun after d low meets => absurd ⟨d, low, meets⟩ exists'
    constructor
    · exact fun _ => Or.inl (nowhere served)
    · exact fun _ => climbs served (nowhere served)

end Appending

end PrivateTransfer.MerkleTree
