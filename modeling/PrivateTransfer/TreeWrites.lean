import PrivateTransfer.MerkleUpdates
import PrivateTransfer.RedisTree
import PrivateTransfer.Weaving

/-!
What `add_leaf` writes, request by request, and what `get_proof` reads from a store into
which only some of it has been written. `add_leaf` writes the levels from the leaves up,
then the root, then the size, each over the value of the old tree.
-/

namespace PrivateTransfer.TreeWrites

open MerkleService (Hex64 emptyLeaf)
open RedisTree Script

/-! The requests of a script against a service that never fails. -/
section Asks
variable (compress : Hex64 → Hex64 → Hex64) (store : Store) {Result : Type}

def asks (script : RedisTree.Tree Result) : List Request := trace (serve compress) script store

theorem asks_request (request : Request) {answer : Answer request} {reached : Store}
    (answered : serve compress request store = (.ok answer, reached))
    (next : Answer request → RedisTree.Tree Result) :
    asks compress store (perform request >>= next) =
      request :: asks compress reached (next answer) := by
  have finished : run (serve compress) (perform request) store = (.ok answer, reached) := answered
  rw [asks, trace_bind_ok (serve compress) finished, trace_perform]
  rfl

theorem asks_get_level (d : Nat) (next : Option (List Hex64) → RedisTree.Tree Result) :
    asks compress store (getLevel d >>= next) =
      .getLevel d :: asks compress store (next (store.level d)) :=
  asks_request compress store (.getLevel d) rfl next

theorem asks_set_level (d : Nat) (level : List Hex64) (next : Unit → RedisTree.Tree Result) :
    asks compress store (setLevel d level >>= next) =
      .setLevel d level :: asks compress (store.setLevel d level) (next ()) :=
  asks_request compress store (.setLevel d level) rfl next

theorem asks_get_size (next : Option Nat → RedisTree.Tree Result) :
    asks compress store (getSize >>= next) = .getSize :: asks compress store (next store.size) :=
  asks_request compress store .getSize rfl next

theorem asks_set_root (root : Hex64) (next : Unit → RedisTree.Tree Result) :
    asks compress store (setRoot root >>= next) =
      .setRoot root :: asks compress { store with root := some root } (next ()) :=
  asks_request compress store (.setRoot root) rfl next

theorem asks_bind {Value : Type} {script : RedisTree.Tree Value} {value : Value} {reached : Store}
    (finished : finish compress store script = (.ok value, reached))
    (next : Value → RedisTree.Tree Result) :
    asks compress store (script >>= next) =
      asks compress store script ++ asks compress reached (next value) :=
  trace_bind_ok (serve compress) finished next

theorem asks_index {level : List Hex64} {i : Nat} {hash : Hex64} (found : level[i]? = some hash)
    (next : Hex64 → RedisTree.Tree Result) :
    asks compress store (index level i >>= next) = asks compress store (next hash) := by
  rw [index, found]
  rfl

end Asks

section Writes
variable (compress : Hex64 → Hex64 → Hex64) (depth : Nat) (leaves : List Hex64)
  (commitment : Hex64)

/-- The new tree's value, wherever the request writes. -/
def Fresh : Request → Prop
  | .setLevel d level => level = MerkleTree.front compress emptyLeaf (leaves ++ [commitment]) d
  | .setEmpty _ _ => False
  | .setRoot root => root = MerkleTree.root compress emptyLeaf (leaves ++ [commitment]) depth
  | .setSize size => size = leaves.length + 1
  | _ => True

variable {compress depth leaves commitment}

theorem sibling_reads {store : Store} {d idx : Nat} {level : List Hex64} :
    ∀ request ∈ asks compress store (siblingOf d idx level),
      Fresh compress depth leaves commitment request := by
  intro request asked
  rw [siblingOf] at asked
  split at asked
  · rename_i present
    rw [index, List.getElem?_eq_getElem present] at asked
    cases asked
  · cases List.mem_singleton.mp asked
    trivial

theorem grow_reads {store : Store} {d missing : Nat} {level : List Hex64} :
    ∀ request ∈ asks compress store (growLevel d missing level),
      Fresh compress depth leaves commitment request := by
  induction missing generalizing level with
  | zero => exact fun _ => nofun
  | succ missing ih =>
      intro request asked
      rcases List.mem_cons.mp asked with rfl | later
      · trivial
      · exact ih request later

/-- What is hashed is the step of the climb. -/
theorem hash_asked {Result : Type} (store : Store) (current : Hex64) (step : Hex64 × Bool)
    (next : Hex64 → RedisTree.Tree Result) :
    asks compress store
        (match MerkleTree.stepInputs current step with
          | (left, right) => poseidon2Hash left right >>= next) =
      .hash (MerkleTree.stepInputs current step).1 (MerkleTree.stepInputs current step).2 ::
        asks compress store (next (MerkleTree.climbStep compress current step)) :=
  asks_request compress store (.hash _ _) rfl next

/-- The rounds of the path update, by induction on the levels that remain. -/
theorem update_writes (remaining d : Nat) {store : Store}
    (halfway : Halfway compress depth leaves commitment d store) (height : d + remaining = depth) :
    ∀ request ∈ asks compress store (updatePath remaining d (leaves.length / 2 ^ d)
        (MerkleTree.front compress emptyLeaf (leaves ++ [commitment]) d)),
      Fresh compress depth leaves commitment request := by
  induction remaining generalizing d store with
  | zero => exact fun _ => nofun
  | succ remaining ih =>
      have low : d + 1 ≤ depth := by omega
      have current := MerkleTree.front_newest compress emptyLeaf commitment leaves d _
        (Nat.le_refl _)
      have parent := MerkleTree.path_parent compress
        (MerkleTree.padded emptyLeaf (leaves ++ [commitment])) d leaves.length
      have written := MerkleTree.front_snoc compress emptyLeaf commitment leaves (d + 1)
      have rest := ih (d + 1) (halfway_write halfway) (by omega)
      rw [updatePath, asks_bind _ _ (sibling_finishes (halfway.empties d (by omega)) _ _),
        asks_index _ _ current]
      intro request asked
      rcases List.mem_append.mp asked with reads | asked
      · exact sibling_reads request reads
      rw [MerkleTree.step_sides, hash_asked, parent, asks_get_level,
        halfway.upper (d + 1) (Nat.lt_succ_self d) low, Option.getD_some,
        MerkleTree.parent_index] at asked
      dsimp only at asked
      rw [MerkleTree.front_length,
        asks_bind _ _ (finish_grow (halfway.empties (d + 1) low) _ _), written,
        asks_set_level] at asked
      rcases List.mem_cons.mp asked with rfl | asked
      · trivial
      rcases List.mem_cons.mp asked with rfl | asked
      · trivial
      rcases List.mem_append.mp asked with reads | asked
      · exact grow_reads request reads
      rcases List.mem_cons.mp asked with rfl | asked
      · rfl
      · exact rest request asked

/-- What `add_leaf` asks for at the stored size. -/
theorem add_asks {store : Store} (represents : Represents compress depth leaves store) :
    asks compress store (addLeaf leaves.length commitment depth) =
      .getSize :: .getLevel 0 ::
        .setLevel 0 (MerkleTree.front compress emptyLeaf (leaves ++ [commitment]) 0) ::
        (asks compress
            (store.setLevel 0 (MerkleTree.front compress emptyLeaf (leaves ++ [commitment]) 0))
            (updatePath depth 0 leaves.length
              (MerkleTree.front compress emptyLeaf (leaves ++ [commitment]) 0)) ++
          [.setRoot (MerkleTree.root compress emptyLeaf (leaves ++ [commitment]) depth),
            .setSize (leaves.length + 1)]) := by
  have first := halfway_first represents commitment
  obtain ⟨reached, updated, _⟩ := update_path depth 0 first (Nat.zero_add depth)
  rw [Nat.pow_zero, Nat.div_one] at updated
  have top := MerkleTree.front_newest compress emptyLeaf commitment leaves depth 0 (Nat.zero_le _)
  rw [addLeaf, asks_get_size, represents.size, Option.getD_some, if_neg (by simp),
    asks_get_level, represents.levels 0 (Nat.zero_le depth), Option.getD_some, place_leaf,
    asks_set_level, asks_bind _ _ updated, asks_index _ _ top, asks_set_root]
  rfl

/-- At the stored size `add_leaf` writes the new tree and nothing else. -/
theorem add_writes {store : Store} (represents : Represents compress depth leaves store) :
    ∀ request ∈ asks compress store (addLeaf leaves.length commitment depth),
      Fresh compress depth leaves commitment request := by
  have writes := update_writes depth 0 (halfway_first represents commitment) (Nat.zero_add depth)
  rw [Nat.pow_zero, Nat.div_one] at writes
  intro request asked
  rw [add_asks represents] at asked
  rcases List.mem_cons.mp asked with rfl | asked
  · trivial
  rcases List.mem_cons.mp asked with rfl | asked
  · trivial
  rcases List.mem_cons.mp asked with rfl | asked
  · rfl
  rcases List.mem_append.mp asked with path | asked
  · exact writes request path
  rcases List.mem_cons.mp asked with rfl | asked
  · rfl
  · cases List.mem_singleton.mp asked
    rfl

end Writes

/-! A store into which only some of it has been written. -/
section Mixed
variable (compress : Hex64 → Hex64 → Hex64) (depth : Nat) (leaves : List Hex64)
  (commitment : Hex64)

def wroteLevel (made : List Request) (d : Nat) : Bool :=
  made.any fun
    | .setLevel k _ => k == d
    | _ => false

def wroteRoot (made : List Request) : Bool :=
  made.any fun
    | .setRoot _ => true
    | _ => false

def wroteSize (made : List Request) : Bool :=
  made.any fun
    | .setSize _ => true
    | _ => false

/-- The old tree, but for what these requests have written. -/
structure Mixed (made : List Request) (store : Store) : Prop where
  size : store.size = some (if wroteSize made then leaves.length + 1 else leaves.length)
  root : store.root = some (MerkleTree.root compress emptyLeaf
    (MerkleTree.appended commitment leaves (wroteRoot made)) depth)
  levels : ∀ d ≤ depth, store.level d = some (MerkleTree.front compress emptyLeaf
    (MerkleTree.appended commitment leaves (wroteLevel made d)) d)
  empties : ∀ d ≤ depth, store.empty d = some (MerkleTree.emptyNode compress emptyLeaf d)

variable {compress depth leaves commitment} {d : Nat}

theorem mixed_start {store : Store} (represents : Represents compress depth leaves store) :
    Mixed compress depth leaves commitment [] store :=
  ⟨represents.size, represents.root, represents.levels, represents.empties⟩

/-- One request more. -/
theorem mixed_step (made : List Request) (store : Store) (request : Request)
    (mixed : Mixed compress depth leaves commitment made store)
    (fresh : Fresh compress depth leaves commitment request) :
    Mixed compress depth leaves commitment (made ++ [request])
      (serve compress request store).2 := by
  obtain ⟨size, root, levels, empties⟩ := mixed
  cases request with
  | setLevel d level =>
      rw [Fresh] at fresh
      constructor
      · simpa [wroteSize, serve, Store.setLevel] using size
      · simpa [wroteRoot, serve, Store.setLevel] using root
      · intro k inside
        by_cases new : k = d
        · subst new
          simp [serve, wroteLevel, fresh, MerkleTree.appended]
        · have other : (d == k) = false := beq_eq_false_iff_ne.mpr fun same => new same.symm
          simpa [serve, wroteLevel, set_level_other store level new, other] using levels k inside
      · simpa [serve, Store.setLevel] using empties
  | setEmpty d hash => cases fresh
  | setRoot root' =>
      rw [Fresh] at fresh
      constructor
      · simpa [wroteSize, serve] using size
      · simp [wroteRoot, serve, fresh, MerkleTree.appended]
      · simpa [wroteLevel, serve] using levels
      · simpa [serve] using empties
  | setSize size' =>
      rw [Fresh] at fresh
      constructor
      · simp [wroteSize, serve, fresh]
      · simpa [wroteRoot, serve] using root
      · simpa [wroteLevel, serve] using levels
      · simpa [serve] using empties
  | _ =>
      constructor
      · simpa [wroteSize, serve] using size
      · simpa [wroteRoot, serve] using root
      · simpa [wroteLevel, serve] using levels
      · simpa [serve] using empties

/-- The sibling on a level that is kept to its front. -/
theorem sibling_answered {Good : List Request → Store → Prop}
    (empty : ∀ made store, Good made store →
      store.empty d = some (MerkleTree.emptyNode compress emptyLeaf d)) {idx : Nat}
    {log : List (Request × List Request)} {result : Except TreeError Hex64}
    (answered : Answered (serve compress) Good
      (siblingOf d idx (MerkleTree.front compress emptyLeaf leaves d)) log result) :
    result = .ok (MerkleTree.node compress (MerkleTree.padded emptyLeaf leaves) d
        (MerkleTree.sibling idx)) ∧
      ∀ entry ∈ log, entry.1 = .getEmpty d := by
  have same : siblingIdx idx = MerkleTree.sibling idx := rfl
  rw [siblingOf, same, MerkleTree.front_length] at answered
  by_cases present : MerkleTree.sibling idx < MerkleTree.frontWidth leaves.length d
  · rw [if_pos present, index, MerkleTree.front_get _ _ _ _ _ present] at answered
    cases answered
    exact ⟨rfl, by simp⟩
  · rw [if_neg present] at answered
    obtain ⟨made, store, answer, rest, good, served, rfl, behind⟩ :=
      answered_request (fun store => ⟨store.empty d, rfl⟩) answered
    cases served
    cases behind
    rw [empty made store good, MerkleTree.front_past _ _ _ (Nat.le_of_not_lt present)]
    exact ⟨rfl, by simp⟩

/-- The log reads each of `count` levels from `d` on, in the state its flag says, and no root. -/
structure ReadAs (flags : Nat → Bool) (d count : Nat) (log : List (Request × List Request)) :
    Prop where
  levels : ∀ level made, (.getLevel level, made) ∈ log →
    d ≤ level ∧ wroteLevel made level = flags level
  rootless : ∀ entry ∈ log, entry.1 ≠ .getRoot
  asked : ∀ level, d ≤ level → level < d + count → ∃ made, (.getLevel level, made) ∈ log

/-- One level more, below the others. -/
theorem read_as_cons {flags : Nat → Bool} {count : Nat} (made : List Request)
    {empties above : List (Request × List Request)}
    (siblings : ∀ entry ∈ empties, entry.1 = .getEmpty d)
    (read : ReadAs flags (d + 1) count above) :
    ReadAs (Function.update flags d (wroteLevel made d)) d (count + 1)
      ((.getLevel d, made) :: (empties ++ above)) := by
  constructor
  · intro level held member
    rcases List.mem_cons.mp member with own | member
    · cases own
      exact ⟨Nat.le_refl d, (Function.update_self d _ flags).symm⟩
    rcases List.mem_append.mp member with empty | member
    · cases siblings _ empty
    · obtain ⟨high, same⟩ := read.levels level held member
      exact ⟨Nat.le_of_succ_le high, same.trans (Function.update_of_ne (by omega) ..).symm⟩
  · intro entry member
    rcases List.mem_cons.mp member with rfl | member
    · simp
    rcases List.mem_append.mp member with empty | member
    · simp [siblings _ empty]
    · exact read.rootless entry member
  · intro level low high
    rcases Nat.eq_or_lt_of_le low with rfl | higher
    · exact ⟨made, List.mem_cons_self⟩
    · obtain ⟨held, member⟩ := read.asked level higher (by omega)
      exact ⟨held, by simp [member]⟩

/-- Every level of a path is from the tree its read finds there. -/
theorem proof_answered (remaining d idx : Nat) (height : d + remaining ≤ depth)
    {log : List (Request × List Request)} {result : Except TreeError (List (Hex64 × Bool))}
    (answered : Answered (serve compress) (Mixed compress depth leaves commitment)
      (proofFrom remaining d idx) log result) :
    ∃ flags, result = .ok (MerkleTree.tornPath compress emptyLeaf commitment leaves flags d
        remaining idx) ∧ ReadAs flags d remaining log := by
  induction remaining generalizing d idx log result with
  | zero =>
      cases answered
      exact ⟨fun _ => false, rfl, by simp, by simp, fun level low high => by omega⟩
  | succ remaining ih =>
      obtain ⟨made, store, level, rest, mixed, served, rfl, behind⟩ :=
        answered_request (fun store => ⟨store.level d, rfl⟩) answered
      cases served
      rw [mixed.levels d (by omega), Option.getD_some] at behind
      obtain ⟨reads, others, sibling, rfl, read, behind⟩ := answered_bind behind
      obtain ⟨rfl, empties⟩ := sibling_answered
        (fun made store good => Mixed.empties good d (by omega)) read
      obtain ⟨upper, last, above, rfl, climbed, behind⟩ := answered_bind behind
      obtain ⟨flags, rfl, readAbove⟩ := ih (d + 1) (idx / 2) (by omega) climbed
      cases behind
      have upwards : ∀ k, d + 1 ≤ k → Function.update flags d (wroteLevel made d) k = flags k :=
        fun k high => Function.update_of_ne (by omega) ..
      have rest := MerkleTree.torn_path_above compress emptyLeaf commitment leaves upwards
        remaining (idx / 2)
      rw [List.append_nil]
      refine ⟨Function.update flags d (wroteLevel made d), ?_, read_as_cons made empties readAbove⟩
      rw [← rest, MerkleTree.tornPath, MerkleTree.pathAcross, Function.update_self]

/-- Every read of a proof is of the old tree or of the new one, each level by itself. -/
theorem served_answered {leafIndex : Nat} {log : List (Request × List Request)}
    {result : Except TreeError (List Hex64 × List Bool × Hex64)}
    (answered : Answered (serve compress) (Mixed compress depth leaves commitment)
      (getProof leafIndex depth) log result) :
    ∃ flags served, result = .ok
        ((MerkleTree.tornPath compress emptyLeaf commitment leaves flags 0 depth leafIndex).map
            Prod.fst,
          (MerkleTree.tornPath compress emptyLeaf commitment leaves flags 0 depth leafIndex).map
            Prod.snd,
          MerkleTree.root compress emptyLeaf (MerkleTree.appended commitment leaves served) depth) ∧
      (∀ d < depth, (∃ made, (.getLevel d, made) ∈ log) ∧
        ∀ made, (.getLevel d, made) ∈ log → wroteLevel made d = flags d) ∧
      (∃ made, (.getRoot, made) ∈ log) ∧
      ∀ made, (.getRoot, made) ∈ log → wroteRoot made = served := by
  obtain ⟨front, back, steps, rfl, climbed, behind⟩ := answered_bind answered
  obtain ⟨flags, rfl, read⟩ := proof_answered depth 0 leafIndex (by omega) climbed
  obtain ⟨made, store, root, rest, mixed, served, rfl, behind⟩ :=
    answered_request (fun store => ⟨store.root, rfl⟩) behind
  cases served
  cases behind
  refine ⟨flags, wroteRoot made, ?_, ?_, ⟨made, by simp⟩, ?_⟩
  · rw [mixed.root]
    rfl
  · intro d low
    obtain ⟨held, member⟩ := read.asked d (Nat.zero_le d) (by omega)
    refine ⟨⟨held, List.mem_append_left _ member⟩, ?_⟩
    intro other found
    rcases List.mem_append.mp found with early | late
    · exact (read.levels d other early).2
    · cases List.mem_singleton.mp late
  · intro other found
    rcases List.mem_append.mp found with early | late
    · exact absurd rfl (read.rootless _ early)
    · cases List.mem_singleton.mp late
      rfl

theorem get_proof_reads (compress : Hex64 → Hex64 → Hex64) (leafIndex depth : Nat) :
    ReadOnly (serve compress) (getProof leafIndex depth) := by
  have sibling : ∀ d idx level, ReadOnly (serve compress) (siblingOf d idx level) := by
    intro d idx level
    rw [siblingOf]
    split
    · rw [index]
      split <;> trivial
    · exact read_only_bind (read_only_perform fun _ => rfl) fun _ => trivial
  have steps : ∀ remaining d idx, ReadOnly (serve compress) (proofFrom remaining d idx) := by
    intro remaining
    induction remaining with
    | zero => exact fun _ _ => trivial
    | succ remaining ih =>
        intro d idx
        refine read_only_bind (read_only_perform fun _ => rfl) fun stored => ?_
        refine read_only_bind (sibling d idx _) fun hash => ?_
        exact read_only_bind (ih (d + 1) (idx / 2)) fun _ => trivial
  exact read_only_bind (steps depth 0 leafIndex) fun _ =>
    read_only_bind (read_only_perform fun _ => rfl) fun _ => trivial

/-- Alone, a proof finds each level as it has been left. -/
theorem mixed_get_proof {made : List Request} {store : Store}
    (mixed : Mixed compress depth leaves commitment made store) (leafIndex : Nat) :
    (finish compress store (getProof leafIndex depth)).1 = .ok
      ((MerkleTree.tornPath compress emptyLeaf commitment leaves (wroteLevel made) 0 depth
          leafIndex).map Prod.fst,
        (MerkleTree.tornPath compress emptyLeaf commitment leaves (wroteLevel made) 0 depth
          leafIndex).map Prod.snd,
        MerkleTree.root compress emptyLeaf (MerkleTree.appended commitment leaves
          (wroteRoot made)) depth) := by
  obtain ⟨log, answered, _, alike⟩ :=
    run_answered mixed (get_proof_reads compress leafIndex depth)
  obtain ⟨flags, served, found, levels, ⟨rootMade, asked⟩, roots⟩ := served_answered answered
  have rooted : wroteRoot made = served := by
    rw [← alike _ asked]
    exact roots rootMade asked
  have flagged : ∀ d < depth, wroteLevel made d = flags d := by
    intro d low
    obtain ⟨⟨levelMade, read⟩, same⟩ := levels d low
    rw [← alike _ read]
    exact same levelMade read
  rw [rooted, MerkleTree.torn_path_congr compress emptyLeaf commitment leaves flagged]
  exact found

end Mixed

end PrivateTransfer.TreeWrites
