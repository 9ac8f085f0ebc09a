import PrivateTransfer.Interruption
import PrivateTransfer.RedisTree

/-!
`backend/src/main.rs`, the synchronisation of the tree at startup, and what the
store can look like when the process stops between any two of its requests. The
merkle service of a host may refuse any of its hash requests.
-/

namespace PrivateTransfer.TreeRecovery

open MerkleService RedisTree Script

/-- The answer of the merkle service to its `n`-th hash request. -/
abbrev HashService := Nat → Hex64 → Hex64 → Except String Hex64

structure Host where
  store : Store
  hashed : Nat

def serveHost (answers : HashService) :
    (request : Request) → Host → Except TreeError (Answer request) × Host
  | .hash left right, host =>
      ((answers host.hashed left right).mapError .hash, { host with hashed := host.hashed + 1 })
  | .getLevel d, host => (.ok (host.store.level d), host)
  | .setLevel d level, host => (.ok (), { host with store := host.store.setLevel d level })
  | .getEmpty d, host => (.ok (host.store.empty d), host)
  | .setEmpty d hash, host => (.ok (), { host with store := host.store.setEmpty d hash })
  | .getRoot, host => (.ok host.store.root, host)
  | .setRoot root, host => (.ok (), { host with store := { host.store with root := some root } })
  | .getSize, host => (.ok host.store.size, host)
  | .setSize size, host => (.ok (), { host with store := { host.store with size := some size } })

/-- A service that hashes correctly when it answers. -/
def Honest (compress : Hex64 → Hex64 → Hex64) (answers : HashService) : Prop :=
  ∀ n left right, (∃ message, answers n left right = .error message) ∨
    answers n left right = .ok (compress left right)

section Startup

/-- `tree_size == 0 && get_tree_root().is_none()` and the initialisation behind it. -/
def initIfAbsent (depth : Nat) : RedisTree.Tree Unit := do
  let treeSize ← getSize
  if treeSize.getD 0 = 0 then do
    let root ← getRoot
    if root.isNone then initEmptyTree depth else pure ()
  else pure ()

def addLeaves (depth : Nat) : List (Nat × Hex64) → RedisTree.Tree Unit
  | [] => pure ()
  | (leafIndex, commitment) :: rest => do
      let _ ← addLeaf leafIndex commitment depth
      addLeaves depth rest

/-- `if db_commitments.len() > current_size`. -/
def addMissing (dbCommitments : List (Nat × Hex64)) (currentSize depth : Nat) :
    RedisTree.Tree Unit :=
  if dbCommitments.length > currentSize then
    addLeaves depth (dbCommitments.drop currentSize)
  else pure ()

/-- The synchronisation in `main`, from the commitments the database answered. -/
def syncTree (dbCommitments : List (Nat × Hex64)) (depth : Nat) : RedisTree.Tree Unit := do
  initIfAbsent depth
  let currentSize ← getSize
  addMissing dbCommitments (currentSize.getD 0) depth
  let _ ← getRoot
  pure ()

/-- The rows of `get_commitments` when the leaf indices are consecutive from `first`. -/
def rowsFrom : (first : Nat) → List Hex64 → List (Nat × Hex64)
  | _, [] => []
  | first, commitment :: rest => (first, commitment) :: rowsFrom (first + 1) rest

def rows (commitments : List Hex64) : List (Nat × Hex64) := rowsFrom 0 commitments

/-- The indexer after the start: it notes what fails and goes on. -/
def indexLeaves (depth : Nat) : List (Nat × Hex64) → RedisTree.Tree Unit
  | [] => pure ()
  | (leafIndex, commitment) :: rest => do
      let _ ← attempt (addLeaf leafIndex commitment depth)
      indexLeaves depth rest

end Startup

/-! One life of the process: it starts on the rows the database has by then,
indexes some leaves, each with the database's commitment for its index, and
stops after some request. -/
section Lives
variable (compress : Hex64 → Hex64 → Hex64) (commitments : List Hex64)

structure Life where
  known : Nat
  calls : List (Nat × Hex64)
  stored : ∀ call ∈ calls, commitments[call.1]? = some call.2
  answers : HashService
  honest : Honest compress answers
  stop : Nat

def Life.script {compress : Hex64 → Hex64 → Hex64} {commitments : List Hex64}
    (life : Life compress commitments) (depth : Nat) : RedisTree.Tree Unit := do
  syncTree (rows (commitments.take life.known)) depth
  indexLeaves depth life.calls

def Life.leaves {compress : Hex64 → Hex64 → Hex64} {commitments : List Hex64}
    (life : Life compress commitments) (depth : Nat) (store : Store) : Store :=
  (stopped (serveHost life.answers) life.stop (life.script depth) ⟨store, 0⟩).store

def emptyStore : Store := ⟨fun _ => none, fun _ => none, none, none⟩

def survived {compress : Hex64 → Hex64 → Hex64} {commitments : List Hex64} (depth : Nat)
    (lives : List (Life compress commitments)) : Store :=
  lives.foldl (fun store life => life.leaves depth store) emptyStore

end Lives

/-! What a store can be in between: blank, or torn between two consecutive
trees. The size is the last write of `add_leaf`, so a torn store still has the
old one, and every cell below it is that of one of the two trees. -/
section Torn
variable (compress : Hex64 → Hex64 → Hex64)

structure Torn (depth : Nat) (older newer : List Hex64) (store : Store) : Prop where
  size : store.size.getD 0 = older.length
  root : store.root = some (MerkleTree.root compress emptyLeaf older depth) ∨
    store.root = some (MerkleTree.root compress emptyLeaf newer depth)
  levels : ∀ d ≤ depth, store.level d = some (MerkleTree.front compress emptyLeaf older d) ∨
    store.level d = some (MerkleTree.front compress emptyLeaf newer d)
  empties : ∀ d ≤ depth, store.empty d = some (MerkleTree.emptyNode compress emptyLeaf d)

def Blank (store : Store) : Prop := store.size = none ∧ store.root = none

def Recoverable (depth : Nat) (commitments : List Hex64) (store : Store) : Prop :=
  Blank store ∨ ∃ k ≤ commitments.length,
    Torn compress depth (commitments.take k) (commitments.take (k + 1)) store

def Mendable (depth : Nat) (commitments : List Hex64) (host : Host) : Prop :=
  Recoverable compress depth commitments host.store

/-- The two inputs hashed at height `d` on the way up from a leaf. -/
def pathInputs (leaves : List Hex64) (idx d : Nat) : Hex64 × Hex64 :=
  MerkleTree.stepInputs
    (MerkleTree.node compress (MerkleTree.padded emptyLeaf leaves) d (idx / 2 ^ d))
    (MerkleTree.node compress (MerkleTree.padded emptyLeaf leaves) d
      (MerkleTree.sibling (idx / 2 ^ d)), idx / 2 ^ d % 2 == 0)

end Torn

/-! The parts of the two loops that only read. -/
section Reading
variable {compress : Hex64 → Hex64 → Hex64} {answers : HashService} {host : Host} {Result : Type}
  {always : Host → Prop} {ending : Except TreeError Result → Host → Prop}

theorem through_index {level : List Hex64} {i : Nat} {hash : Hex64} (found : level[i]? = some hash)
    {next : Hex64 → RedisTree.Tree Result}
    (goesOn : Through (serveHost answers) always ending (next hash) host) :
    Through (serveHost answers) always ending (index level i >>= next) host := by
  rw [index, found]
  exact goesOn

theorem through_sibling {d : Nat}
    (empty : host.store.empty d = some (MerkleTree.emptyNode compress emptyLeaf d))
    (leaves : List Hex64) (idx : Nat) {next : Hex64 → RedisTree.Tree Result} (now : always host)
    (goesOn : Through (serveHost answers) always ending
      (next (MerkleTree.node compress (MerkleTree.padded emptyLeaf leaves) d
        (MerkleTree.sibling idx))) host) :
    Through (serveHost answers) always ending
      (siblingOf d idx (MerkleTree.front compress emptyLeaf leaves d) >>= next) host := by
  have same : siblingIdx idx = MerkleTree.sibling idx := rfl
  rw [siblingOf, same, MerkleTree.front_length]
  by_cases present : MerkleTree.sibling idx < MerkleTree.frontWidth leaves.length d
  · rw [if_pos present]
    exact through_index (MerkleTree.front_get _ _ _ _ _ present) goesOn
  · rw [MerkleTree.front_past _ _ _ (Nat.le_of_not_lt present)] at goesOn
    rw [if_neg present]
    refine ⟨now, ?_⟩
    change Through _ _ _ (next ((host.store.empty d).getD emptyLeaf)) host
    rw [empty]
    exact goesOn

theorem through_grow (host : Host) {d : Nat}
    (empty : host.store.empty d = some (MerkleTree.emptyNode compress emptyLeaf d))
    (missing : Nat) (level : List Hex64) {next : List Hex64 → RedisTree.Tree Result}
    (now : always host)
    (goesOn : Through (serveHost answers) always ending
      (next (level ++ List.replicate missing (MerkleTree.emptyNode compress emptyLeaf d))) host) :
    Through (serveHost answers) always ending (growLevel d missing level >>= next) host := by
  induction missing generalizing level with
  | zero =>
      rw [List.replicate_zero, List.append_nil] at goesOn
      exact goesOn
  | succ missing ih =>
      rw [List.replicate_succ, ← List.singleton_append, ← List.append_assoc] at goesOn
      refine ⟨now, ?_⟩
      change Through _ _ _
        (growLevel d missing (level ++ [(host.store.empty d).getD emptyLeaf]) >>= next) host
      rw [empty]
      exact ih _ goesOn

/-- A hash request: the service refuses, or answers what it should. -/
theorem through_hash (honest : Honest compress answers) (inputs : Hex64 × Hex64)
    {next : Hex64 → RedisTree.Tree Result} (now : always host)
    (refused : ∀ message, answers host.hashed inputs.1 inputs.2 = .error message →
      always { host with hashed := host.hashed + 1 } ∧
        ending (.error (.hash message)) { host with hashed := host.hashed + 1 })
    (answered : answers host.hashed inputs.1 inputs.2 = .ok (compress inputs.1 inputs.2) →
      Through (serveHost answers) always ending (next (compress inputs.1 inputs.2))
        { host with hashed := host.hashed + 1 }) :
    Through (serveHost answers) always ending
      (match inputs with | (left, right) => poseidon2Hash left right >>= next) host := by
  obtain ⟨left, right⟩ := inputs
  rcases honest host.hashed left right with ⟨message, refuses⟩ | answers'
  · obtain ⟨kept, ends⟩ := refused message refuses
    refine through_refused (Request.hash left right) ?_ now kept ends
    rw [serveHost, refuses]
    rfl
  · refine through_perform (Request.hash left right) ?_ now (answered answers')
    rw [serveHost, answers']
    rfl

end Reading

/-! One leaf at the stored size, over a store torn at that leaf. -/
section Adding
variable {compress : Hex64 → Hex64 → Hex64} {depth : Nat} {leaves : List Hex64} {commitment : Hex64}

/-- The path update has rewritten the levels up to `d`. -/
structure Climbed (compress : Hex64 → Hex64 → Hex64) (depth : Nat) (leaves : List Hex64)
    (commitment : Hex64) (d : Nat) (store : Store) : Prop where
  torn : Torn compress depth leaves (leaves ++ [commitment]) store
  lower : ∀ k ≤ d, k ≤ depth →
    store.level k = some (MerkleTree.front compress emptyLeaf (leaves ++ [commitment]) k)

/-- A level is there, of one tree or the other. -/
theorem torn_level {newer : List Hex64} {store : Store}
    (torn : Torn compress depth leaves newer store) {d : Nat} (low : d ≤ depth) :
    ∃ level, store.level d = some level ∧
      (level = MerkleTree.front compress emptyLeaf leaves d ∨
        level = MerkleTree.front compress emptyLeaf newer d) := by
  rcases torn.levels d low with old | new
  · exact ⟨_, old, Or.inl rfl⟩
  · exact ⟨_, new, Or.inr rfl⟩

theorem torn_write {newer : List Hex64} {store : Store}
    (torn : Torn compress depth leaves newer store) (d : Nat) :
    Torn compress depth leaves newer
      (store.setLevel d (MerkleTree.front compress emptyLeaf newer d)) := by
  constructor
  · exact torn.size
  · exact torn.root
  · intro k inside
    by_cases new : k = d
    · subst new
      exact Or.inr (set_level_self ..)
    · rw [set_level_other _ _ new]
      exact torn.levels k inside
  · exact torn.empties

theorem climbed_write {d : Nat} {store : Store}
    (climbed : Climbed compress depth leaves commitment d store) :
    Climbed compress depth leaves commitment (d + 1)
      (store.setLevel (d + 1)
        (MerkleTree.front compress emptyLeaf (leaves ++ [commitment]) (d + 1))) := by
  constructor
  · exact torn_write climbed.torn (d + 1)
  · intro k low inside
    by_cases new : k = d + 1
    · subst new
      exact set_level_self ..
    · rw [set_level_other _ _ new]
      exact climbed.lower k (by omega) inside

/-- Whichever of the two trees a level is of, the write makes it the newer one's. -/
theorem level_written {d : Nat} {level : List Hex64}
    (either : level = MerkleTree.front compress emptyLeaf leaves d ∨
      level = MerkleTree.front compress emptyLeaf (leaves ++ [commitment]) d) :
    (level ++ List.replicate (leaves.length / 2 ^ d + 1 - level.length)
        (MerkleTree.emptyNode compress emptyLeaf d)).set (leaves.length / 2 ^ d)
        (MerkleTree.node compress (MerkleTree.padded emptyLeaf (leaves ++ [commitment])) d
          (leaves.length / 2 ^ d)) =
      MerkleTree.front compress emptyLeaf (leaves ++ [commitment]) d := by
  rcases either with rfl | rfl
  · rw [MerkleTree.front_length]
    exact MerkleTree.front_snoc compress emptyLeaf commitment leaves d
  · rw [MerkleTree.front_length]
    exact MerkleTree.front_rewrite compress emptyLeaf commitment leaves d

/-- The service answers the `count` hash requests of a path from height `d` on,
of which the first is its request number `first`. -/
def AnswersPath (compress : Hex64 → Hex64 → Hex64) (answers : HashService) (leaves : List Hex64)
    (idx first d count : Nat) : Prop :=
  ∀ j < count, ∃ parent, answers (first + j) (pathInputs compress leaves idx (d + j)).1
    (pathInputs compress leaves idx (d + j)).2 = .ok parent

theorem answers_path_succ (answers : HashService) (idx first d count : Nat) :
    AnswersPath compress answers leaves idx first d (count + 1) ↔
      (∃ parent, answers first (pathInputs compress leaves idx d).1
        (pathInputs compress leaves idx d).2 = .ok parent) ∧
      AnswersPath compress answers leaves idx (first + 1) (d + 1) count := by
  constructor
  · intro all
    refine ⟨all 0 (Nat.succ_pos count), ?_⟩
    intro j inside
    have later := all (j + 1) (Nat.succ_lt_succ inside)
    rwa [← Nat.add_assoc, ← Nat.add_assoc, Nat.add_right_comm first, Nat.add_right_comm d] at later
  · rintro ⟨now, later⟩ j inside
    cases j with
    | zero => exact now
    | succ j =>
        have next := later j (Nat.lt_of_succ_lt_succ inside)
        rwa [Nat.add_right_comm first, Nat.add_right_comm d] at next

/-- How the path update ends: with every level new, or at its first refused hash. -/
def PathEnds (compress : Hex64 → Hex64 → Hex64) (answers : HashService) (depth : Nat)
    (leaves : List Hex64) (commitment : Hex64) (first d remaining : Nat)
    (result : Except TreeError (List Hex64)) (reached : Host) : Prop :=
  (result = .ok (MerkleTree.front compress emptyLeaf (leaves ++ [commitment]) depth) ∧
    Climbed compress depth leaves commitment depth reached.store ∧
    reached.hashed = first + remaining ∧
    AnswersPath compress answers (leaves ++ [commitment]) leaves.length first d remaining) ∨
  ((∃ failure, result = .error failure) ∧
    Torn compress depth leaves (leaves ++ [commitment]) reached.store ∧
    ¬ AnswersPath compress answers (leaves ++ [commitment]) leaves.length first d remaining)

/-- A refused hash request ends the update where it is. -/
theorem path_ends_refused {answers : HashService} {d remaining : Nat} {host reached : Host}
    {message : String}
    (refused : answers host.hashed
      (pathInputs compress (leaves ++ [commitment]) leaves.length d).1
      (pathInputs compress (leaves ++ [commitment]) leaves.length d).2 = .error message)
    (torn : Torn compress depth leaves (leaves ++ [commitment]) reached.store) :
    PathEnds compress answers depth leaves commitment host.hashed d (remaining + 1)
      (.error (.hash message)) reached := by
  refine Or.inr ⟨⟨_, rfl⟩, torn, ?_⟩
  intro all
  obtain ⟨hash, same⟩ := ((answers_path_succ ..).mp all).1
  cases refused.symm.trans same

/-- An answered one leaves the end to the levels above. -/
theorem path_ends_next {answers : HashService} {first d remaining : Nat} {parent : Hex64}
    {result : Except TreeError (List Hex64)} {reached : Host}
    (answered : answers first
      (pathInputs compress (leaves ++ [commitment]) leaves.length d).1
      (pathInputs compress (leaves ++ [commitment]) leaves.length d).2 = .ok parent)
    (ends : PathEnds compress answers depth leaves commitment (first + 1) (d + 1) remaining
      result reached) :
    PathEnds compress answers depth leaves commitment first d (remaining + 1) result reached := by
  rcases ends with ⟨done, whole, counted, rest⟩ | ⟨failed, torn, missed⟩
  · refine Or.inl ⟨done, whole, ?_, (answers_path_succ ..).mpr ⟨⟨_, answered⟩, rest⟩⟩
    rw [counted]
    exact Nat.add_right_comm ..
  · refine Or.inr ⟨failed, torn, ?_⟩
    intro all
    exact missed ((answers_path_succ ..).mp all).2

/-- The path update, by induction on the levels that remain. -/
theorem through_update {answers : HashService} (honest : Honest compress answers)
    (remaining d : Nat) (host : Host)
    (climbed : Climbed compress depth leaves commitment d host.store)
    (height : d + remaining = depth) :
    Through (serveHost answers)
      (fun reached => Torn compress depth leaves (leaves ++ [commitment]) reached.store)
      (PathEnds compress answers depth leaves commitment host.hashed d remaining)
      (updatePath remaining d (leaves.length / 2 ^ d)
        (MerkleTree.front compress emptyLeaf (leaves ++ [commitment]) d)) host := by
  induction remaining generalizing d host with
  | zero =>
      obtain rfl : d = depth := height
      refine through_pure climbed.torn (Or.inl ⟨rfl, climbed, rfl, ?_⟩)
      intro j inside
      exact absurd inside (Nat.not_lt_zero j)
  | succ remaining ih =>
      have low : d + 1 ≤ depth := by omega
      have current := MerkleTree.front_newest compress emptyLeaf commitment leaves d _
        (Nat.le_refl _)
      have hashes : compress (pathInputs compress (leaves ++ [commitment]) leaves.length d).1
          (pathInputs compress (leaves ++ [commitment]) leaves.length d).2 =
          MerkleTree.node compress (MerkleTree.padded emptyLeaf (leaves ++ [commitment])) (d + 1)
            (leaves.length / 2 ^ (d + 1)) :=
        MerkleTree.path_parent compress (MerkleTree.padded emptyLeaf (leaves ++ [commitment])) d
          leaves.length
      rw [updatePath]
      refine through_sibling (climbed.torn.empties d (by omega)) _ _ climbed.torn ?_
      refine through_index current ?_
      rw [MerkleTree.step_sides]
      refine through_hash honest (pathInputs compress (leaves ++ [commitment]) leaves.length d)
        climbed.torn ?_ ?_
      · intro message refused
        exact ⟨climbed.torn, path_ends_refused refused climbed.torn⟩
      · intro answered
        rw [hashes]
        -- the level above is read from either tree and written as the newer one's
        obtain ⟨above, stored, either⟩ := torn_level climbed.torn low
        refine through_perform (Request.getLevel (d + 1)) rfl climbed.torn ?_
        rw [stored, Option.getD_some, MerkleTree.parent_index]
        dsimp only
        refine through_grow ⟨host.store, host.hashed + 1⟩ (climbed.torn.empties (d + 1) low) _ _
          climbed.torn ?_
        rw [level_written either]
        refine through_perform (Request.setLevel (d + 1) _) rfl climbed.torn ?_
        have rest := ih (d + 1) ⟨_, host.hashed + 1⟩ (climbed_write climbed) (by omega)
        exact through_weaken rest (fun _ torn => torn)
          (fun _ _ _ ends => path_ends_next answered ends)

theorem place_written {level0 : List Hex64}
    (either : level0 = MerkleTree.front compress emptyLeaf leaves 0 ∨
      level0 = MerkleTree.front compress emptyLeaf (leaves ++ [commitment]) 0) :
    placeLeaf level0 leaves.length commitment =
      MerkleTree.front compress emptyLeaf (leaves ++ [commitment]) 0 := by
  have written := level_written either
  rwa [Nat.pow_zero, Nat.div_one, MerkleTree.node_zero, MerkleTree.padded_append_length] at written

theorem represents_torn {store : Store} (represents : Represents compress depth leaves store)
    (newer : List Hex64) : Torn compress depth leaves newer store := by
  constructor
  · rw [represents.size]
    rfl
  · exact Or.inl represents.root
  · intro d inside
    exact Or.inl (represents.levels d inside)
  · exact represents.empties

/-- How `add_leaf` at the stored size ends. -/
def AddEnds (compress : Hex64 → Hex64 → Hex64) (answers : HashService) (depth : Nat)
    (leaves : List Hex64) (commitment : Hex64) (first : Nat) (result : Except TreeError Hex64)
    (reached : Host) : Prop :=
  (result = .ok (MerkleTree.root compress emptyLeaf (leaves ++ [commitment]) depth) ∧
    Represents compress depth (leaves ++ [commitment]) reached.store ∧
    reached.hashed = first + depth ∧
    AnswersPath compress answers (leaves ++ [commitment]) leaves.length first 0 depth) ∨
  ((∃ failure, result = .error failure) ∧
    Torn compress depth leaves (leaves ++ [commitment]) reached.store ∧
    ¬ AnswersPath compress answers (leaves ++ [commitment]) leaves.length first 0 depth)

/-- Cut or refused anywhere, `add_leaf` leaves the store torn at its leaf or done with it. -/
theorem through_add {answers : HashService} (honest : Honest compress answers) {host : Host}
    (torn : Torn compress depth leaves (leaves ++ [commitment]) host.store) :
    Through (serveHost answers)
      (fun reached => Torn compress depth leaves (leaves ++ [commitment]) reached.store ∨
        Represents compress depth (leaves ++ [commitment]) reached.store)
      (AddEnds compress answers depth leaves commitment host.hashed)
      (addLeaf leaves.length commitment depth) host := by
  rw [addLeaf]
  refine through_perform Request.getSize rfl (Or.inl torn) ?_
  rw [torn.size, if_neg (fun differs => differs rfl)]
  obtain ⟨level0, stored, either⟩ := torn_level torn (Nat.zero_le depth)
  refine through_perform (Request.getLevel 0) rfl (Or.inl torn) ?_
  rw [stored, Option.getD_some, place_written either]
  have placed := torn_write torn 0
  refine through_perform (Request.setLevel 0 _) rfl (Or.inl torn) ?_
  have first : Climbed compress depth leaves commitment 0
      (host.store.setLevel 0 (MerkleTree.front compress emptyLeaf (leaves ++ [commitment]) 0)) := by
    refine ⟨placed, ?_⟩
    intro k low inside
    obtain rfl := Nat.le_zero.mp low
    exact set_level_self ..
  have updated := through_update honest depth 0 ⟨_, host.hashed⟩ first (Nat.zero_add depth)
  rw [Nat.pow_zero, Nat.div_one] at updated
  refine through_bind (through_weaken updated (fun _ => Or.inl) (fun _ _ _ ends => ends)) ?_ ?_
  · rintro top reached _ (⟨done, climbed, counted, answered⟩ | ⟨⟨failure, failed⟩, _⟩)
    · obtain rfl := Except.ok.inj done
      have newest := MerkleTree.front_newest compress emptyLeaf commitment leaves depth 0
        (Nat.zero_le _)
      refine through_index newest ?_
      -- the size comes last: until then the store is torn at this leaf
      refine through_perform (Request.setRoot _) rfl (Or.inl climbed.torn) ?_
      have rooted : Torn compress depth leaves (leaves ++ [commitment])
          { reached.store with
            root := some (MerkleTree.root compress emptyLeaf (leaves ++ [commitment]) depth) } :=
        ⟨climbed.torn.size, Or.inr rfl, climbed.torn.levels, climbed.torn.empties⟩
      refine through_perform (Request.setSize _) rfl (Or.inl rooted) ?_
      have whole : Represents compress depth (leaves ++ [commitment])
          { reached.store with
            root := some (MerkleTree.root compress emptyLeaf (leaves ++ [commitment]) depth)
            size := some (leaves.length + 1) } := by
        constructor
        · rw [List.length_append, List.length_singleton]
        · rfl
        · intro d inside
          exact climbed.lower d inside inside
        · exact climbed.torn.empties
      exact through_pure (Or.inr whole) (Or.inl ⟨rfl, whole, counted, answered⟩)
    · cases failed
  · rintro failure reached _ (⟨done, _⟩ | ⟨_, kept, missed⟩)
    · cases done
    · exact Or.inr ⟨⟨failure, rfl⟩, kept, missed⟩

end Adding

/-! The initialisation keeps a blank store blank until it writes the root. -/
section Initialising
variable {compress : Hex64 → Hex64 → Hex64} {depth : Nat} {answers : HashService}

/-- Some hash request is refused. -/
def Refuses (answers : HashService) : Prop :=
  ∃ n left right message, answers n left right = .error message

theorem through_init_levels (honest : Honest compress answers) (remaining d : Nat) (host : Host)
    (emptied : Emptied compress (d + 1) host.store) (blank : Blank host.store) :
    Through (serveHost answers) (fun reached => Blank reached.store)
      (fun result reached =>
        (result = .ok (MerkleTree.emptyNode compress emptyLeaf (d + remaining)) ∧
          Emptied compress (d + remaining + 1) reached.store) ∨
        ((∃ failure, result = .error failure) ∧ Refuses answers))
      (initLevels remaining (d + 1) (MerkleTree.emptyNode compress emptyLeaf d)) host := by
  induction remaining generalizing d host with
  | zero => exact through_pure blank (Or.inl ⟨rfl, emptied⟩)
  | succ remaining ih =>
      have shift : d + 1 + remaining = d + (remaining + 1) := by omega
      rw [initLevels]
      refine through_hash honest (MerkleTree.emptyNode compress emptyLeaf d,
        MerkleTree.emptyNode compress emptyLeaf d) blank ?_ ?_
      · intro message refused
        exact ⟨blank, Or.inr ⟨⟨_, rfl⟩, _, _, _, message, refused⟩⟩
      · intro answered
        refine through_perform (Request.setEmpty (d + 1) _) rfl blank ?_
        refine through_perform (Request.setLevel (d + 1) _) rfl blank ?_
        have rest := ih (d + 1) ⟨_, host.hashed + 1⟩ (emptied_write emptied) blank
        rw [shift] at rest
        exact rest

theorem through_init (honest : Honest compress answers) (depth : Nat) (host : Host)
    (blank : Blank host.store) (newer : List Hex64) :
    Through (serveHost answers)
      (fun reached => Blank reached.store ∨ Torn compress depth [] newer reached.store)
      (fun result reached => (result = .ok () ∧ Represents compress depth [] reached.store) ∨
        ((∃ failure, result = .error failure) ∧ Refuses answers))
      (initEmptyTree depth) host := by
  have nothing : Emptied compress 0 host.store :=
    ⟨fun k low => absurd low (Nat.not_lt_zero k), fun k low => absurd low (Nat.not_lt_zero k)⟩
  rw [initEmptyTree]
  refine through_perform (Request.setEmpty 0 _) rfl (Or.inl blank) ?_
  refine through_perform (Request.setLevel 0 _) rfl (Or.inl blank) ?_
  have levels := through_init_levels honest depth 0 ⟨_, host.hashed⟩ (emptied_write nothing) blank
  rw [Nat.zero_add] at levels
  refine through_bind (through_weaken levels (fun _ => Or.inl) fun _ _ kept ends =>
    And.intro kept ends) ?_ ?_
  · rintro current reached now ⟨kept, ⟨done, emptied⟩ | ⟨⟨failure, failed⟩, _⟩⟩
    · obtain rfl := Except.ok.inj done
      -- with the root the store turns from blank to torn at the first leaf
      have whole : ∀ size, size.getD 0 = 0 → Torn compress depth [] newer
          { reached.store with
            root := some (MerkleTree.emptyNode compress emptyLeaf depth), size := size } := by
        intro size zero
        constructor
        · exact zero
        · exact Or.inl (by rw [MerkleTree.root, MerkleTree.node_empty _ _ _ _ _ (Nat.zero_le _)])
        · intro d inside
          exact Or.inl (emptied.levels d (by omega))
        · intro d inside
          exact emptied.empties d (by omega)
      have represents : Represents compress depth []
          { reached.store with
            root := some (MerkleTree.emptyNode compress emptyLeaf depth), size := some 0 } := by
        constructor
        · rfl
        · rw [MerkleTree.root, MerkleTree.node_empty _ _ _ _ _ (Nat.zero_le _)]
        · intro d inside
          exact emptied.levels d (by omega)
        · intro d inside
          exact emptied.empties d (by omega)
      refine through_perform (Request.setRoot _) rfl now ?_
      refine ⟨Or.inr (whole reached.store.size ?_), Or.inr (whole (some 0) rfl),
        Or.inl ⟨rfl, represents⟩⟩
      rw [kept.1]
      rfl
    · cases failed
  · rintro failure reached _ ⟨_, ⟨done, _⟩ | ⟨_, refuses⟩⟩
    · cases done
    · exact Or.inr ⟨⟨failure, rfl⟩, refuses⟩

end Initialising

/-! The whole life of a process, over the commitments of the database. -/
section Synchronising
variable {compress : Hex64 → Hex64 → Hex64} {depth : Nat} {answers : HashService}
  {commitments : List Hex64}

/-- Torn at the leaf of index `k`, if there is one. -/
def TornAt (compress : Hex64 → Hex64 → Hex64) (depth : Nat) (commitments : List Hex64) (k : Nat)
    (store : Store) : Prop :=
  Torn compress depth (commitments.take k) (commitments.take (k + 1)) store

theorem torn_recoverable {k : Nat} {store : Store} (inside : k ≤ commitments.length)
    (torn : TornAt compress depth commitments k store) :
    Recoverable compress depth commitments store := Or.inr ⟨k, inside, torn⟩

theorem take_next {k : Nat} {commitment : Hex64} (found : commitments[k]? = some commitment) :
    commitments.take (k + 1) = commitments.take k ++ [commitment] ∧
      (commitments.take k).length = k := by
  obtain ⟨inside, rfl⟩ := List.getElem?_eq_some_iff.mp found
  exact ⟨List.take_succ_eq_append_getElem inside, List.length_take_of_le (Nat.le_of_lt inside)⟩

theorem unanswered_refuses (honest : Honest compress answers) {leaves : List Hex64}
    {idx first d count : Nat}
    (missed : ¬ AnswersPath compress answers leaves idx first d count) : Refuses answers := by
  by_contra never
  refine missed fun j _ => ?_
  rcases honest (first + j) (pathInputs compress leaves idx (d + j)).1
    (pathInputs compress leaves idx (d + j)).2 with ⟨message, refused⟩ | answered
  · exact absurd ⟨_, _, _, message, refused⟩ never
  · exact ⟨_, answered⟩

/-- `add_leaf` with the database's commitment for its index, at the size or not. -/
theorem through_call (honest : Honest compress answers) {k : Nat} (inside : k ≤ commitments.length)
    (host : Host) (torn : TornAt compress depth commitments k host.store) {leafIndex : Nat}
    {commitment : Hex64} (stored : commitments[leafIndex]? = some commitment) :
    Through (serveHost answers) (Mendable compress depth commitments)
      (fun result reached => if leafIndex = k then
          (∃ root, result = .ok root) ∧ TornAt compress depth commitments (k + 1) reached.store ∨
            ((∃ failure, result = .error failure) ∧ Refuses answers) ∧
              TornAt compress depth commitments k reached.store
        else (∃ root, result = .ok root) ∧ reached = host)
      (addLeaf leafIndex commitment depth) host := by
  by_cases next : leafIndex = k
  · subst next
    obtain ⟨longer, length⟩ := take_next stored
    rw [TornAt, longer] at torn
    have added := through_add honest torn
    rw [length] at added
    refine through_weaken added ?_ ?_
    · rintro reached (still | whole)
      · exact torn_recoverable inside (by rwa [TornAt, longer])
      · refine torn_recoverable (List.getElem?_eq_some_iff.mp stored).1 ?_
        rw [TornAt, longer]
        exact represents_torn whole _
    · rintro result reached _ (⟨done, whole, _⟩ | ⟨failed, still, missed⟩)
      · rw [if_pos rfl]
        refine Or.inl ⟨⟨_, done⟩, ?_⟩
        rw [TornAt, longer]
        exact represents_torn whole _
      · rw [if_pos rfl]
        exact Or.inr ⟨⟨failed, unanswered_refuses honest missed⟩, by rwa [TornAt, longer]⟩
  · have size : host.store.size.getD 0 = k := torn.size.trans (List.length_take_of_le inside)
    have now := torn_recoverable inside torn
    rw [addLeaf]
    refine through_perform Request.getSize rfl now ?_
    rw [size, if_pos next]
    refine through_perform Request.getRoot rfl now (through_pure now ?_)
    rw [if_neg next]
    exact ⟨⟨_, rfl⟩, rfl⟩

/-- The loop over the missing rows adds them one by one. -/
theorem through_leaves (honest : Honest compress answers) (missing : List Hex64) {k : Nat}
    (host : Host) (inside : k + missing.length ≤ commitments.length)
    (torn : TornAt compress depth commitments k host.store)
    (stored : ∀ j < missing.length, commitments[k + j]? = missing[j]?) :
    Through (serveHost answers) (Mendable compress depth commitments)
      (fun result reached =>
        (result = .ok () ∧
          TornAt compress depth commitments (k + missing.length) reached.store) ∨
        ((∃ failure, result = .error failure) ∧ Refuses answers))
      (addLeaves depth (rowsFrom k missing)) host := by
  induction missing generalizing k host with
  | nil => exact through_pure (torn_recoverable inside torn) (Or.inl ⟨rfl, torn⟩)
  | cons commitment rest ih =>
      have shift : k + 1 + rest.length = k + (rest.length + 1) := by omega
      rw [List.length_cons] at inside stored
      rw [rowsFrom, addLeaves]
      refine through_bind (through_call honest (by omega) host torn (stored 0 (by omega))) ?_ ?_
      · intro root reached _ ended
        rw [if_pos rfl] at ended
        rcases ended with ⟨_, longer⟩ | ⟨⟨⟨failure, failed⟩, _⟩, _⟩
        · have later := ih reached (by omega) longer (by
            intro j inside
            have row := stored (j + 1) (by omega)
            rwa [← Nat.add_assoc, Nat.add_right_comm] at row)
          rw [shift] at later
          exact later
        · cases failed
      · intro failure reached _ ended
        rw [if_pos rfl] at ended
        rcases ended with ⟨⟨root, done⟩, _⟩ | ⟨⟨_, refuses⟩, _⟩
        · cases done
        · exact Or.inr ⟨⟨failure, rfl⟩, refuses⟩

theorem rows_drop (first skipped : Nat) (commitments : List Hex64) :
    (rowsFrom first commitments).drop skipped =
      rowsFrom (first + skipped) (commitments.drop skipped) := by
  induction skipped generalizing first commitments with
  | zero => rfl
  | succ skipped ih =>
      cases commitments with
      | nil => rfl
      | cons commitment rest =>
          rw [rowsFrom, List.drop_succ_cons, List.drop_succ_cons, ih, Nat.add_right_comm]
          rfl

@[simp] theorem rows_length (first : Nat) (commitments : List Hex64) :
    (rowsFrom first commitments).length = commitments.length := by
  induction commitments generalizing first with
  | nil => rfl
  | cons commitment rest ih => rw [rowsFrom, List.length_cons, ih, List.length_cons]

theorem through_init_absent (honest : Honest compress answers) (host : Host)
    (recoverable : Recoverable compress depth commitments host.store) :
    Through (serveHost answers) (Mendable compress depth commitments)
      (fun result reached =>
        (result = .ok () ∧
          ∃ k ≤ commitments.length, TornAt compress depth commitments k reached.store) ∨
        ((∃ failure, result = .error failure) ∧ Refuses answers))
      (initIfAbsent depth) host := by
  rw [initIfAbsent]
  refine through_perform Request.getSize rfl recoverable ?_
  rcases recoverable with blank | ⟨k, inside, torn⟩
  · rw [blank.1, Option.getD_none, if_pos rfl]
    refine through_perform Request.getRoot rfl (Or.inl blank) ?_
    rw [blank.2]
    have built := through_init honest depth ⟨host.store, host.hashed⟩ blank
      (commitments.take 1)
    refine through_weaken built ?_ ?_
    · rintro reached (still | torn)
      · exact Or.inl still
      · exact torn_recoverable (Nat.zero_le _) torn
    · rintro result reached _ (⟨done, represents⟩ | failed)
      · exact Or.inl ⟨done, 0, Nat.zero_le _, represents_torn represents _⟩
      · exact Or.inr failed
  · have now := torn_recoverable inside torn
    by_cases zero : host.store.size.getD 0 = 0
    · rw [if_pos zero]
      refine through_perform Request.getRoot rfl now ?_
      have rooted : host.store.root.isNone = false := by
        rcases torn.root with old | new
        · rw [old]
          rfl
        · rw [new]
          rfl
      rw [rooted]
      exact through_pure now (Or.inl ⟨rfl, k, inside, torn⟩)
    · rw [if_neg zero]
      exact through_pure now (Or.inl ⟨rfl, k, inside, torn⟩)

/-- The synchronisation ends with every known row in the tree, if no hash is refused. -/
theorem through_sync (honest : Honest compress answers) (known : Nat) (host : Host)
    (recoverable : Recoverable compress depth commitments host.store) :
    Through (serveHost answers) (Mendable compress depth commitments)
      (fun result reached =>
        (result = .ok () ∧ ∃ k ≤ commitments.length, min known commitments.length ≤ k ∧
          TornAt compress depth commitments k reached.store) ∨
        ((∃ failure, result = .error failure) ∧ Refuses answers))
      (syncTree (rows (commitments.take known)) depth) host := by
  rw [syncTree]
  refine through_bind (through_init_absent honest host recoverable) ?_ ?_
  · rintro _ started now (⟨_, k, inside, torn⟩ | ⟨⟨failure, failed⟩, _⟩)
    · have size : started.store.size.getD 0 = k := torn.size.trans (List.length_take_of_le inside)
      refine through_perform Request.getSize rfl now ?_
      rw [size, addMissing, rows, rows_length, List.length_take]
      by_cases behind : k < min known commitments.length
      · rw [if_pos behind, rows_drop, Nat.zero_add]
        have missing : ((commitments.take known).drop k).length =
            min known commitments.length - k := by rw [List.length_drop, List.length_take]
        have stored : ∀ j < ((commitments.take known).drop k).length,
            commitments[k + j]? = ((commitments.take known).drop k)[j]? := by
          intro j within
          rw [List.getElem?_drop, List.getElem?_take_of_lt (by omega)]
        refine through_bind (through_leaves honest _ started (by omega) torn stored) ?_ ?_
        · rintro _ reached now (⟨_, whole⟩ | ⟨⟨failure, failed⟩, _⟩)
          · refine through_perform Request.getRoot rfl now (through_pure now (Or.inl ⟨rfl, ?_⟩))
            exact ⟨_, by omega, by omega, whole⟩
          · cases failed
        · rintro failure reached _ (⟨done, _⟩ | ⟨_, refuses⟩)
          · cases done
          · exact Or.inr ⟨⟨failure, rfl⟩, refuses⟩
      · rw [if_neg behind]
        change Through _ _ _ (getRoot >>= fun _ => pure ()) started
        refine through_perform Request.getRoot rfl now (through_pure now (Or.inl ⟨rfl, ?_⟩))
        exact ⟨k, inside, by omega, torn⟩
    · cases failed
  · rintro failure reached _ (⟨done, _⟩ | ⟨_, refuses⟩)
    · cases done
    · exact Or.inr ⟨⟨failure, rfl⟩, refuses⟩

/-- Noted or not, a failed `add_leaf` leaves a torn tree behind. -/
theorem through_noted (honest : Honest compress answers) {k : Nat} (inside : k ≤ commitments.length)
    (host : Host) (torn : TornAt compress depth commitments k host.store) {leafIndex : Nat}
    {commitment : Hex64} (stored : commitments[leafIndex]? = some commitment) :
    Through (serveHost answers) (Mendable compress depth commitments)
      (fun _ reached => ∃ k ≤ commitments.length, TornAt compress depth commitments k reached.store)
      (attempt (addLeaf leafIndex commitment depth)) host := by
  refine through_attempt (through_call honest inside host torn stored) ?_
  intro result reached _ ended
  by_cases next : leafIndex = k
  · subst next
    rw [if_pos rfl] at ended
    rcases ended with ⟨_, longer⟩ | ⟨_, still⟩
    · exact ⟨leafIndex + 1, (List.getElem?_eq_some_iff.mp stored).1, longer⟩
    · exact ⟨leafIndex, inside, still⟩
  · rw [if_neg next] at ended
    obtain ⟨_, rfl⟩ := ended
    exact ⟨k, inside, torn⟩

theorem through_index_leaves (honest : Honest compress answers) (calls : List (Nat × Hex64))
    (stored : ∀ call ∈ calls, commitments[call.1]? = some call.2) {k : Nat} (host : Host)
    (inside : k ≤ commitments.length) (torn : TornAt compress depth commitments k host.store) :
    Through (serveHost answers) (Mendable compress depth commitments)
      (fun _ _ => True) (indexLeaves depth calls) host := by
  induction calls generalizing k host with
  | nil => exact through_pure (torn_recoverable inside torn) trivial
  | cons call rest ih =>
      have found := stored call List.mem_cons_self
      have others : ∀ call ∈ rest, commitments[call.1]? = some call.2 :=
        fun call member => stored call (List.mem_cons_of_mem _ member)
      rw [indexLeaves]
      refine through_bind (through_noted honest inside host torn found) ?_ ?_
      · rintro _ reached _ ⟨k, inside, torn⟩
        exact ih others reached inside torn
      · intro failure reached _ _
        trivial

/-- Wherever a life stops, the store it leaves can be recovered. -/
theorem life_recoverable (life : Life compress commitments) {store : Store}
    (recoverable : Recoverable compress depth commitments store) :
    Recoverable compress depth commitments (life.leaves depth store) := by
  have whole : Through (serveHost life.answers)
      (Mendable compress depth commitments) (fun _ _ => True)
      (life.script depth) ⟨store, 0⟩ := by
    rw [Life.script]
    refine through_bind (through_sync life.honest life.known ⟨store, 0⟩ recoverable) ?_ ?_
    · rintro _ reached _ (⟨_, k, inside, _, torn⟩ | ⟨⟨failure, failed⟩, _⟩)
      · exact through_index_leaves life.honest life.calls life.stored reached inside torn
      · cases failed
    · intro failure reached _ _
      trivial
  exact through_stopped whole life.stop

theorem survived_recoverable (depth : Nat) (lives : List (Life compress commitments)) :
    Recoverable compress depth commitments (survived depth lives) := by
  have general : ∀ store, Recoverable compress depth commitments store →
      Recoverable compress depth commitments
        (lives.foldl (fun store life => life.leaves depth store) store) := by
    induction lives with
    | nil => exact fun store recoverable => recoverable
    | cons life rest ih => exact fun store recoverable => ih _ (life_recoverable life recoverable)
  exact general emptyStore (Or.inl ⟨rfl, rfl⟩)

end Synchronising

/-! After the lives, one synchronisation that is neither cut nor refused. -/
section Recovery
variable (compress : Hex64 → Hex64 → Hex64)

theorem run_answering {Result : Type} (script : RedisTree.Tree Result) (host : Host) :
    ∃ hashed, run (serveHost fun _ left right => .ok (compress left right)) script host =
      ((finish compress host.store script).1, ⟨(finish compress host.store script).2, hashed⟩) := by
  induction script generalizing host with
  | done result => exact ⟨host.hashed, rfl⟩
  | ask request next ih =>
      cases request <;> exact ih _ _

/-- The levels, the root and the size, where no size counts as zero. -/
structure SameTree (depth : Nat) (store built : Store) : Prop where
  levels : ∀ d ≤ depth, store.level d = built.level d
  root : store.root = built.root
  size : store.size.getD 0 = built.size.getD 0

theorem taken_rows (depth : Nat) (missing : List Hex64) {leaves : List Hex64} {store : Store}
    (represents : Represents compress depth leaves store) :
    taken compress depth (rowsFrom leaves.length missing) store = missing := by
  induction missing generalizing leaves store with
  | nil => rfl
  | cons commitment rest ih =>
      obtain ⟨reached, added, longer⟩ := add_next represents commitment
      have later := ih longer
      rw [List.length_append, List.length_singleton] at later
      rw [rowsFrom, taken, added, represents.size, if_pos rfl, later]

/-- The tree built without interruption holds every commitment. -/
theorem built_whole (depth : Nat) (commitments : List Hex64) :
    Represents compress depth commitments
      (reachedStore compress depth emptyStore (rows commitments)) := by
  obtain ⟨reached, initialised, empty⟩ := init_empty compress emptyStore depth
  have start : (finish compress emptyStore (initEmptyTree depth)).2 = reached := by rw [initialised]
  have all := add_all (rows commitments) empty
  have every : taken compress depth (rows commitments) reached = commitments :=
    taken_rows compress depth commitments empty
  rw [every] at all
  rw [reachedStore, start]
  exact all

/-- One uninterrupted synchronisation restores the tree of all commitments,
whatever the process was doing each time it stopped. -/
theorem sync_recovers (depth : Nat) (commitments : List Hex64)
    (lives : List (Life compress commitments)) :
    (finish compress (survived depth lives) (syncTree (rows commitments) depth)).1 = .ok () ∧
      SameTree depth
        (finish compress (survived depth lives) (syncTree (rows commitments) depth)).2
        (reachedStore compress depth emptyStore (rows commitments)) := by
  have honest : Honest compress fun _ left right => .ok (compress left right) :=
    fun _ _ _ => Or.inr rfl
  have synced := through_run (through_sync honest commitments.length ⟨survived depth lives, 0⟩
    (survived_recoverable depth lives))
  obtain ⟨hashed, same⟩ := run_answering compress
    (syncTree (rows (commitments.take commitments.length)) depth) ⟨survived depth lives, 0⟩
  rw [same, List.take_length] at synced
  rcases synced with ⟨done, k, inside, all, torn⟩ | ⟨_, _, _, _, _, refused⟩
  · obtain rfl : k = commitments.length := by omega
    have whole := built_whole compress depth commitments
    -- past the last commitment both trees a store can be torn between are the same
    rw [TornAt, List.take_of_length_le (Nat.le_succ _), List.take_length] at torn
    refine ⟨done, ?_, ?_, ?_⟩
    · intro d low
      rw [whole.levels d low]
      exact (torn.levels d low).elim id id
    · rw [whole.root]
      exact torn.root.elim id id
    · rw [whole.size]
      exact torn.size
  · cases refused

end Recovery

end PrivateTransfer.TreeRecovery
