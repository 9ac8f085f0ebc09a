import Mathlib.Logic.Function.Basic
import PrivateTransfer.MerkleService
import PrivateTransfer.Poseidon2
import PrivateTransfer.Script

/-!
`backend/src/tree.rs`: the incremental tree kept in Redis. Each function is a
script of store accesses and hash requests, in the order the source awaits them;
`?` ends a script at the first failure and an index past the end panics. The
store holds the keys of one pool.
-/

namespace PrivateTransfer.RedisTree

open MerkleService Script

/-- `tree:{pool}:level:{d}`, `:empty:{d}`, `:root` and `:size`. -/
structure Store where
  level : Nat → Option (List Hex64)
  empty : Nat → Option Hex64
  root : Option Hex64
  size : Option Nat

def Store.setLevel (store : Store) (d : Nat) (level : List Hex64) : Store :=
  { store with level := Function.update store.level d (some level) }

def Store.setEmpty (store : Store) (d : Nat) (hash : Hex64) : Store :=
  { store with empty := Function.update store.empty d (some hash) }

@[simp] theorem set_level_self (store : Store) (d : Nat) (level : List Hex64) :
    (store.setLevel d level).level d = some level := Function.update_self ..

theorem set_level_other (store : Store) {k d : Nat} (level : List Hex64) (other : k ≠ d) :
    (store.setLevel d level).level k = store.level k := Function.update_of_ne other ..

@[simp] theorem set_empty_self (store : Store) (d : Nat) (hash : Hex64) :
    (store.setEmpty d hash).empty d = some hash := Function.update_self ..

theorem set_empty_other (store : Store) {k d : Nat} (hash : Hex64) (other : k ≠ d) :
    (store.setEmpty d hash).empty k = store.empty k := Function.update_of_ne other ..

inductive Request where
  | getLevel (d : Nat)
  | setLevel (d : Nat) (level : List Hex64)
  | getEmpty (d : Nat)
  | setEmpty (d : Nat) (hash : Hex64)
  | getRoot
  | setRoot (root : Hex64)
  | getSize
  | setSize (size : Nat)
  | hash (left right : Hex64)

def Answer : Request → Type
  | .getLevel _ => Option (List Hex64)
  | .getEmpty _ => Option Hex64
  | .getRoot => Option Hex64
  | .getSize => Option Nat
  | .hash _ _ => Hex64
  | .setLevel _ _ | .setEmpty _ _ | .setRoot _ | .setSize _ => Unit

inductive TreeError where
  | redis
  | hash (message : String)
  | panic
  deriving DecidableEq

abbrev Tree (Result : Type) := Program Request Answer TreeError Result

section Requests

def getLevel (d : Nat) : Tree (Option (List Hex64)) := perform (Request.getLevel d)

def setLevel (d : Nat) (level : List Hex64) : Tree Unit := perform (Request.setLevel d level)

def getEmpty (d : Nat) : Tree (Option Hex64) := perform (Request.getEmpty d)

def setEmpty (d : Nat) (hash : Hex64) : Tree Unit := perform (Request.setEmpty d hash)

def getRoot : Tree (Option Hex64) := perform Request.getRoot

def setRoot (root : Hex64) : Tree Unit := perform (Request.setRoot root)

def getSize : Tree (Option Nat) := perform Request.getSize

def setSize (size : Nat) : Tree Unit := perform (Request.setSize size)

def poseidon2Hash (left right : Hex64) : Tree Hex64 := perform (Request.hash left right)

/-- `level[index]`. -/
def index (level : List Hex64) (i : Nat) : Tree Hex64 :=
  match level[i]? with
  | some hash => pure hash
  | none => fail .panic

end Requests

section Functions

/-- `for d in 1..=depth`, from level `d` on. -/
def initLevels : (remaining d : Nat) → Hex64 → Tree Hex64
  | 0, _, current => pure current
  | remaining + 1, d, current => do
      let current ← poseidon2Hash current current
      setEmpty d current
      setLevel d [current]
      initLevels remaining (d + 1) current

def initEmptyTree (depth : Nat) : Tree Unit := do
  setEmpty 0 emptyLeaf
  setLevel 0 [emptyLeaf]
  let current ← initLevels depth 1 emptyLeaf
  setRoot current
  setSize 0

def siblingIdx (idx : Nat) : Nat := if idx % 2 = 0 then idx + 1 else idx - 1

/-- The sibling on a level, or that level's empty hash past its end. -/
def siblingOf (d idx : Nat) (level : List Hex64) : Tree Hex64 :=
  if siblingIdx idx < level.length then
    index level (siblingIdx idx)
  else do
    let empty ← getEmpty d
    pure (empty.getD emptyLeaf)

/-- `while next_level.len() <= parent_idx`, entered `missing` times. -/
def growLevel (d : Nat) : (missing : Nat) → List Hex64 → Tree (List Hex64)
  | 0, level => pure level
  | missing + 1, level => do
      let empty ← getEmpty d
      growLevel d missing (level ++ [empty.getD emptyLeaf])

/-- `for d in 0..depth`, from level `d` on. -/
def updatePath : (remaining d idx : Nat) → List Hex64 → Tree (List Hex64)
  | 0, _, _, currentLevel => pure currentLevel
  | remaining + 1, d, idx, currentLevel => do
      let sibling ← siblingOf d idx currentLevel
      let currentHash ← index currentLevel idx
      let (left, right) := if idx % 2 = 0 then (currentHash, sibling) else (sibling, currentHash)
      let parent ← poseidon2Hash left right
      let stored ← getLevel (d + 1)
      let nextLevel := stored.getD [emptyLeaf]
      let parentIdx := idx / 2
      let grown ← growLevel (d + 1) (parentIdx + 1 - nextLevel.length) nextLevel
      let nextLevel := grown.set parentIdx parent
      setLevel (d + 1) nextLevel
      updatePath remaining (d + 1) parentIdx nextLevel

/-- `while level0.len() <= leaf_index`, and the write behind it. -/
def placeLeaf (level0 : List Hex64) (leafIndex : Nat) (commitment : Hex64) : List Hex64 :=
  (level0 ++ List.replicate (leafIndex + 1 - level0.length) emptyLeaf).set leafIndex commitment

def addLeaf (leafIndex : Nat) (commitment : Hex64) (depth : Nat) : Tree Hex64 := do
  let stored ← getSize
  let size := stored.getD 0
  if leafIndex ≠ size then
    let root ← getRoot
    pure (root.getD emptyLeaf)
  else
    let stored ← getLevel 0
    let level0 := placeLeaf (stored.getD [emptyLeaf]) leafIndex commitment
    setLevel 0 level0
    let top ← updatePath depth 0 leafIndex level0
    let root ← index top 0
    setRoot root
    setSize (size + 1)
    pure root

/-- The loop of `get_proof`, from level `d` on. -/
def proofFrom : (remaining d idx : Nat) → Tree (List (Hex64 × Bool))
  | 0, _, _ => pure []
  | remaining + 1, d, idx => do
      let stored ← getLevel d
      let sibling ← siblingOf d idx (stored.getD [emptyLeaf])
      let rest ← proofFrom remaining (d + 1) (idx / 2)
      pure ((sibling, idx % 2 == 0) :: rest)

def getProof (leafIndex depth : Nat) : Tree (List Hex64 × List Bool × Hex64) := do
  let steps ← proofFrom depth 0 leafIndex
  let root ← getRoot
  pure (steps.map Prod.fst, steps.map Prod.snd, root.getD emptyLeaf)

end Functions

/-! Services that never fail. -/
section Service

def serve (compress : Hex64 → Hex64 → Hex64) :
    (request : Request) → Store → Except TreeError (Answer request) × Store
  | .getLevel d, store => (.ok (store.level d), store)
  | .setLevel d level, store => (.ok (), store.setLevel d level)
  | .getEmpty d, store => (.ok (store.empty d), store)
  | .setEmpty d hash, store => (.ok (), store.setEmpty d hash)
  | .getRoot, store => (.ok store.root, store)
  | .setRoot root, store => (.ok (), { store with root := some root })
  | .getSize, store => (.ok store.size, store)
  | .setSize size, store => (.ok (), { store with size := some size })
  | .hash left right, store => (.ok (compress left right), store)

variable (compress : Hex64 → Hex64 → Hex64) (store : Store)

def finish {Result : Type} (script : Tree Result) : Except TreeError Result × Store :=
  Script.run (serve compress) script store

/-- `add_leaf` calls in a row, whatever each of them answers. -/
def addAll (depth : Nat) : List (Nat × Hex64) → Store → Store
  | [], store => store
  | call :: rest, store =>
      addAll depth rest (finish compress store (addLeaf call.1 call.2 depth)).2

/-- The commitments of the calls whose index equalled the stored size. -/
def taken (depth : Nat) : List (Nat × Hex64) → Store → List Hex64
  | [], _ => []
  | call :: rest, store =>
      let others := taken depth rest (finish compress store (addLeaf call.1 call.2 depth)).2
      if store.size = some call.1 then call.2 :: others else others

end Service

/-! One request at a time. -/
section Requests
variable (compress : Hex64 → Hex64 → Hex64) (store : Store) {Result : Type}

@[simp] theorem finish_pure (value : Result) :
    finish compress store (pure value) = (.ok value, store) :=
  Script.run_pure _ value store

theorem finish_request (request : Request) {answer : Answer request} {reached : Store}
    (answered : serve compress request store = (.ok answer, reached))
    (next : Answer request → Tree Result) :
    finish compress store (perform request >>= next) = finish compress reached (next answer) :=
  Script.run_perform_bind _ answered next

@[simp] theorem finish_get_level (d : Nat) (next : Option (List Hex64) → Tree Result) :
    finish compress store (getLevel d >>= next) =
      finish compress store (next (store.level d)) :=
  finish_request compress store (.getLevel d) rfl next

@[simp] theorem finish_set_level (d : Nat) (level : List Hex64) (next : Unit → Tree Result) :
    finish compress store (setLevel d level >>= next) =
      finish compress (store.setLevel d level) (next ()) :=
  finish_request compress store (.setLevel d level) rfl next

@[simp] theorem finish_get_empty (d : Nat) (next : Option Hex64 → Tree Result) :
    finish compress store (getEmpty d >>= next) =
      finish compress store (next (store.empty d)) :=
  finish_request compress store (.getEmpty d) rfl next

@[simp] theorem finish_set_empty (d : Nat) (hash : Hex64) (next : Unit → Tree Result) :
    finish compress store (setEmpty d hash >>= next) =
      finish compress (store.setEmpty d hash) (next ()) :=
  finish_request compress store (.setEmpty d hash) rfl next

@[simp] theorem finish_get_root (next : Option Hex64 → Tree Result) :
    finish compress store (getRoot >>= next) = finish compress store (next store.root) :=
  finish_request compress store .getRoot rfl next

@[simp] theorem finish_set_root (root : Hex64) (next : Unit → Tree Result) :
    finish compress store (setRoot root >>= next) =
      finish compress { store with root := some root } (next ()) :=
  finish_request compress store (.setRoot root) rfl next

@[simp] theorem finish_get_size (next : Option Nat → Tree Result) :
    finish compress store (getSize >>= next) = finish compress store (next store.size) :=
  finish_request compress store .getSize rfl next

@[simp] theorem finish_set_size (size : Nat) (next : Unit → Tree Result) :
    finish compress store (setSize size >>= next) =
      finish compress { store with size := some size } (next ()) :=
  finish_request compress store (.setSize size) rfl next

@[simp] theorem finish_hash (left right : Hex64) (next : Hex64 → Tree Result) :
    finish compress store (poseidon2Hash left right >>= next) =
      finish compress store (next (compress left right)) :=
  finish_request compress store (.hash left right) rfl next

theorem finish_index {level : List Hex64} {i : Nat} {hash : Hex64} (found : level[i]? = some hash)
    (next : Hex64 → Tree Result) :
    finish compress store (index level i >>= next) = finish compress store (next hash) := by
  rw [index, found]
  rfl

theorem finish_bind {Value : Type} {script : Tree Value} {value : Value} {reached : Store}
    (finished : finish compress store script = (.ok value, reached))
    (next : Value → Tree Result) :
    finish compress store (script >>= next) = finish compress reached (next value) :=
  Script.run_bind_ok _ finished next

end Requests

/-! The store of a tree with given leaves: every level is kept to its front. -/
section Represents
variable (compress : Hex64 → Hex64 → Hex64)

structure Represents (depth : Nat) (leaves : List Hex64) (store : Store) : Prop where
  size : store.size = some leaves.length
  root : store.root = some (MerkleTree.root compress emptyLeaf leaves depth)
  levels : ∀ d ≤ depth, store.level d = some (MerkleTree.front compress emptyLeaf leaves d)
  empties : ∀ d ≤ depth, store.empty d = some (MerkleTree.emptyNode compress emptyLeaf d)

/-- Mid-way through adding a leaf: levels up to `d` are new, those above still old. -/
structure Halfway (depth : Nat) (leaves : List Hex64) (commitment : Hex64) (d : Nat)
    (store : Store) : Prop where
  lower : ∀ k ≤ d, k ≤ depth →
    store.level k = some (MerkleTree.front compress emptyLeaf (leaves ++ [commitment]) k)
  upper : ∀ k, d < k → k ≤ depth →
    store.level k = some (MerkleTree.front compress emptyLeaf leaves k)
  empties : ∀ k ≤ depth, store.empty k = some (MerkleTree.emptyNode compress emptyLeaf k)

variable {compress}

/-- Present or not, the sibling is the node of the full tree. -/
theorem sibling_finishes {store : Store} {d : Nat}
    (empty : store.empty d = some (MerkleTree.emptyNode compress emptyLeaf d))
    (leaves : List Hex64) (idx : Nat) :
    finish compress store (siblingOf d idx (MerkleTree.front compress emptyLeaf leaves d)) =
      (.ok (MerkleTree.node compress (MerkleTree.padded emptyLeaf leaves) d
        (MerkleTree.sibling idx)), store) := by
  have same : siblingIdx idx = MerkleTree.sibling idx := rfl
  rw [siblingOf, same, MerkleTree.front_length]
  -- Past the front every node is the empty one, which is what the store answers there.
  by_cases present : MerkleTree.sibling idx < MerkleTree.frontWidth leaves.length d
  · rw [if_pos present, index, MerkleTree.front_get _ _ _ _ _ present]
    rfl
  · rw [if_neg present, MerkleTree.front_past _ _ _ (Nat.le_of_not_lt present), finish_get_empty,
      empty]
    rfl

theorem finish_sibling {Result : Type} {store : Store} {d : Nat}
    (empty : store.empty d = some (MerkleTree.emptyNode compress emptyLeaf d))
    (leaves : List Hex64) (idx : Nat) (next : Hex64 → Tree Result) :
    finish compress store
        (siblingOf d idx (MerkleTree.front compress emptyLeaf leaves d) >>= next) =
      finish compress store (next (MerkleTree.node compress (MerkleTree.padded emptyLeaf leaves) d
        (MerkleTree.sibling idx))) :=
  finish_bind compress store (sibling_finishes empty leaves idx) next

theorem finish_grow {store : Store} {d : Nat}
    (empty : store.empty d = some (MerkleTree.emptyNode compress emptyLeaf d))
    (missing : Nat) (level : List Hex64) :
    finish compress store (growLevel d missing level) =
      (.ok (level ++ List.replicate missing (MerkleTree.emptyNode compress emptyLeaf d)),
        store) := by
  induction missing generalizing level with
  | zero => rw [growLevel, List.replicate_zero, List.append_nil, finish_pure]
  | succ missing ih =>
      rw [growLevel, finish_get_empty, empty, Option.getD_some, ih, List.append_assoc,
        List.replicate_succ, List.singleton_append]

theorem halfway_write {depth d : Nat} {leaves : List Hex64} {commitment : Hex64} {store : Store}
    (halfway : Halfway compress depth leaves commitment d store) :
    Halfway compress depth leaves commitment (d + 1)
      (store.setLevel (d + 1)
        (MerkleTree.front compress emptyLeaf (leaves ++ [commitment]) (d + 1))) := by
  constructor
  · intro k low inside
    by_cases new : k = d + 1
    · subst new
      exact set_level_self ..
    · rw [set_level_other _ _ new]
      exact halfway.lower k (by omega) inside
  · intro k high inside
    rw [set_level_other _ _ (by omega)]
    exact halfway.upper k (by omega) inside
  · exact halfway.empties

/-- One round of the path update turns the level above into its new front. -/
theorem update_round {depth d remaining : Nat} {leaves : List Hex64} {commitment : Hex64}
    {store : Store} (halfway : Halfway compress depth leaves commitment d store)
    (low : d + 1 ≤ depth) :
    finish compress store (updatePath (remaining + 1) d (leaves.length / 2 ^ d)
        (MerkleTree.front compress emptyLeaf (leaves ++ [commitment]) d)) =
      finish compress
        (store.setLevel (d + 1)
          (MerkleTree.front compress emptyLeaf (leaves ++ [commitment]) (d + 1)))
        (updatePath remaining (d + 1) (leaves.length / 2 ^ (d + 1))
          (MerkleTree.front compress emptyLeaf (leaves ++ [commitment]) (d + 1))) := by
  have current := MerkleTree.front_newest compress emptyLeaf commitment leaves d _ (Nat.le_refl _)
  have parent := MerkleTree.path_parent compress
    (MerkleTree.padded emptyLeaf (leaves ++ [commitment])) d leaves.length
  have written := MerkleTree.front_snoc compress emptyLeaf commitment leaves (d + 1)
  rw [updatePath, finish_sibling (halfway.empties d (by omega)), finish_index _ _ current]
  -- what is hashed is the step of the climb
  have hashed : ∀ (next : Hex64 → Tree (List Hex64)) (current : Hex64) (step : Hex64 × Bool),
      finish compress store
          (match MerkleTree.stepInputs current step with
            | (left, right) => poseidon2Hash left right >>= next) =
        finish compress store (next (MerkleTree.climbStep compress current step)) :=
    fun next current step => finish_hash compress store _ _ next
  rw [MerkleTree.step_sides, hashed, parent, finish_get_level,
    halfway.upper (d + 1) (Nat.lt_succ_self d) low, Option.getD_some, MerkleTree.parent_index]
  dsimp only
  rw [MerkleTree.front_length, finish_bind _ _ (finish_grow (halfway.empties (d + 1) low) _ _),
    written, finish_set_level]

/-- The path update as a whole, by induction on the levels that remain. -/
theorem update_path {depth : Nat} {leaves : List Hex64} {commitment : Hex64} (remaining d : Nat)
    {store : Store} (halfway : Halfway compress depth leaves commitment d store)
    (height : d + remaining = depth) :
    ∃ reached, finish compress store (updatePath remaining d (leaves.length / 2 ^ d)
        (MerkleTree.front compress emptyLeaf (leaves ++ [commitment]) d)) =
      (.ok (MerkleTree.front compress emptyLeaf (leaves ++ [commitment]) depth), reached) ∧
      Halfway compress depth leaves commitment depth reached := by
  induction remaining generalizing d store with
  | zero =>
      obtain rfl : d = depth := height
      exact ⟨store, by rw [updatePath, finish_pure], halfway⟩
  | succ remaining ih =>
      rw [update_round halfway (by omega)]
      exact ih (d + 1) (halfway_write halfway) (by omega)

theorem place_leaf (leaves : List Hex64) (commitment : Hex64) :
    placeLeaf (MerkleTree.front compress emptyLeaf leaves 0) leaves.length commitment =
      MerkleTree.front compress emptyLeaf (leaves ++ [commitment]) 0 := by
  have written := MerkleTree.front_snoc compress emptyLeaf commitment leaves 0
  rw [Nat.pow_zero, Nat.div_one, MerkleTree.node_zero, MerkleTree.padded_append_length] at written
  rw [placeLeaf, MerkleTree.front_length]
  exact written

/-- The first write of `add_leaf`. -/
theorem halfway_first {depth : Nat} {leaves : List Hex64} {store : Store}
    (represents : Represents compress depth leaves store) (commitment : Hex64) :
    Halfway compress depth leaves commitment 0
      (store.setLevel 0 (MerkleTree.front compress emptyLeaf (leaves ++ [commitment]) 0)) := by
  constructor
  · intro k low inside
    obtain rfl := Nat.le_zero.mp low
    exact set_level_self ..
  · intro k high inside
    rw [set_level_other _ _ (by omega)]
    exact represents.levels k inside
  · exact represents.empties

/-- `add_leaf` at the stored size appends the leaf. -/
theorem add_next {depth : Nat} {leaves : List Hex64} {store : Store}
    (represents : Represents compress depth leaves store) (commitment : Hex64) :
    ∃ reached, finish compress store (addLeaf leaves.length commitment depth) =
        (.ok (MerkleTree.root compress emptyLeaf (leaves ++ [commitment]) depth), reached) ∧
      Represents compress depth (leaves ++ [commitment]) reached := by
  have first := halfway_first represents commitment
  obtain ⟨reached, updated, halfway⟩ := update_path depth 0 first (Nat.zero_add depth)
  rw [Nat.pow_zero, Nat.div_one] at updated
  have top := MerkleTree.front_newest compress emptyLeaf commitment leaves depth 0 (Nat.zero_le _)
  refine ⟨{ reached with
    root := some (MerkleTree.root compress emptyLeaf (leaves ++ [commitment]) depth)
    size := some (leaves.length + 1) }, ?_, ?_⟩
  · -- the whole text of `add_leaf`, request by request
    rw [addLeaf, finish_get_size, represents.size, Option.getD_some, if_neg (by simp),
      finish_get_level, represents.levels 0 (Nat.zero_le depth), Option.getD_some, place_leaf,
      finish_set_level, finish_bind _ _ updated, finish_index _ _ top, finish_set_root,
      finish_set_size, finish_pure]
    rfl
  · constructor
    · rw [List.length_append, List.length_singleton]
    · rfl
    · intro d inside
      exact halfway.lower d inside inside
    · exact halfway.empties

/-- Any other index leaves the store as it is. -/
theorem add_other {depth : Nat} {leaves : List Hex64} {store : Store}
    (represents : Represents compress depth leaves store) {leafIndex : Nat}
    (other : leafIndex ≠ leaves.length) (commitment : Hex64) :
    finish compress store (addLeaf leafIndex commitment depth) =
      (.ok (MerkleTree.root compress emptyLeaf leaves depth), store) := by
  rw [addLeaf, finish_get_size, represents.size, Option.getD_some, if_pos other, finish_get_root,
    represents.root, Option.getD_some, finish_pure]

/-- What the loop of `init_empty_tree` has written below level `d`. -/
structure Emptied (compress : Hex64 → Hex64 → Hex64) (d : Nat) (store : Store) : Prop where
  levels : ∀ k < d, store.level k = some (MerkleTree.front compress emptyLeaf [] k)
  empties : ∀ k < d, store.empty k = some (MerkleTree.emptyNode compress emptyLeaf k)

theorem front_nil (d : Nat) :
    MerkleTree.front compress emptyLeaf [] d = [MerkleTree.emptyNode compress emptyLeaf d] := by
  have width : MerkleTree.frontWidth 0 d = 1 := by
    have positive : 0 < 2 ^ d := Nat.two_pow_pos d
    simp [MerkleTree.frontWidth, Nat.div_eq_of_lt (Nat.sub_one_lt_of_lt positive)]
  have node := MerkleTree.node_empty compress emptyLeaf [] d 0 (Nat.zero_le _)
  rw [MerkleTree.front, MerkleTree.leavesOf, List.length_nil, width, List.range_one,
    List.map_singleton, node]

theorem emptied_write {d : Nat} {store : Store} (emptied : Emptied compress d store) :
    Emptied compress (d + 1)
      ((store.setEmpty d (MerkleTree.emptyNode compress emptyLeaf d)).setLevel d
        [MerkleTree.emptyNode compress emptyLeaf d]) := by
  constructor
  · intro k low
    by_cases new : k = d
    · subst new
      rw [set_level_self, front_nil]
    · rw [set_level_other _ _ new]
      exact emptied.levels k (by omega)
  · intro k low
    by_cases new : k = d
    · subst new
      exact set_empty_self ..
    · exact (set_empty_other store _ new).trans (emptied.empties k (by omega))

theorem init_levels (remaining d : Nat) {store : Store} (emptied : Emptied compress (d + 1) store) :
    ∃ reached, finish compress store
        (initLevels remaining (d + 1) (MerkleTree.emptyNode compress emptyLeaf d)) =
      (.ok (MerkleTree.emptyNode compress emptyLeaf (d + remaining)), reached) ∧
      Emptied compress (d + remaining + 1) reached := by
  induction remaining generalizing d store with
  | zero => exact ⟨store, by rw [initLevels, finish_pure, Nat.add_zero], emptied⟩
  | succ remaining ih =>
      have shift : d + 1 + remaining = d + (remaining + 1) := by omega
      obtain ⟨reached, finished, rest⟩ := ih (d + 1) (emptied_write emptied)
      rw [shift] at finished rest
      refine ⟨reached, ?_, rest⟩
      rw [initLevels, finish_hash, finish_set_empty, finish_set_level]
      exact finished

/-- `init_empty_tree` leaves the empty tree, whatever the store held before. -/
theorem init_empty (compress : Hex64 → Hex64 → Hex64) (store : Store) (depth : Nat) :
    ∃ reached, finish compress store (initEmptyTree depth) = (.ok (), reached) ∧
      Represents compress depth [] reached := by
  have nothing : Emptied compress 0 store :=
    ⟨fun k low => absurd low (Nat.not_lt_zero k), fun k low => absurd low (Nat.not_lt_zero k)⟩
  obtain ⟨reached, finished, emptied⟩ := init_levels depth 0 (emptied_write nothing)
  rw [Nat.zero_add] at emptied
  rw [Nat.zero_add (n := depth)] at finished
  refine ⟨{ reached with
    root := some (MerkleTree.emptyNode compress emptyLeaf depth), size := some 0 }, ?_, ?_⟩
  · rw [initEmptyTree, finish_set_empty, finish_set_level]
    exact finish_bind _ _ finished fun current => setRoot current >>= fun _ => setSize 0
  · constructor
    · rfl
    · rw [MerkleTree.root, MerkleTree.node_empty _ _ _ _ _ (Nat.zero_le _)]
    · intro d inside
      exact emptied.levels d (Nat.lt_succ_of_le inside)
    · intro d inside
      exact emptied.empties d (Nat.lt_succ_of_le inside)

/-- Any calls of `add_leaf` append exactly the commitments they were in time for. -/
theorem add_all {depth : Nat} (calls : List (Nat × Hex64)) {leaves : List Hex64} {store : Store}
    (represents : Represents compress depth leaves store) :
    Represents compress depth (leaves ++ taken compress depth calls store)
      (addAll compress depth calls store) := by
  induction calls generalizing leaves store with
  | nil =>
      rw [taken, addAll, List.append_nil]
      exact represents
  | cons call rest ih =>
      by_cases next : call.1 = leaves.length
      · obtain ⟨reached, added, longer⟩ := add_next represents call.2
        have size : store.size = some call.1 := by rw [represents.size, next]
        rw [next] at size
        rw [taken, addAll, next, added, if_pos size, List.append_cons]
        exact ih longer
      · have size : store.size ≠ some call.1 := by
          rw [represents.size]
          exact fun same => next (Option.some.inj same).symm
        rw [taken, addAll, add_other represents next, if_neg size]
        exact ih represents

end Represents

theorem taken_length (compress : Hex64 → Hex64 → Hex64) (depth : Nat)
    (calls : List (Nat × Hex64)) (store : Store) :
    (taken compress depth calls store).length ≤ calls.length := by
  induction calls generalizing store with
  | nil => exact Nat.le_refl 0
  | cons call rest ih =>
      have others := ih (finish compress store (addLeaf call.1 call.2 depth)).2
      rw [taken]
      split
      · exact Nat.succ_le_succ others
      · exact Nat.le_succ_of_le others

/-! The store against the merkle service's full tree. -/
section Refinement
variable (compress : Hex64 → Hex64 → Hex64)

/-- The store after an initialisation and any calls of `add_leaf`. -/
def reachedStore (depth : Nat) (before : Store) (calls : List (Nat × Hex64)) : Store :=
  addAll compress depth calls (finish compress before (initEmptyTree depth)).2

def takenLeaves (depth : Nat) (before : Store) (calls : List (Nat × Hex64)) : List Hex64 :=
  taken compress depth calls (finish compress before (initEmptyTree depth)).2

/-- `level` is the front of `reference`, behind which that level repeats `empty`. -/
structure LevelRefines (d count : Nat) (level reference : List Hex64) (empty : Hex64) : Prop where
  length : level.length = max 1 ((count + 2 ^ d - 1) / 2 ^ d)
  leading : reference.take level.length = level
  padding : ∀ node ∈ reference.drop level.length, node = empty

/-- The store agrees with the full tree of the commitments. -/
structure Refines (depth : Nat) (commitments : List Hex64) (store : Store) : Prop where
  size : store.size = some commitments.length
  tree : ∃ tree, buildTree (answering compress) commitments depth = .ok tree ∧
    store.root = tree.root ∧ store.root ≠ none ∧
    ∀ d ≤ depth, ∃ level reference empty, store.level d = some level ∧
      tree.levels[d]? = some reference ∧ store.empty d = some empty ∧
      LevelRefines d commitments.length level reference empty
  unmoved : ∀ leafIndex commitment, leafIndex ≠ commitments.length →
    (finish compress store (addLeaf leafIndex commitment depth)).2 = store

variable {compress}

theorem leaves_take (leaf : Nat → Hex64) {few many : Nat} (fits : few ≤ many) :
    (MerkleTree.leavesOf leaf many).take few = MerkleTree.leavesOf leaf few := by
  rw [MerkleTree.leavesOf, MerkleTree.leavesOf, ← List.map_take, List.take_range,
    Nat.min_eq_left fits]

theorem front_refines {depth d : Nat} {commitments : List Hex64}
    (fits : commitments.length ≤ 2 ^ depth) (inside : d ≤ depth) :
    LevelRefines d commitments.length (MerkleTree.front compress emptyLeaf commitments d)
      (MerkleTree.leavesOf (MerkleTree.node compress (MerkleTree.padded emptyLeaf commitments) d)
        (2 ^ (depth - d)))
      (MerkleTree.emptyNode compress emptyLeaf d) := by
  have width := MerkleTree.front_width_bound fits inside
  constructor
  · exact MerkleTree.front_length ..
  · rw [MerkleTree.front_length, leaves_take _ width]
    rfl
  · intro node member
    rw [MerkleTree.front_length, MerkleTree.leavesOf, ← List.map_drop] at member
    obtain ⟨i, past, rfl⟩ := List.mem_map.mp member
    obtain ⟨k, _, rfl⟩ := List.mem_drop_iff_getElem.mp past
    rw [List.getElem_range]
    exact MerkleTree.front_past _ _ _ (Nat.le_add_right _ _)

theorem represents_refines {depth : Nat} {commitments : List Hex64} {store : Store}
    (represents : Represents compress depth commitments store) (small : depth ≤ 30)
    (fits : commitments.length ≤ 2 ^ depth) : Refines compress depth commitments store := by
  constructor
  · exact represents.size
  · refine ⟨_, build_tree_nodes compress commitments small, represents.root, ?_, ?_⟩
    · rw [represents.root]
      exact nofun
    · intro d inside
      have level : ((List.range (depth + 1)).map fun d => MerkleTree.leavesOf
          (MerkleTree.node compress (MerkleTree.padded emptyLeaf commitments) d)
          (2 ^ (depth - d)))[d]? = some (MerkleTree.leavesOf
          (MerkleTree.node compress (MerkleTree.padded emptyLeaf commitments) d)
          (2 ^ (depth - d))) := by
        rw [List.getElem?_map, List.getElem?_range (Nat.lt_succ_of_le inside)]
        rfl
      exact ⟨_, _, _, represents.levels d inside, level, represents.empties d inside,
        front_refines fits inside⟩
  · intro leafIndex commitment other
    rw [add_other represents other]

/-- After `init_empty_tree` and any calls of `add_leaf`, the store is the full tree. -/
theorem redis_tree_refines (compress : Hex64 → Hex64 → Hex64) (depth : Nat) (before : Store)
    (calls : List (Nat × Hex64)) (small : depth ≤ 30)
    (fits : (takenLeaves compress depth before calls).length ≤ 2 ^ depth) :
    Refines compress depth (takenLeaves compress depth before calls)
      (reachedStore compress depth before calls) := by
  obtain ⟨reached, initialised, empty⟩ := init_empty compress before depth
  have start : (finish compress before (initEmptyTree depth)).2 = reached := by rw [initialised]
  rw [takenLeaves, start] at fits ⊢
  rw [reachedStore, start]
  exact represents_refines (add_all calls empty) small fits

/-- Repeated, early and late calls at depth two. -/
def unruly : List (Nat × Hex64) :=
  [(0, hexOf 11), (3, hexOf 12), (1, hexOf 13), (1, hexOf 14)]

theorem unruly_refines :
    Refines (hashHex Poseidon2.poseidon2Permutation) 2
      (takenLeaves (hashHex Poseidon2.poseidon2Permutation) 2
        ⟨fun _ => none, fun _ => none, none, none⟩ unruly)
      (reachedStore (hashHex Poseidon2.poseidon2Permutation) 2
        ⟨fun _ => none, fun _ => none, none, none⟩ unruly) :=
  redis_tree_refines _ 2 _ unruly (by decide) (taken_length _ 2 unruly _)

end Refinement

end PrivateTransfer.RedisTree
