import PrivateTransfer.IndexAuthenticity
import PrivateTransfer.TreeFailures

/-!
Which deposits the services can carry. The program takes any 32 bytes for a
commitment; the merkle service reads its inputs as field elements and refuses
what is not a canonical one. Nothing else makes it refuse, since its own hashes
are canonical.
-/

namespace PrivateTransfer.Indexer

open EventLog MerkleService PoolState Script TreeRecovery
open RedisTree (TreeError Represents)

section Service
variable {poseidon2Permutation : Vector Field 4 → Vector Field 4}

def CanonicalHex (hex : Hex64) : Prop := hex.value < bn254Modulus

instance (hex : Hex64) : Decidable (CanonicalHex hex) :=
  inferInstanceAs (Decidable (hex.value < bn254Modulus))

/-- `noir.execute` fails on, and only on, inputs that are not canonical. -/
structure Strict (poseidon2Permutation : Vector Field 4 → Vector Field 4)
    (hash : Hex64 → Hex64 → Except String Hex64) : Prop where
  answers : ∀ left right, CanonicalHex left → CanonicalHex right →
    hash left right = .ok (hashHex poseidon2Permutation left right)
  refuses : ∀ left right, ¬ (CanonicalHex left ∧ CanonicalHex right) →
    ∃ message, hash left right = .error message

/-- The hash as the routes of the service use it. -/
def routeHash (hash : Hex64 → Hex64 → Except String Hex64) (left right : Hex64) :
    Except ServiceError Hex64 := (hash left right).mapError .hash

theorem hash_hex_canonical (left right : Hex64) :
    CanonicalHex (hashHex poseidon2Permutation left right) := by
  rw [CanonicalHex, hashHex, hexOf, hex_encode_value, bytesOf, Bytes32.value_ofNat,
    Nat.mod_eq_of_lt (field_lt_word _)]
  exact (Circuit.hash2 poseidon2Permutation (fieldOfHex left) (fieldOfHex right)).isLt

theorem zeros_value (count : Nat) :
    (List.replicate count '0').foldl (fun total digit => 16 * total + Hex64.digitValue digit) 0 =
      0 := by
  induction count with
  | zero => rfl
  | succ count ih =>
      rw [List.replicate_succ, List.foldl_cons]
      exact ih

theorem empty_leaf_canonical : CanonicalHex emptyLeaf := by
  have text : emptyLeaf.text.toList = List.replicate 64 '0' := String.toList_ofList
  have zero : emptyLeaf.value = 0 := (congrArg (List.foldl _ 0) text).trans (zeros_value 64)
  exact lt_of_eq_of_lt zero (by decide)

theorem leaf_canonical (found : Found) :
    CanonicalHex (leafOf found) ↔ Canonical found.2.commitment := by
  rw [CanonicalHex, leafOf, hex_encode_value, Canonical]

variable {hash : Hex64 → Hex64 → Except String Hex64}

theorem strict_honest (strict : Strict poseidon2Permutation hash) :
    Honest (hashHex poseidon2Permutation) fun _ => hash := by
  intro _ left right
  by_cases both : CanonicalHex left ∧ CanonicalHex right
  · exact Or.inr (strict.answers left right both.1 both.2)
  · exact Or.inl (strict.refuses left right both)

theorem strict_answered (strict : Strict poseidon2Permutation hash) {left right parent : Hex64}
    (answered : routeHash hash left right = .ok parent) :
    CanonicalHex left ∧ CanonicalHex right := by
  by_contra neither
  obtain ⟨message, refused⟩ := strict.refuses left right neither
  rw [routeHash, refused] at answered
  cases answered

theorem strict_answers_on (strict : Strict poseidon2Permutation hash) :
    AnswersOn CanonicalHex (hashHex poseidon2Permutation) (routeHash hash) := by
  constructor
  · intro left right goodLeft goodRight
    rw [routeHash, strict.answers left right goodLeft goodRight]
    rfl
  · exact hash_hex_canonical

theorem node_canonical (poseidon2Permutation : Vector Field 4 → Vector Field 4)
    {leaves : List Hex64}
    (all : ∀ leaf ∈ leaves, CanonicalHex leaf) (d i : Nat) :
    CanonicalHex (MerkleTree.node (hashHex poseidon2Permutation)
      (MerkleTree.padded emptyLeaf leaves) d i) := by
  cases d with
  | zero =>
      rw [MerkleTree.node_zero, MerkleTree.padded, List.getD_eq_getElem?_getD]
      cases found : leaves[i]? with
      | none => exact empty_leaf_canonical
      | some leaf => exact all leaf (List.mem_of_getElem? found)
  | succ d =>
      rw [MerkleTree.node_succ]
      exact hash_hex_canonical _ _

/-- Canonical leaves are answered for on their whole path. -/
theorem strict_path (strict : Strict poseidon2Permutation hash) {leaves : List Hex64}
    (all : ∀ leaf ∈ leaves, CanonicalHex leaf) (idx first d count : Nat) :
    AnswersPath (hashHex poseidon2Permutation) (fun _ => hash) leaves idx first d count := by
  intro j _
  have current := node_canonical poseidon2Permutation all (d + j)
    (idx / 2 ^ (d + j))
  have beside := node_canonical poseidon2Permutation all (d + j)
    (MerkleTree.sibling (idx / 2 ^ (d + j)))
  rw [pathInputs, MerkleTree.stepInputs]
  cases idx / 2 ^ (d + j) % 2 == 0 with
  | true => exact ⟨_, strict.answers _ _ current beside⟩
  | false => exact ⟨_, strict.answers _ _ beside current⟩

end Service

/-! A restart on a tree that is up to date. -/
section Restart
variable {compress : Hex64 → Hex64 → Hex64} {depth : Nat} {leaves : List Hex64}

theorem sync_whole (answers : HashService) {host : Host}
    (whole : Represents compress depth leaves host.store) :
    run (serveHost answers) (syncTree (rows leaves) depth) host = (.ok (), host) := by
  have size : run (serveHost answers) RedisTree.getSize host =
      (.ok (some leaves.length), host) := by
    rw [← whole.size]
    rfl
  have root : run (serveHost answers) RedisTree.getRoot host =
      (.ok (some (MerkleTree.root compress emptyLeaf leaves depth)), host) := by
    rw [← whole.root]
    rfl
  have absent : run (serveHost answers) (initIfAbsent depth) host = (.ok (), host) := by
    rw [initIfAbsent, run_bind_ok _ size]
    by_cases none' : leaves.length = 0
    · rw [Option.getD_some, if_pos none', run_bind_ok _ root]
      rfl
    · rw [Option.getD_some, if_neg none']
      rfl
  have missing : run (serveHost answers) (addMissing (rows leaves) leaves.length depth) host =
      (.ok (), host) := by
    rw [addMissing, rows, rows_length, if_neg (Nat.lt_irrefl _)]
    rfl
  rw [syncTree, run_bind_ok _ absent, run_bind_ok _ size, Option.getD_some,
    run_bind_ok _ missing, run_bind_ok _ root]
  rfl

end Restart

/-! The services on the deposits of a run of the program. -/
section Services
variable {verifier : List UInt8 → Bool} {deployment : PoolProgram.Deployment}

/-- `TREE_DEPTH` of the merkle service. -/
def serverTreeDepth : Nat := 20

/-- The tree holds every leaf, a restart gets through and `/root` answers. -/
structure Stands (poseidon2Permutation : Vector Field 4 → Vector Field 4)
    (hash : Hex64 → Hex64 → Except String Hex64) (depth : Nat) (events : List Found)
    (after : Backend) : Prop where
  tree : Represents (hashHex poseidon2Permutation) depth (leaves events) after.tree.store
  restarts : (run (serveHost fun _ => hash) (syncTree (rows (dbLeaves after.tables)) depth)
    after.tree).1 = .ok ()
  answers : ∃ tree, buildTree (routeHash hash) (dbLeaves after.tables) serverTreeDepth = .ok tree

/-- The events the indexer finds are those of the program's log. -/
def FoundIn (log : List Event) (events : List Found) : Prop :=
  events.map Prod.snd = Accounting.depositEvents log

theorem found_consecutive {history : List (PoolProgram.Transaction deployment)}
    {chain : PoolProgram.Chain} (logged : Accounting.LogFollows history chain)
    {events : List Found} (found : FoundIn chain.log events) : Consecutive events := by
  have indices := logged.indices
  rw [← found, List.map_map] at indices
  intro k event next
  have read := congrArg (·[k]?) indices
  obtain ⟨inside, _⟩ := List.getElem?_eq_some_iff.mp next
  have bound := congrArg List.length indices
  rw [List.length_map, List.length_range] at bound
  rw [List.getElem?_map, next, List.getElem?_range (bound ▸ inside)] at read
  exact Option.some.inj read

/-- The accepted deposits, as the indexer finds them. -/
theorem found_commitments {history : List (PoolProgram.Transaction deployment)}
    {chain : PoolProgram.Chain} (logged : Accounting.LogFollows history chain)
    {events : List Found} (found : FoundIn chain.log events) :
    events.map (fun event => event.2.commitment) =
      (PoolRuns.deposits history).map PoolProgram.DepositArgs.commitment := by
  have contents := congrArg (List.map Prod.fst) logged.contents
  rw [List.map_map, List.map_map, ← found, List.map_map] at contents
  exact contents

theorem found_bounded {history : List (PoolProgram.Transaction deployment)}
    {chain : PoolProgram.Chain} (logged : Accounting.LogFollows history chain)
    (follows : PoolRuns.PoolFollows history chain)
    {events : List Found} (found : FoundIn chain.log events) : events.length ≤ 2 ^ treeDepth := by
  obtain ⟨pool, _, follows⟩ := follows
  have length := congrArg List.length (found_commitments logged found)
  rw [List.length_map, List.length_map] at length
  rw [length]
  exact follows.bounded

theorem found_canonical {history : List (PoolProgram.Transaction deployment)}
    {chain : PoolProgram.Chain} (logged : Accounting.LogFollows history chain)
    {events : List Found} (found : FoundIn chain.log events) :
    (∀ leaf ∈ leaves events, CanonicalHex leaf) ↔
      ∀ args ∈ PoolRuns.deposits history, Canonical args.commitment := by
  have same := found_commitments logged found
  constructor
  · intro all args sent
    have inside : args.commitment ∈ (PoolRuns.deposits history).map
        PoolProgram.DepositArgs.commitment := List.mem_map.mpr ⟨args, sent, rfl⟩
    rw [← same] at inside
    obtain ⟨event, listed, equal⟩ := List.mem_map.mp inside
    rw [← equal, ← leaf_canonical]
    exact all _ (List.mem_map.mpr ⟨event, listed, rfl⟩)
  · intro all leaf member
    obtain ⟨event, listed, rfl⟩ := List.mem_map.mp member
    have inside : event.2.commitment ∈ events.map fun event => event.2.commitment :=
      List.mem_map.mpr ⟨event, listed, rfl⟩
    rw [same] at inside
    obtain ⟨args, sent, equal⟩ := List.mem_map.mp inside
    rw [leaf_canonical, ← equal]
    exact all args sent

section Indexing
variable {poseidon2Permutation : Vector Field 4 → Vector Field 4}
  {hash : Hex64 → Hex64 → Except String Hex64} {events : List Found} (history : List Entry)
  {weather : Weather} (config : Config) {start : Session}

theorem indexed_leaves (up : ∀ n, weather.database n = false) {depth : Nat}
    (ready : Ready (hashHex poseidon2Permutation) depth start) (consecutive : Consecutive events) :
    dbLeaves (indexEvents history weather config start events).backend.tables = leaves events := by
  have stage := index_events_stage history config consecutive up ready events.length
    (Nat.le_refl _)
  have database := stage_leaves stage
  rwa [List.take_length] at database

/-- An answer of `/root` rules out a commitment that is not canonical. -/
theorem stands_canonical (strict : Strict poseidon2Permutation hash)
    (up : ∀ n, weather.database n = false)
    (ready : Ready (hashHex poseidon2Permutation) config.merkleTreeDepth start)
    (consecutive : Consecutive events) (fits : events.length ≤ 2 ^ serverTreeDepth)
    (stands : Stands poseidon2Permutation hash config.merkleTreeDepth events
      (indexEvents history weather config start events).backend) :
    ∀ leaf ∈ leaves events, CanonicalHex leaf := by
  intro leaf member
  obtain ⟨tree, done⟩ := stands.answers
  rw [indexed_leaves history config up ready consecutive] at done
  have short : (leaves events).length ≤ 2 ^ serverTreeDepth := by
    rwa [leaves, List.length_map]
  -- every leaf is one side of a hash that was answered
  obtain ⟨left, right, parent, answered, side⟩ := build_tree_answered (by decide) short done leaf
    member
  obtain ⟨goodLeft, goodRight⟩ := strict_answered strict answered
  rcases side with rfl | rfl
  · exact goodLeft
  · exact goodRight

theorem canonical_stands (strict : Strict poseidon2Permutation hash)
    (answers : weather.answers = fun _ => hash) (up : ∀ n, weather.database n = false)
    (ready : Ready (hashHex poseidon2Permutation) config.merkleTreeDepth start)
    (consecutive : Consecutive events) (all : ∀ leaf ∈ leaves events, CanonicalHex leaf) :
    Stands poseidon2Permutation hash config.merkleTreeDepth events
      (indexEvents history weather config start events).backend := by
  have honest : Honest (hashHex poseidon2Permutation) weather.answers :=
    answers ▸ strict_honest strict
  have paths : ∀ k < events.length, AnswersLeaf (hashHex poseidon2Permutation) weather.answers
      config.merkleTreeDepth events start.backend.tree.hashed k := by
    intro k _
    rw [AnswersLeaf, answers]
    refine strict_path strict ?_ _ _ _ _
    intro leaf member
    exact all leaf ((List.map_subset _ (List.take_subset _ _)) member)
  have grown := index_events_grown history config honest up ready consecutive events.length
    (Nat.le_refl _) paths
  have whole := grown.whole
  rw [List.take_length] at whole
  have database := indexed_leaves history config up ready consecutive
  refine ⟨whole, ?_, ?_⟩
  · rw [database, sync_whole _ whole]
  · rw [database, build_tree_on (strict_answers_on strict) empty_leaf_canonical all (by decide)]
    exact ⟨_, build_tree_nodes _ _ (by decide)⟩

end Indexing

/-- The services stand whatever is deposited exactly if every accepted commitment is
canonical. -/
theorem stands_iff (poseidon2Permutation : Vector Field 4 → Vector Field 4)
    (hash : Hex64 → Hex64 → Except String Hex64) (strict : Strict poseidon2Permutation hash)
    (launch : PoolRuns.Launch verifier deployment)
    (calls : List (PoolProgram.Transaction deployment)) (events : List Found)
    (found : FoundIn (launch.run calls).log events) (history : List Entry) (weather : Weather)
    (answers : weather.answers = fun _ => hash) (up : ∀ n, weather.database n = false)
    (config : Config) (start : Session)
    (ready : Ready (hashHex poseidon2Permutation) config.merkleTreeDepth start) :
    Stands poseidon2Permutation hash config.merkleTreeDepth events
        (indexEvents history weather config start events).backend ↔
      ∀ args ∈ PoolRuns.deposits (launch.history calls), Canonical args.commitment := by
  have logged := Accounting.trace_log launch (launch.run_trace calls)
  have follows := PoolRuns.trace_follows launch (launch.run_trace calls)
  have consecutive := found_consecutive logged found
  rw [← found_canonical logged found]
  constructor
  · intro stands
    exact stands_canonical history config strict up ready consecutive
      (found_bounded logged follows found) stands
  · intro all
    exact canonical_stands history config strict answers up ready consecutive all

/-- A merkle service on the permutation of the circuit. -/
def fieldHash (left right : Hex64) : Except String Hex64 :=
  if CanonicalHex left ∧ CanonicalHex right then
    .ok (hashHex Poseidon2.poseidon2Permutation left right)
  else .error "not a field element"

theorem field_hash_strict : Strict Poseidon2.poseidon2Permutation fieldHash := by
  constructor
  · intro left right goodLeft goodRight
    exact if_pos ⟨goodLeft, goodRight⟩
  · intro left right neither
    exact ⟨_, if_neg neither⟩

def fieldWeather : Weather := { calmWeather with answers := fun _ => fieldHash }

theorem sample_stands_iff :
    Stands Poseidon2.poseidon2Permutation fieldHash 20 [("deposit", sampleDeposited)]
        (indexEvents [] fieldWeather ⟨10, 1, 20⟩ initialised
          [("deposit", sampleDeposited)]).backend ↔
      ∀ args ∈ PoolRuns.deposits ((Verifier.sampleLaunch fun _ => true).history sampleCalls),
        Canonical args.commitment :=
  stands_iff Poseidon2.poseidon2Permutation fieldHash field_hash_strict
    (Verifier.sampleLaunch fun _ => true) sampleCalls [("deposit", sampleDeposited)]
    (by rw [FoundIn, sample_log]; rfl) [] fieldWeather rfl (fun _ => rfl) ⟨10, 1, 20⟩ initialised
    initialised_ready

/-- The largest 32-byte string as a commitment. -/
def hostileCalls : List (PoolProgram.Transaction Verifier.sampleDeployment) :=
  [Verifier.sampleDeposit (Vector.replicate 32 255) (Vector.replicate 32 9) Verifier.oneSol]

def hostileDeposited : DepositEvent :=
  ⟨Vector.replicate 32 255, 0, 1_700_000_000, Vector.replicate 32 9⟩

theorem hostile_log : ((Verifier.sampleLaunch fun _ => true).run hostileCalls).log =
    [.deposit hostileDeposited] := by
  decide +kernel

/-- The program accepts the deposit and the services never get over it. -/
theorem hostile_stops :
    FoundIn ((Verifier.sampleLaunch fun _ => true).run hostileCalls).log
        [("deposit", hostileDeposited)] ∧
      ¬ Stands Poseidon2.poseidon2Permutation fieldHash 20 [("deposit", hostileDeposited)]
        (indexEvents [] fieldWeather ⟨10, 1, 20⟩ initialised
          [("deposit", hostileDeposited)]).backend := by
  have found : FoundIn ((Verifier.sampleLaunch fun _ => true).run hostileCalls).log
      [("deposit", hostileDeposited)] := by
    rw [FoundIn, hostile_log]
    rfl
  refine ⟨found, ?_⟩
  intro stands
  have all := stands_canonical [] ⟨10, 1, 20⟩ field_hash_strict (fun _ => rfl) initialised_ready
    (found_consecutive (Accounting.trace_log _ (PoolRuns.Launch.run_trace _ _)) found) (by decide)
    stands
  have canonical := (leaf_canonical _).mp (all _ List.mem_cons_self)
  exact absurd canonical (by decide)

end Services

end PrivateTransfer.Indexer
