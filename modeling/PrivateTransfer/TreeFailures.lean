import PrivateTransfer.IndexerRuns

/-!
Deposits in chain order while the merkle service may refuse hash requests. The
row of a deposit is written before its leaf is added and hides the leaf from any
later attempt, and `add_leaf` answers with the old root for an index ahead of
the size, so one failure leaves the tree behind for good.
-/

namespace PrivateTransfer.Indexer

open EventLog MerkleService PoolState Script TreeRecovery
open RedisTree (TreeError Represents)

/-- A deposit event and the transaction it was found in. -/
abbrev Found := Signature × DepositEvent

def leafOf (found : Found) : Hex64 := hexEncode found.2.commitment

def leaves (events : List Found) : List Hex64 := events.map leafOf

/-- The program gives out the leaf indices in order. -/
def Consecutive (events : List Found) : Prop :=
  ∀ (k : Nat) (found : Found), events[k]? = some found → found.2.leafIndex.toNat = k

/-! One event: the row first, then the leaf, then the report. -/
section OneEvent
variable (history : List Entry) (weather : Weather) (config : Config)

def indexEvent (session : Session) (found : Found) : Session :=
  (run (serve history weather) (processLog config found.1 (eventLine (.deposit found.2)))
    session).2

def indexEvents (session : Session) (events : List Found) : Session :=
  events.foldl (indexEvent history weather config) session

/-- What `add_leaf` makes of the tree. -/
def addition (session : Session) (found : Found) : Except TreeError Hex64 × Host :=
  run (serveHost weather.answers)
    (RedisTree.addLeaf found.2.leafIndex.toNat (leafOf found) config.merkleTreeDepth)
    session.backend.tree

def reports (leafIndex : Int64) : Except TreeError Hex64 → List (Int64 × Hex64)
  | .ok root => [(leafIndex, root)]
  | .error _ => []

theorem report_leaf_runs (leafIndex : Int64) (added : Except TreeError Hex64) (session : Session) :
    run (serve history weather) (reportLeaf leafIndex (added.mapError .tree)) session =
      (.ok (), { session with reported := session.reported ++ reports leafIndex added }) := by
  cases added with
  | ok root => rfl
  | error failure =>
      rw [reports, List.append_nil]
      rfl

/-- A deposit that has no row yet gets one, whatever becomes of its leaf. -/
theorem index_event (up : ∀ n, weather.database n = false) (session : Session) (found : Found)
    (fresh : session.backend.tables.commitments.has found.2.leafIndex.toInt64 = false) :
    indexEvent history weather config session found =
      session.write ⟨true, session.queries + 2,
          session.backend.tables.record found.1 (.ofEvent (.deposit found.2))⟩
        (addition weather config session found).2
        (session.reported ++ reports found.2.leafIndex.toInt64
          (addition weather config session found).1) := by
  have asked : run (serve history weather) (commitmentExists found.2.leafIndex.toInt64) session =
      (if weather.database session.queries then .error .database
        else .ok (session.backend.tables.commitments.has found.2.leafIndex.toInt64),
        { session with queries := session.queries + 1 }) := rfl
  have saved := save_deposit_runs history weather found.1 found.2.leafIndex.toInt64
    found.2.commitment found.2.newRoot { session with queries := session.queries + 1 }
  rw [up, if_neg Bool.false_ne_true] at asked saved
  have index : found.2.leafIndex.toInt64.toUInt64.toNat = found.2.leafIndex.toNat := by simp
  rw [indexEvent, processLog, parse_event, Payload.ofEvent]
  dsimp only
  rw [run_bind_ok _ asked, fresh, if_neg Bool.false_ne_true, indexDeposit, run_bind_ok _ saved,
    run_bind_ok _ (run_attempt _ _ _), index]
  exact congrArg Prod.snd (run_bind_ok _ (report_leaf_runs history weather _ _ _) _)

end OneEvent

/-! The tables after some of the events, whatever happened to the leaves. -/
section Stages
variable (history : List Entry) {weather : Weather} (config : Config) {events : List Found}

/-- The database's commitments, in the order of its rows. -/
def dbLeaves (tables : Tables) : List Hex64 :=
  tables.commitments.rows.map fun row => hexEncode row.commitment

structure Stage (events : List Found) (k : Nat) (session : Session) : Prop where
  rows : session.backend.tables.commitments.rows.map
      (fun row => (row.leafIndex, row.commitment)) =
    (events.take k).map fun found => (found.2.leafIndex.toInt64, found.2.commitment)
  earlier : ∀ report ∈ session.reported, ∃ j < k, ∃ found, events[j]? = some found ∧
    report.1 = found.2.leafIndex.toInt64

theorem stage_leaves {k : Nat} {session : Session} (stage : Stage events k session) :
    dbLeaves session.backend.tables = leaves (events.take k) := by
  have read := congrArg (List.map fun pair => hexEncode pair.2) stage.rows
  rwa [List.map_map, List.map_map] at read

theorem index_apart (consecutive : Consecutive events) {j k : Nat} {one other : Found}
    (first : events[j]? = some one) (second : events[k]? = some other)
    (same : one.2.leafIndex.toInt64 = other.2.leafIndex.toInt64) : j = k := by
  have index : one.2.leafIndex = other.2.leafIndex := by
    simpa using congrArg Int64.toUInt64 same
  rw [← consecutive j one first, index, consecutive k other second]

theorem stage_fresh (consecutive : Consecutive events) {k : Nat} {session : Session}
    (stage : Stage events k session) {found : Found} (next : events[k]? = some found) :
    session.backend.tables.commitments.has found.2.leafIndex.toInt64 = false := by
  rw [Bool.eq_false_iff]
  intro known
  obtain ⟨row, kept, same⟩ := (UniqueTable.has_iff _ _).mp known
  have listed : (row.leafIndex, row.commitment) ∈
      (events.take k).map fun found => (found.2.leafIndex.toInt64, found.2.commitment) := by
    rw [← stage.rows]
    exact List.mem_map.mpr ⟨row, kept, rfl⟩
  obtain ⟨other, member, equal⟩ := List.mem_map.mp listed
  obtain ⟨j, inside, place⟩ := List.mem_take_iff_getElem.mp member
  have before : events[j]? = some other := by
    rw [List.getElem?_eq_getElem (by omega), place]
  have index : other.2.leafIndex.toInt64 = found.2.leafIndex.toInt64 :=
    (congrArg Prod.fst equal).trans same
  have at' := index_apart consecutive before next index
  omega

theorem stage_step (consecutive : Consecutive events) (up : ∀ n, weather.database n = false)
    {k : Nat} {session : Session} (stage : Stage events k session) {found : Found}
    (next : events[k]? = some found) :
    Stage events (k + 1) (indexEvent history weather config session found) := by
  have fresh := stage_fresh consecutive stage next
  obtain ⟨inside, rfl⟩ := List.getElem?_eq_some_iff.mp next
  rw [index_event history weather config up session _ fresh]
  constructor
  · have unknown : ¬ session.backend.tables.commitments.has events[k].2.leafIndex.toInt64 =
        true := by simp [fresh]
    change (session.backend.tables.commitments.insert ⟨events[k].2.leafIndex.toInt64,
      events[k].2.commitment, events[k].1⟩).rows.map _ = _
    rw [UniqueTable.insert_fresh unknown, List.map_append, stage.rows,
      List.take_succ_eq_append_getElem inside, List.map_append]
    rfl
  · intro report member
    rcases List.mem_append.mp member with old | new
    · obtain ⟨j, before, found, place, index⟩ := stage.earlier report old
      exact ⟨j, Nat.lt_succ_of_lt before, found, place, index⟩
    · refine ⟨k, Nat.lt_succ_self k, _, next, ?_⟩
      cases added : (addition weather config session events[k]).1 with
      | error failure => simp [added, reports] at new
      | ok root =>
          rw [added, reports, List.mem_singleton] at new
          rw [new]

/-- An event is reported exactly if `add_leaf` answered. -/
theorem reported_iff (consecutive : Consecutive events) (up : ∀ n, weather.database n = false)
    {k : Nat} {session : Session} (stage : Stage events k session) {found : Found}
    (next : events[k]? = some found) (root : Hex64) :
    (found.2.leafIndex.toInt64, root) ∈
        (indexEvent history weather config session found).reported ↔
      (addition weather config session found).1 = .ok root := by
  rw [index_event history weather config up session _ (stage_fresh consecutive stage next)]
  constructor
  · intro member
    rcases List.mem_append.mp member with old | new
    · obtain ⟨j, before, other, place, index⟩ := stage.earlier _ old
      have at' := index_apart consecutive place next index.symm
      omega
    · cases added : (addition weather config session found).1 with
      | error failure => simp [added, reports] at new
      | ok other =>
          rw [added, reports, List.mem_singleton] at new
          cases new
          rfl
  · intro added
    refine List.mem_append_right _ ?_
    rw [added]
    exact List.mem_cons_self

theorem index_event_tree (consecutive : Consecutive events)
    (up : ∀ n, weather.database n = false) {k : Nat} {session : Session}
    (stage : Stage events k session) {found : Found} (next : events[k]? = some found) :
    (indexEvent history weather config session found).backend.tree =
      (addition weather config session found).2 := by
  rw [index_event history weather config up session _ (stage_fresh consecutive stage next)]
  rfl

end Stages

/-! The tree after some of the events. -/
section Trees
variable {compress : Hex64 → Hex64 → Hex64} {history : List Entry} {weather : Weather}
  {config : Config} {events : List Found}

/-- An index other than the size is answered with the stored root. -/
theorem add_elsewhere (answers : HashService) (host : Host) {leafIndex : Nat}
    (other : leafIndex ≠ host.store.size.getD 0) (commitment : Hex64) (depth : Nat) :
    run (serveHost answers) (RedisTree.addLeaf leafIndex commitment depth) host =
      (.ok (host.store.root.getD emptyLeaf), host) := by
  have size : run (serveHost answers) RedisTree.getSize host = (.ok host.store.size, host) := rfl
  have root : run (serveHost answers) RedisTree.getRoot host = (.ok host.store.root, host) := rfl
  rw [RedisTree.addLeaf, run_bind_ok _ size]
  dsimp only
  rw [if_pos other, run_bind_ok _ root, run_pure]

/-- The first `k` leaves are in the tree, at `depth` hash requests each. -/
structure Grown (compress : Hex64 → Hex64 → Hex64) (depth : Nat) (events : List Found)
    (first k : Nat) (host : Host) : Prop where
  whole : Represents compress depth (leaves (events.take k)) host.store
  hashed : host.hashed = first + k * depth

/-- The service answers every hash request for the leaf of the `k`-th event. -/
def AnswersLeaf (compress : Hex64 → Hex64 → Hex64) (answers : HashService) (depth : Nat)
    (events : List Found) (first k : Nat) : Prop :=
  AnswersPath compress answers (leaves (events.take (k + 1))) k (first + k * depth) 0 depth

theorem leaves_next {k : Nat} {found : Found} (next : events[k]? = some found) :
    leaves (events.take (k + 1)) = leaves (events.take k) ++ [leafOf found] ∧
      (leaves (events.take k)).length = k := by
  obtain ⟨inside, rfl⟩ := List.getElem?_eq_some_iff.mp next
  constructor
  · rw [List.take_succ_eq_append_getElem inside, leaves, List.map_append]
    rfl
  · rw [leaves, List.length_map, List.length_take_of_le (Nat.le_of_lt inside)]

/-- The next leaf either joins the tree or leaves its size as it was. -/
theorem addition_cases (honest : Honest compress weather.answers)
    (consecutive : Consecutive events) {first k : Nat} {session : Session}
    (grown : Grown compress config.merkleTreeDepth events first k session.backend.tree)
    {found : Found} (next : events[k]? = some found) :
    ((∃ root, (addition weather config session found).1 = .ok root) ∧
        Grown compress config.merkleTreeDepth events first (k + 1)
          (addition weather config session found).2 ∧
        AnswersLeaf compress weather.answers config.merkleTreeDepth events first k) ∨
      ((∃ failure, (addition weather config session found).1 = .error failure) ∧
        (addition weather config session found).2.store.size.getD 0 = k ∧
        ¬ AnswersLeaf compress weather.answers config.merkleTreeDepth events first k) := by
  obtain ⟨longer, length⟩ := leaves_next next
  have ends := through_run (through_add honest
    (represents_torn grown.whole (leaves (events.take k) ++ [leafOf found])))
  have index : found.2.leafIndex.toNat = (leaves (events.take k)).length :=
    (consecutive k found next).trans length.symm
  rw [← index] at ends
  change AddEnds compress weather.answers config.merkleTreeDepth (leaves (events.take k))
    (leafOf found) session.backend.tree.hashed (addition weather config session found).1
    (addition weather config session found).2 at ends
  rw [AnswersLeaf, longer]
  rcases ends with ⟨done, whole, counted, answered⟩ | ⟨failed, torn, missed⟩
  · rw [length, grown.hashed] at answered
    refine Or.inl ⟨⟨_, done⟩, ⟨?_, ?_⟩, answered⟩
    · rwa [longer]
    · rw [counted, grown.hashed, Nat.succ_mul, Nat.add_assoc]
  · rw [length, grown.hashed] at missed
    exact Or.inr ⟨failed, torn.size.trans length, missed⟩

end Trees

/-! All the events, with any failures of the merkle service. -/
section Following
variable {compress : Hex64 → Hex64 → Hex64} (history : List Entry) {weather : Weather}
  (config : Config) {events : List Found} {start : Session}

/-- No deposit indexed yet, and the empty tree in Redis. -/
structure Ready (compress : Hex64 → Hex64 → Hex64) (depth : Nat) (start : Session) : Prop where
  rows : start.backend.tables.commitments.rows = []
  reported : start.reported = []
  tree : Represents compress depth [] start.backend.tree.store

/-- Whenever an event is reported, the tree is that of all commitments in the database so far. -/
def TreeFollows (compress : Hex64 → Hex64 → Hex64) (history : List Entry) (weather : Weather)
    (config : Config) (start : Session) (events : List Found) : Prop :=
  ∀ (k : Nat) (found : Found) (root : Hex64), events[k]? = some found →
    (found.2.leafIndex.toInt64, root) ∈
      (indexEvents history weather config start (events.take (k + 1))).reported →
    let after := (indexEvents history weather config start (events.take (k + 1))).backend
    after.tree.store.size = some (k + 1) ∧
      after.tree.store.root = some (MerkleTree.root compress emptyLeaf (dbLeaves after.tables)
        config.merkleTreeDepth)

theorem index_events_next {k : Nat} {found : Found} (next : events[k]? = some found) :
    indexEvents history weather config start (events.take (k + 1)) =
      indexEvent history weather config
        (indexEvents history weather config start (events.take k)) found := by
  obtain ⟨inside, rfl⟩ := List.getElem?_eq_some_iff.mp next
  rw [List.take_succ_eq_append_getElem inside, indexEvents, List.foldl_append]
  rfl

theorem index_events_stage (consecutive : Consecutive events)
    (up : ∀ n, weather.database n = false) {depth : Nat} (ready : Ready compress depth start)
    (k : Nat) (inside : k ≤ events.length) :
    Stage events k (indexEvents history weather config start (events.take k)) := by
  induction k with
  | zero =>
      constructor
      · rw [List.take_zero, indexEvents, List.foldl_nil, ready.rows]
        rfl
      · intro report member
        rw [List.take_zero, indexEvents, List.foldl_nil, ready.reported] at member
        cases member
  | succ k ih =>
      have next := List.getElem?_eq_getElem (Nat.lt_of_succ_le inside)
      rw [index_events_next history config next]
      exact stage_step history config consecutive up (ih (Nat.le_of_succ_le inside)) next

theorem ready_grown {depth : Nat} (ready : Ready compress depth start) (events : List Found) :
    Grown compress depth events start.backend.tree.hashed 0 start.backend.tree :=
  ⟨ready.tree, by rw [Nat.zero_mul, Nat.add_zero]⟩

/-- While the service answers for every leaf, the tree grows with the events. -/
theorem index_events_grown (honest : Honest compress weather.answers)
    (up : ∀ n, weather.database n = false) (ready : Ready compress config.merkleTreeDepth start)
    (consecutive : Consecutive events) (k : Nat) (inside : k ≤ events.length)
    (answered : ∀ j < k, AnswersLeaf compress weather.answers config.merkleTreeDepth events
      start.backend.tree.hashed j) :
    Grown compress config.merkleTreeDepth events start.backend.tree.hashed k
      (indexEvents history weather config start (events.take k)).backend.tree := by
  induction k with
  | zero => exact ready_grown ready events
  | succ k ih =>
      have next := List.getElem?_eq_getElem (Nat.lt_of_succ_le inside)
      have stage := index_events_stage history config consecutive up ready k
        (Nat.le_of_succ_le inside)
      have grown := ih (Nat.le_of_succ_le inside) fun j early => answered j (by omega)
      rw [index_events_next history config next,
        index_event_tree history config consecutive up stage next]
      rcases addition_cases honest consecutive grown next with ⟨_, more, _⟩ | ⟨_, _, missed⟩
      · exact more
      · exact absurd (answered k (Nat.lt_succ_self k)) missed

/-- A leaf that was not answered for makes the next report wrong. -/
theorem follows_answered (honest : Honest compress weather.answers)
    (up : ∀ n, weather.database n = false) (ready : Ready compress config.merkleTreeDepth start)
    (consecutive : Consecutive events)
    (follows : TreeFollows compress history weather config start events) (k : Nat)
    (inside : k + 1 < events.length) :
    AnswersLeaf compress weather.answers config.merkleTreeDepth events
      start.backend.tree.hashed k := by
  have stageAt := index_events_stage history config consecutive up ready
  -- the tree is whole up to `k` because every leaf before was answered for
  induction k using Nat.strongRecOn with
  | ind k earlier =>
      have next := List.getElem?_eq_getElem (Nat.lt_of_succ_lt inside)
      have later := List.getElem?_eq_getElem inside
      have grown := index_events_grown history config honest up ready consecutive k
        (by omega) fun j early => earlier j early (by omega)
      rcases addition_cases honest consecutive grown next with ⟨_, _, answered⟩ | ⟨_, size, _⟩
      · exact answered
      · -- the next event is answered with the old root and reported
        have stage := stageAt k (by omega)
        have stage' := stageAt (k + 1) (by omega)
        rw [← index_event_tree history config consecutive up stage next,
          ← index_events_next history config next] at size
        have index : events[k + 1].2.leafIndex.toNat = k + 1 := consecutive _ _ later
        have ahead' : events[k + 1].2.leafIndex.toNat ≠ (indexEvents history weather config start
            (events.take (k + 1))).backend.tree.store.size.getD 0 := by omega
        have elsewhere := add_elsewhere weather.answers _ ahead' (leafOf events[k + 1])
          config.merkleTreeDepth
        have reported := (reported_iff history config consecutive up stage' later _).mpr
          (congrArg Prod.fst elsewhere)
        rw [← index_events_next history config later] at reported
        have claimed := (follows (k + 1) _ _ later reported).1
        rw [index_events_next history config later,
          index_event_tree history config consecutive up stage' later, addition, elsewhere]
          at claimed
        rw [claimed, Option.getD_some] at size
        omega

theorem answered_follows (honest : Honest compress weather.answers)
    (up : ∀ n, weather.database n = false) (ready : Ready compress config.merkleTreeDepth start)
    (consecutive : Consecutive events)
    (answered : ∀ k, k + 1 < events.length → AnswersLeaf compress weather.answers
      config.merkleTreeDepth events start.backend.tree.hashed k) :
    TreeFollows compress history weather config start events := by
  have stageAt := index_events_stage history config consecutive up ready
  intro k found root next reported
  have inside := (List.getElem?_eq_some_iff.mp next).1
  have stage := stageAt k (Nat.le_of_lt inside)
  have grown := index_events_grown history config honest up ready consecutive k
    (Nat.le_of_lt inside) fun j early => answered j (by omega)
  have after := stageAt (k + 1) inside
  rw [index_events_next history config next] at reported after ⊢
  have added := (reported_iff history config consecutive up stage next root).mp reported
  rcases addition_cases honest consecutive grown next with ⟨_, more, _⟩ | ⟨⟨_, failed⟩, _⟩
  · rw [← index_event_tree history config consecutive up stage next] at more
    constructor
    · rw [more.whole.size, leaves, List.length_map, List.length_take_of_le inside]
    · rw [more.whole.root, stage_leaves after]
  · rw [added] at failed
    cases failed

/-- With any failures of the service the tree follows the database exactly if every
leaf but the last one is answered for. -/
theorem tree_follows_iff (compress : Hex64 → Hex64 → Hex64) (history : List Entry)
    (weather : Weather) (honest : Honest compress weather.answers)
    (up : ∀ n, weather.database n = false) (config : Config) (start : Session)
    (ready : Ready compress config.merkleTreeDepth start) (events : List Found)
    (consecutive : Consecutive events) :
    TreeFollows compress history weather config start events ↔
      ∀ k, k + 1 < events.length → AnswersLeaf compress weather.answers config.merkleTreeDepth
        events start.backend.tree.hashed k :=
  ⟨follows_answered history config honest up ready consecutive,
    answered_follows history config honest up ready consecutive⟩

/-- A merkle service that refuses some of its requests. -/
def refusing (fails : Nat → Bool) : HashService := fun n left right =>
  if fails n then .error "unavailable"
  else .ok (hashHex Poseidon2.poseidon2Permutation left right)

theorem refusing_honest (fails : Nat → Bool) :
    Honest (hashHex Poseidon2.poseidon2Permutation) (refusing fails) := by
  intro n left right
  rw [refusing]
  cases fails n with
  | true => exact Or.inl ⟨_, rfl⟩
  | false => exact Or.inr rfl

def refusingWeather (fails : Nat → Bool) : Weather :=
  { calmWeather with answers := refusing fails }

/-- The backend after a start on an empty database. -/
def initialised : Session :=
  ⟨⟨none, ⟨UniqueTable.empty, UniqueTable.empty⟩,
    ⟨RedisTree.reachedStore (hashHex Poseidon2.poseidon2Permutation) 20 emptyStore (rows []), 0⟩⟩,
    0, 0, [], []⟩

theorem initialised_ready : Ready (hashHex Poseidon2.poseidon2Permutation) 20 initialised :=
  ⟨rfl, rfl, built_whole _ 20 []⟩

def twoDeposits : List Found :=
  [("first", ⟨Vector.replicate 32 1, 0, 0, Vector.replicate 32 2⟩),
    ("second", ⟨Vector.replicate 32 3, 1, 0, Vector.replicate 32 4⟩)]

theorem two_consecutive : Consecutive twoDeposits := by
  intro k found next
  rcases k with _ | _ | k
  · cases next
    rfl
  · cases next
    rfl
  · cases next

/-- The service fails from its twentieth request on, behind the first leaf. -/
theorem second_refused_follows :
    TreeFollows (hashHex Poseidon2.poseidon2Permutation) []
        (refusingWeather fun n => decide (20 ≤ n)) ⟨10, 1, 20⟩ initialised twoDeposits ↔
      ∀ k, k + 1 < twoDeposits.length → AnswersLeaf (hashHex Poseidon2.poseidon2Permutation)
        (refusing fun n => decide (20 ≤ n)) 20 twoDeposits initialised.backend.tree.hashed k :=
  tree_follows_iff (hashHex Poseidon2.poseidon2Permutation) []
    (refusingWeather fun n => decide (20 ≤ n)) (refusing_honest _) (fun _ => rfl) ⟨10, 1, 20⟩
    initialised initialised_ready twoDeposits two_consecutive

/-- One refused request for the first leaf, and the second is reported on an empty tree. -/
theorem first_refused_stays_behind :
    ¬ TreeFollows (hashHex Poseidon2.poseidon2Permutation) []
      (refusingWeather fun n => decide (n = 0)) ⟨10, 1, 20⟩ initialised twoDeposits := by
  intro follows
  have answered := follows_answered [] ⟨10, 1, 20⟩ (refusing_honest _) (fun _ => rfl)
    initialised_ready two_consecutive follows 0 (by decide)
  obtain ⟨parent, refused⟩ := answered 0 (by decide)
  cases refused

end Following

end PrivateTransfer.Indexer
