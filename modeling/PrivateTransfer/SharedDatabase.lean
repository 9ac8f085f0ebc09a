import Mathlib.Logic.Function.Basic
import PrivateTransfer.Database

/-!
One database under the indexers of several pools. Each indexer takes its deposits one
after the other, first the check and then the insert; whose turn it is is up to the
schedule. The answers for a pool are compared with those of its own deposits alone.
-/

namespace PrivateTransfer.SharedDatabase

open Database

/-- What each pool's indexer still has to do. `waiting` is a deposit that was checked
and found missing and is not yet inserted. -/
structure Indexing where
  db : Db
  queue : String → List Deposit
  waiting : String → Option Deposit

/-- `commitment_exists` for the next deposit, or `save_deposit` for the one that waits. -/
def turn (state : Indexing) (poolAddress : String) : Indexing :=
  match state.waiting poolAddress with
  | some deposit =>
      { state with
        db := save poolAddress state.db deposit
        waiting := Function.update state.waiting poolAddress none }
  | none =>
      match state.queue poolAddress with
      | [] => state
      | deposit :: rest =>
          { state with
            queue := Function.update state.queue poolAddress rest
            waiting := Function.update state.waiting poolAddress
              (if commitmentExists state.db deposit.leafIndex then none else some deposit) }

def turns (schedule : List String) (state : Indexing) : Indexing := schedule.foldl turn state

def started (db : Db) (queue : String → List Deposit) : Indexing := ⟨db, queue, fun _ => none⟩

/-- What a pool still has to index. -/
def Indexing.remaining (state : Indexing) (poolAddress : String) : List Deposit :=
  (state.waiting poolAddress).toList ++ state.queue poolAddress

/-- Every deposit of the pool has been indexed. -/
def Indexing.Finished (state : Indexing) (poolAddress : String) : Prop :=
  state.remaining poolAddress = []

/-- The answers for a pool are those of its own deposits alone. -/
structure SameAnswers (poolAddress : String) (db alone : Db) : Prop where
  commitments : getCommitments db poolAddress = getCommitments alone poolAddress
  root : getLatestRoot db poolAddress = getLatestRoot alone poolAddress

/-- A turn of another pool takes no free leaf index that this one still has to index. -/
def Spares (poolAddress : String) (state : Indexing) (other : String) : Prop :=
  other ≠ poolAddress → ∀ deposit, state.waiting other = some deposit →
    commitmentExists state.db deposit.leafIndex = false →
    ∀ own ∈ state.remaining poolAddress, own.leafIndex ≠ deposit.leafIndex

/-- So do all turns of a schedule. -/
def Spared (poolAddress : String) : List String → Indexing → Prop
  | [], _ => True
  | other :: rest, state =>
      Spares poolAddress state other ∧ Spared poolAddress rest (turn state other)

/-! While the pool is spared, the shared database holds what its own run holds. -/
section Simulation
variable (poolAddress : String)

/-- Everything of the pool is as in `alone`, and nothing else hides what remains. -/
structure Agrees (state : Indexing) (alone : Db) : Prop where
  rows : ∀ row : CommitmentRow, row.poolAddress = poolAddress →
    (row ∈ state.db.commitments.rows ↔ row ∈ alone.commitments.rows)
  roots : (state.db.roots.contents.filter fun row => row.poolAddress == poolAddress) =
    alone.roots.contents.filter fun row => row.poolAddress == poolAddress
  free : ∀ deposit ∈ state.remaining poolAddress,
    commitmentExists state.db deposit.leafIndex = commitmentExists alone deposit.leafIndex
  waiting : ∀ deposit, state.waiting poolAddress = some deposit →
    commitmentExists alone deposit.leafIndex = false

variable {poolAddress} {state : Indexing} {alone : Db}

theorem agrees_started (db : Db) (queue : String → List Deposit) :
    Agrees poolAddress (started db queue) db :=
  ⟨fun _ _ => Iff.rfl, rfl, fun _ _ => rfl, nofun⟩

theorem agrees_answers (agrees : Agrees poolAddress state alone) :
    SameAnswers poolAddress state.db alone := by
  constructor
  · apply get_commitments_ext
    intro entry
    simp only [mem_get_commitments]
    constructor
    · rintro ⟨row, member, pool, keyed⟩
      exact ⟨row, (agrees.rows row pool).mp member, pool, keyed⟩
    · rintro ⟨row, member, pool, keyed⟩
      exact ⟨row, (agrees.rows row pool).mpr member, pool, keyed⟩
  · rw [getLatestRoot, getLatestRoot, SerialTable.latest_last, SerialTable.latest_last,
      agrees.roots]

/-- What another pool saves is not the pool's. -/
theorem save_other {other : String} (apart : other ≠ poolAddress) (db : Db) (deposit : Deposit) :
    (∀ row : CommitmentRow, row.poolAddress = poolAddress →
      (row ∈ (save other db deposit).commitments.rows ↔ row ∈ db.commitments.rows)) ∧
    ((save other db deposit).roots.contents.filter fun row => row.poolAddress == poolAddress) =
      db.roots.contents.filter fun row => row.poolAddress == poolAddress := by
  constructor
  · intro row pool
    rw [save_rows, or_iff_left]
    rintro ⟨rfl, _⟩
    exact apart pool
  · simp [save, saveDeposit, apart]

/-- What one turn does. -/
theorem turn_cases (state : Indexing) (pool : String) :
    (∃ deposit, state.waiting pool = some deposit ∧ turn state pool =
      { state with
        db := save pool state.db deposit
        waiting := Function.update state.waiting pool none }) ∨
    (state.waiting pool = none ∧ state.queue pool = [] ∧ turn state pool = state) ∨
    ∃ deposit rest, state.waiting pool = none ∧ state.queue pool = deposit :: rest ∧
      turn state pool =
        { state with
          queue := Function.update state.queue pool rest
          waiting := Function.update state.waiting pool
            (if commitmentExists state.db deposit.leafIndex then none else some deposit) } := by
  cases waits : state.waiting pool with
  | some deposit => exact Or.inl ⟨deposit, rfl, by simp only [turn, waits]⟩
  | none =>
      right
      cases queued : state.queue pool with
      | nil => exact Or.inl ⟨rfl, rfl, by simp only [turn, waits, queued]⟩
      | cons deposit rest =>
          exact Or.inr ⟨deposit, rest, rfl, rfl, by simp only [turn, waits, queued]⟩

/-- A turn of another pool leaves this one's business alone. -/
theorem turn_other {other : String} (apart : other ≠ poolAddress) :
    (turn state other).waiting poolAddress = state.waiting poolAddress ∧
      (turn state other).remaining poolAddress = state.remaining poolAddress := by
  have unmoved : ∀ {Value : Type} (held : String → Value) (value : Value),
      Function.update held other value poolAddress = held poolAddress :=
    fun held value => Function.update_of_ne apart.symm value held
  rcases turn_cases state other with ⟨_, _, same⟩ | ⟨_, _, same⟩ | ⟨_, _, _, _, same⟩
  · simp [same, Indexing.remaining, unmoved]
  · simp [same]
  · simp [same, Indexing.remaining, unmoved]

theorem agrees_other {other : String} (apart : other ≠ poolAddress)
    (agrees : Agrees poolAddress state alone) (spares : Spares poolAddress state other) :
    Agrees poolAddress (turn state other) alone := by
  obtain ⟨waiting, remaining⟩ := @turn_other poolAddress state other apart
  have kept : ∀ {db : Db}, (turn state other).db = db → db = state.db ∨
      (∃ deposit, state.waiting other = some deposit ∧ db = save other state.db deposit) := by
    intro db same
    rcases turn_cases state other with ⟨deposit, waits, after⟩ | ⟨_, _, after⟩ | ⟨_, _, _, _, after⟩
    · exact Or.inr ⟨deposit, waits, by rw [← same, after]⟩
    · exact Or.inl (by rw [← same, after])
    · exact Or.inl (by rw [← same, after])
  rcases kept rfl with same | ⟨deposit, waits, same⟩
  · constructor
    · rw [same]
      exact agrees.rows
    · rw [same]
      exact agrees.roots
    · rw [same, remaining]
      exact agrees.free
    · rw [waiting]
      exact agrees.waiting
  · obtain ⟨rows, roots⟩ := save_other apart state.db deposit
    constructor
    · intro row pool
      rw [same, rows row pool]
      exact agrees.rows row pool
    · rw [same, roots]
      exact agrees.roots
    · intro own left
      rw [remaining] at left
      rw [same, ← agrees.free own left, Bool.eq_iff_iff, save_exists, or_iff_left_iff_imp]
      -- an index that was free before is not one of this pool's
      rintro level
      by_contra absent
      rw [← level] at absent
      exact spares apart deposit waits (by simpa using absent) own left level.symm
    · rw [waiting]
      exact agrees.waiting

/-- A deposit that has passed its check is inserted on both sides. -/
theorem agrees_save (agrees : Agrees poolAddress state alone) {deposit : Deposit}
    (waits : state.waiting poolAddress = some deposit) :
    Agrees poolAddress
      { state with
        db := save poolAddress state.db deposit
        waiting := Function.update state.waiting poolAddress none }
      (save poolAddress alone deposit) := by
  have here : deposit ∈ state.remaining poolAddress := by simp [Indexing.remaining, waits]
  have absent := agrees.waiting deposit waits
  have shared : commitmentExists state.db deposit.leafIndex = false :=
    (agrees.free deposit here).trans absent
  constructor
  · intro row pool
    simp only [save_rows, agrees.rows row pool, absent, shared]
  · have roots := agrees.roots
    simp only [save, saveDeposit, SerialTable.contents_insert, List.filter_append]
    rw [roots]
  · intro own left
    have still : own ∈ state.remaining poolAddress := by
      simp [Indexing.remaining] at left
      simp [Indexing.remaining, left]
    rw [Bool.eq_iff_iff, save_exists, save_exists, agrees.free own still]
  · intro own still
    simp at still

/-- A check reads the same of the deposit's leaf index in both databases. -/
theorem agrees_check (agrees : Agrees poolAddress state alone) {deposit : Deposit}
    {rest : List Deposit} (waits : state.waiting poolAddress = none)
    (queued : state.queue poolAddress = deposit :: rest) :
    Agrees poolAddress
      { state with
        queue := Function.update state.queue poolAddress rest
        waiting := Function.update state.waiting poolAddress
          (if commitmentExists state.db deposit.leafIndex then none else some deposit) }
      alone := by
  have here : deposit ∈ state.remaining poolAddress := by
    simp [Indexing.remaining, waits, queued]
  have check := agrees.free deposit here
  constructor
  · exact agrees.rows
  · exact agrees.roots
  · intro own left
    apply agrees.free own
    cases known : commitmentExists state.db deposit.leafIndex
    · simpa [Indexing.remaining, waits, queued, known] using left
    · simp [Indexing.remaining, known] at left
      simp [Indexing.remaining, waits, queued, left]
  · intro own still
    cases known : commitmentExists state.db deposit.leafIndex
    · simp [known] at still
      rw [← still, ← check, known]
    · simp [known] at still

/-- A turn of the pool itself, beside its own run. -/
theorem agrees_own (agrees : Agrees poolAddress state alone) :
    ∃ next, Agrees poolAddress (turn state poolAddress) next ∧
      indexAll poolAddress ((turn state poolAddress).remaining poolAddress) next =
        indexAll poolAddress (state.remaining poolAddress) alone := by
  rcases turn_cases state poolAddress with
    ⟨deposit, waits, same⟩ | ⟨_, _, same⟩ | ⟨deposit, rest, waits, queued, same⟩
  · have absent := agrees.waiting deposit waits
    rw [same]
    refine ⟨save poolAddress alone deposit, agrees_save agrees waits, ?_⟩
    simp [Indexing.remaining, waits, indexAll, index_new poolAddress absent]
  · rw [same]
    exact ⟨alone, agrees, rfl⟩
  · have check := agrees.free deposit (by simp [Indexing.remaining, waits, queued])
    rw [same]
    refine ⟨alone, agrees_check agrees waits queued, ?_⟩
    cases known : commitmentExists state.db deposit.leafIndex
    · simp [Indexing.remaining, waits, queued]
    · rw [known] at check
      simp [Indexing.remaining, waits, queued, indexAll, index_known poolAddress check.symm]

/-- Rows are never taken out. -/
theorem turn_keeps (other : String) {row : CommitmentRow}
    (member : row ∈ state.db.commitments.rows) :
    row ∈ (turn state other).db.commitments.rows := by
  rcases turn_cases state other with ⟨deposit, _, same⟩ | ⟨_, _, same⟩ | ⟨_, _, _, _, same⟩
  · rw [same]
    exact (save_rows other state.db deposit row).mpr (Or.inl member)
  · rw [same]
    exact member
  · rw [same]
    exact member

theorem turns_keep (schedule : List String) {row : CommitmentRow}
    (member : row ∈ state.db.commitments.rows) :
    row ∈ (turns schedule state).db.commitments.rows := by
  induction schedule generalizing state with
  | nil => exact member
  | cons other rest ih => exact ih (turn_keeps other member)

/-- A free index taken by another pool is lost to this one, which alone would have had it. -/
theorem taken_differs {other : String} (agrees : Agrees poolAddress state alone)
    (taken : ¬ Spares poolAddress state other) (schedule : List String) :
    ¬ SameAnswers poolAddress (turns schedule (turn state other)).db
      (indexAll poolAddress (state.remaining poolAddress) alone) := by
  intro answers
  simp only [Spares, Classical.not_imp, not_forall, not_not] at taken
  obtain ⟨apart, deposit, waits, absent, own, left, level⟩ := taken
  have missing : ¬ commitmentExists alone own.leafIndex = true := by
    rw [← agrees.free own left, level, absent]
    exact Bool.false_ne_true
  -- alone, the pool's own row ends up there
  have present := (index_all_exists poolAddress (state.remaining poolAddress) alone
    own.leafIndex).mpr (Or.inr ⟨own, left, rfl⟩)
  obtain ⟨mine, member, keyed⟩ := (commitment_exists_iff _ _).mp present
  have pool : mine.poolAddress = poolAddress := by
    rcases index_all_rows poolAddress _ alone member with old | new
    · exact absurd ((commitment_exists_iff _ _).mpr ⟨mine, old, keyed⟩) missing
    · exact new
  have listed := (mem_get_commitments _ poolAddress (mine.leafIndex, mine.commitment)).mpr
    ⟨mine, member, pool, rfl, rfl⟩
  rw [← answers.commitments, mem_get_commitments] at listed
  obtain ⟨shared, held, owner, index, _⟩ := listed
  -- in the shared database the row of that index is the other pool's
  have inserted : deposit.row other ∈ (turn state other).db.commitments.rows := by
    have same : (turn state other).db = save other state.db deposit := by simp [turn, waits]
    rw [same, save_rows]
    exact Or.inr ⟨rfl, by simp [absent]⟩
  have single := UniqueTable.row_unique _ held (turns_keep schedule inserted)
    (index.trans (keyed.trans level))
  rw [single] at owner
  exact apart owner

theorem same_answers_iff (schedule : List String) (agrees : Agrees poolAddress state alone)
    (finished : (turns schedule state).Finished poolAddress) :
    SameAnswers poolAddress (turns schedule state).db
        (indexAll poolAddress (state.remaining poolAddress) alone) ↔
      Spared poolAddress schedule state := by
  induction schedule generalizing state alone with
  | nil =>
      have done : state.remaining poolAddress = [] := finished
      rw [done]
      exact iff_of_true (agrees_answers agrees) trivial
  | cons other rest ih =>
      by_cases spares : Spares poolAddress state other
      · have later : ∃ next, Agrees poolAddress (turn state other) next ∧
            indexAll poolAddress ((turn state other).remaining poolAddress) next =
              indexAll poolAddress (state.remaining poolAddress) alone := by
          by_cases same : other = poolAddress
          · subst same
            exact agrees_own agrees
          · refine ⟨alone, agrees_other same agrees spares, ?_⟩
            rw [(turn_other same).2]
        obtain ⟨next, agreed, whole⟩ := later
        have tail := ih agreed finished
        rw [whole] at tail
        exact tail.trans (and_iff_right spares).symm
      · exact iff_of_false (taken_differs agrees spares rest) fun spared => spares spared.1

/-- Once a pool's deposits are all indexed, its answers are those of a database of its own
exactly if no other pool took a leaf index it still had to index. -/
theorem pool_isolated_iff (db : Db) (queue : String → List Deposit) (poolAddress : String)
    (schedule : List String)
    (finished : (turns schedule (started db queue)).Finished poolAddress) :
    SameAnswers poolAddress (turns schedule (started db queue)).db
        (indexAll poolAddress (queue poolAddress) db) ↔
      Spared poolAddress schedule (started db queue) :=
  same_answers_iff schedule (agrees_started db queue) finished

end Simulation

/-! Two pools whose first deposits both have leaf index zero. -/
section Sample

def sampleQueue (poolAddress : String) : List Deposit :=
  if poolAddress = "A" then [⟨0, Bytes32.ofNat 1, Bytes32.ofNat 10, "first"⟩]
  else if poolAddress = "B" then [⟨0, Bytes32.ofNat 2, Bytes32.ofNat 20, "second"⟩]
  else []

/-- The later pool is first here. -/
theorem own_turns_isolated :
    SameAnswers "B" (turns ["B", "B", "A"] (started Db.empty sampleQueue)).db
        (indexAll "B" (sampleQueue "B") Db.empty) ↔
      Spared "B" ["B", "B", "A"] (started Db.empty sampleQueue) :=
  pool_isolated_iff Db.empty sampleQueue "B" ["B", "B", "A"] (List.isEmpty_iff.mp (by decide))

/-- The first deposit of `A` hides the first deposit of `B`. -/
theorem first_deposits_interfere :
    (turns ["A", "A", "B"] (started Db.empty sampleQueue)).Finished "B" ∧
      ¬ SameAnswers "B" (turns ["A", "A", "B"] (started Db.empty sampleQueue)).db
        (indexAll "B" (sampleQueue "B") Db.empty) := by
  constructor
  · exact List.isEmpty_iff.mp (by decide)
  · intro answers
    have roots := answers.root
    revert roots
    rw [getLatestRoot, getLatestRoot, SerialTable.latest_last, SerialTable.latest_last]
    decide

end Sample

end PrivateTransfer.SharedDatabase
