import PrivateTransfer.IndexerSpec

/-!
Runs of the indexer: the chain grows and ticks happen, in any order. The cursor
in Redis is one signature, so everything a tick leaves behind it is lost.
-/

namespace PrivateTransfer.Indexer

open EventLog MerkleService PoolState Script TreeRecovery

/-- The transactions that will ever mention the pool, in chain order. -/
structure Chain where
  entries : List Entry
  distinct : (entries.map Entry.signature).Nodup

def Chain.visible (chain : Chain) (count : Nat) : List Entry := chain.entries.take count

theorem visible_distinct (chain : Chain) (count : Nat) :
    ((chain.visible count).map Entry.signature).Nodup := by
  rw [Chain.visible, List.map_take]
  exact chain.distinct.sublist (List.take_sublist _ _)

inductive Step where
  | grow (count : Nat)
  | tick (weather : Weather)

/-- How much of the chain there is, the backend, and the transactions asked for so far. -/
structure State where
  visible : Nat
  backend : Backend
  processed : List Signature

section Running
variable (chain : Chain) (config : Config)

def step (state : State) : Step → State
  | .grow count => { state with visible := state.visible + count }
  | .tick weather =>
      let after := runTick (chain.visible state.visible) weather config state.backend
      { state with backend := after.backend, processed := state.processed ++ after.asked }

def runSteps (state : State) (steps : List Step) : State := steps.foldl (step chain config) state

/-- What the next tick has to catch up with. -/
def State.behind (state : State) (chain : Chain) : List Entry :=
  backlog state.backend.lastSignature (chain.visible state.visible)

theorem run_steps_snoc (state : State) (steps : List Step) (last : Step) :
    runSteps chain config state (steps ++ [last]) =
      step chain config (runSteps chain config state steps) last := by
  rw [runSteps, List.foldl_append]
  rfl

end Running

/-! The cursor stands right in front of the backlog. -/
section Cursor

/-- The history up to the cursor and the backlog behind it. -/
theorem backlog_split (last : Option Signature) (history : List Entry) :
    ∃ older, history = older ++ backlog last history ∧
      (older = [] ∨ ∃ entry, older.getLast? = some entry ∧ last = some entry.signature) := by
  refine ⟨(history.reverse.dropWhile fun entry => decide (last ≠ some entry.signature)).reverse,
    ?_, ?_⟩
  · rw [backlog, ← List.reverse_append, List.takeWhile_append_dropWhile, List.reverse_reverse]
  · cases rest : history.reverse.dropWhile fun entry => decide (last ≠ some entry.signature) with
    | nil => exact Or.inl rfl
    | cons entry others =>
        refine Or.inr ⟨entry, by rw [List.getLast?_reverse]; rfl, ?_⟩
        have met := List.head?_dropWhile_not
          (fun entry : Entry => decide (last ≠ some entry.signature)) history.reverse
        rw [rest] at met
        simpa using met

/-- A cursor in the history is the last of what the backlog leaves out. -/
theorem backlog_after {history older newer : List Entry} {entry : Entry}
    (distinct : (history.map Entry.signature).Nodup)
    (split : history = older ++ entry :: newer) :
    backlog (some entry.signature) history = newer := by
  subst split
  have apart : ∀ other ∈ newer, entry.signature ≠ other.signature := by
    rw [List.map_append, List.map_cons] at distinct
    have unique := (List.nodup_cons.mp (List.nodup_append.mp distinct).2.1).1
    intro other member same
    exact unique (List.mem_map.mpr ⟨other, member, same.symm⟩)
  have all : ∀ other ∈ newer.reverse,
      decide (some entry.signature ≠ some other.signature) = true := by
    intro other member
    simpa using apart other (List.mem_reverse.mp member)
  rw [backlog, List.reverse_append, List.reverse_cons, List.append_assoc,
    List.takeWhile_append_of_pos all, List.singleton_append,
    List.takeWhile_cons_of_neg (by simp), List.append_nil, List.reverse_reverse]

theorem backlog_unmet {history : List Entry} {last : Option Signature}
    (unmet : ∀ entry ∈ history, last ≠ some entry.signature) : backlog last history = history := by
  have all : ∀ entry ∈ history.reverse, decide (last ≠ some entry.signature) = true := by
    intro entry member
    simpa using unmet entry (List.mem_reverse.mp member)
  have every : (history.reverse ++ []).takeWhile
      (fun entry => decide (last ≠ some entry.signature)) = history.reverse ++ [] :=
    List.takeWhile_append_of_pos all
  rw [List.append_nil] at every
  rw [backlog, every, List.reverse_reverse]

/-- New transactions join the backlog, unless the cursor is among them. -/
theorem backlog_grows {last : Option Signature} {history new : List Entry}
    (past : ∀ entry ∈ new, last ≠ some entry.signature) :
    backlog last (history ++ new) = backlog last history ++ new := by
  have all : ∀ entry ∈ new.reverse, decide (last ≠ some entry.signature) = true := by
    intro entry member
    simpa using past entry (List.mem_reverse.mp member)
  rw [backlog, List.reverse_append, List.takeWhile_append_of_pos all, List.reverse_append,
    List.reverse_reverse]
  rfl

end Cursor

/-! Without any failure a tick gets through everything it has fetched. -/
section Calm

structure Calm (weather : Weather) : Prop where
  page : ∀ n, weather.page n = none
  transaction : ∀ signature, weather.transaction signature = none
  database : ∀ n, weather.database n = false

variable {weather : Weather}

theorem handle_calm (calm : Calm weather) (entry : Entry) (queries : Nat) (tables : Tables) :
    (handle weather entry queries tables).answered = true := by
  have saved : ∀ (payloads : List Payload) (queries : Nat) (tables : Tables),
      (savePayloads weather.database entry.signature payloads queries tables).answered = true := by
    intro payloads
    induction payloads with
    | nil => exact fun _ _ => rfl
    | cons payload rest ih =>
        intro queries tables
        have first : (savePayload weather.database entry.signature payload queries
            tables).answered = true := by
          rw [savePayload, calm.database, calm.database]
          cases tables.has payload <;> rfl
        rw [savePayloads, if_pos first]
        exact ih _ _
  rw [handle, calm.transaction]
  exact saved _ _ _

theorem handle_all_calm (calm : Calm weather) (batch : List Entry) (newest : Option Signature)
    (queries : Nat) (tables : Tables) :
    (handleAll weather batch newest queries tables).1 =
      (batch.getLast?.map Entry.signature).or newest := by
  induction batch generalizing newest queries tables with
  | nil => rfl
  | cons entry rest ih =>
      rw [handleAll, if_pos (handle_calm calm entry queries tables), ih]
      cases rest with
      | nil => rfl
      | cons next others =>
          rw [List.getLast?_cons_cons, List.getLast?_eq_some_getLast (by simp)]
          rfl

/-- A calm tick works through the newest transactions, as many as its pages hold. -/
theorem tick_calm (calm : Calm weather) {history : List Entry}
    (distinct : (history.map Entry.signature).Nodup) (config : Config) (backend : Backend) :
    Ticked history weather config backend config.indexerMaxPages
      (runTick history weather config backend) := by
  obtain ⟨j, within, ticked, reason⟩ := tick_runs weather distinct config backend
  have same : (backlog backend.lastSignature history).rtake (j * config.indexerPageSize) =
      (backlog backend.lastSignature history).rtake
        (config.indexerMaxPages * config.indexerPageSize) := by
    rcases reason with rfl | enough | ⟨fault, _⟩ | ⟨_, i, _, fault⟩
    · rfl
    · have more := Nat.mul_le_mul_right config.indexerPageSize within
      rw [List.rtake, List.rtake, Nat.sub_eq_zero_of_le enough,
        Nat.sub_eq_zero_of_le (Nat.le_trans enough more)]
    · rw [calm.page] at fault
      cases fault
    · rw [calm.page] at fault
      cases fault
  constructor
  · rw [← same]
    exact ticked.tables
  · rw [← same]
    exact ticked.cursor
  · rw [← same]
    exact ticked.asked

end Calm

/-! Backlogs. Each tick takes the newest transactions and moves the cursor to
the newest of all, so a backlog longer than its pages is cut at the old end. -/
section Backlogs
variable {chain : Chain} {config : Config}

/-- Nothing has been processed yet, and the cursor, if any, is not from the future. -/
structure Start (chain : Chain) (state : State) : Prop where
  fresh : state.processed = []
  past : ∀ entry ∈ chain.entries.drop state.visible,
    state.backend.lastSignature ≠ some entry.signature

/-- What was newer than the first cursor is processed once and in order, up to the cursor. -/
def InOrder (chain : Chain) (start state : State) : Prop :=
  (backlog start.backend.lastSignature (chain.visible state.visible)).map Entry.signature =
    state.processed ++ (state.behind chain).map Entry.signature

structure KeepsUp (chain : Chain) (config : Config) (start : State) (steps : List Step) : Prop where
  order : ∀ n, InOrder chain start (runSteps chain config start (steps.take n))
  caught : ∀ n weather, steps[n]? = some (.tick weather) →
    (runSteps chain config start (steps.take (n + 1))).behind chain = []

/-- No tick starts with more behind it than its pages hold. -/
def WithinPages (chain : Chain) (config : Config) (start : State) (steps : List Step) : Prop :=
  ∀ n weather, steps[n]? = some (.tick weather) →
    ((runSteps chain config start (steps.take n)).behind chain).length ≤
      config.indexerMaxPages * config.indexerPageSize

/-- A calm tick leaves nothing behind it and may have passed the oldest over. -/
theorem calm_step (chain : Chain) {weather : Weather} (calm : Calm weather)
    (room : 0 < config.indexerMaxPages * config.indexerPageSize) (state : State) :
    (step chain config state (.tick weather)).behind chain = [] ∧
      (step chain config state (.tick weather)).processed = state.processed ++
        ((state.behind chain).rtake (config.indexerMaxPages * config.indexerPageSize)).map
          Entry.signature ∧
      ((step chain config state (.tick weather)).backend.lastSignature =
          state.backend.lastSignature ∨
        ∃ entry ∈ chain.visible state.visible,
          (step chain config state (.tick weather)).backend.lastSignature =
            some entry.signature) := by
  have distinct := visible_distinct chain state.visible
  have ticked := tick_calm calm distinct config state.backend
  have cursor := ticked.cursor
  rw [handle_all_calm calm, Option.or_none] at cursor
  obtain ⟨older, split, _⟩ := backlog_split state.backend.lastSignature
    (chain.visible state.visible)
  have taken : (step chain config state (.tick weather)).processed = state.processed ++
      ((state.behind chain).rtake (config.indexerMaxPages * config.indexerPageSize)).map
        Entry.signature := congrArg _ ticked.asked
  rcases List.eq_nil_or_concat (backlog state.backend.lastSignature (chain.visible state.visible))
    with none' | ⟨front, entry, some'⟩
  · rw [none', List.rtake_nil] at cursor
    refine ⟨?_, taken, Or.inl cursor⟩
    exact (congrArg (backlog · (chain.visible state.visible)) cursor).trans none'
  · -- the newest transaction of all is in the batch, so the cursor moves there
    obtain ⟨more, positive⟩ := Nat.exists_eq_succ_of_ne_zero (Nat.ne_of_gt room)
    rw [List.concat_eq_append] at some'
    rw [some', positive, List.rtake_concat_succ, List.getLast?_concat] at cursor
    rw [some', ← List.append_assoc] at split
    have newest : (step chain config state (.tick weather)).backend.lastSignature =
        some entry.signature := cursor
    refine ⟨?_, taken, Or.inr ⟨entry, ?_, newest⟩⟩
    · rw [State.behind, newest]
      exact backlog_after distinct split
    · rw [split]
      exact List.mem_append_right _ List.mem_cons_self

/-- What the runs keep, whatever the backlogs. -/
structure Past (chain : Chain) (start state : State) : Prop where
  now : ∀ entry ∈ chain.entries.drop state.visible,
    state.backend.lastSignature ≠ some entry.signature
  before : ∀ entry ∈ chain.entries.drop state.visible,
    start.backend.lastSignature ≠ some entry.signature

theorem visible_apart (chain : Chain) {count : Nat} {entry other : Entry}
    (seen : entry ∈ chain.visible count) (unseen : other ∈ chain.entries.drop count) :
    entry.signature ≠ other.signature := by
  have distinct := chain.distinct
  rw [← List.take_append_drop count chain.entries, List.map_append, List.nodup_append] at distinct
  exact distinct.2.2 _ (List.mem_map_of_mem seen) _ (List.mem_map_of_mem unseen)

theorem visible_grow (chain : Chain) (count more : Nat) :
    chain.visible (count + more) =
      chain.visible count ++ (chain.entries.drop count).take more := List.take_add

theorem grow_step {start state : State} (past : Past chain start state) (count : Nat) :
    Past chain start (step chain config state (.grow count)) ∧
      (InOrder chain start state →
        InOrder chain start (step chain config state (.grow count))) := by
  have joined : ∀ entry ∈ (chain.entries.drop state.visible).take count,
      entry ∈ chain.entries.drop state.visible := fun entry => List.mem_of_mem_take
  have fewer : ∀ entry ∈ chain.entries.drop (state.visible + count),
      entry ∈ chain.entries.drop state.visible := by
    intro entry later
    rw [← List.drop_drop] at later
    exact List.mem_of_mem_drop later
  constructor
  · exact ⟨fun entry later => past.now entry (fewer entry later),
      fun entry later => past.before entry (fewer entry later)⟩
  · intro order
    rw [InOrder, State.behind] at order ⊢
    change (backlog start.backend.lastSignature (chain.visible (state.visible + count))).map _ =
      state.processed ++
        (backlog state.backend.lastSignature (chain.visible (state.visible + count))).map _
    rw [visible_grow, backlog_grows fun entry new => past.before entry (joined entry new),
      backlog_grows fun entry new => past.now entry (joined entry new), List.map_append,
      List.map_append, order, List.append_assoc]

theorem tick_past {weather : Weather} (calm : Calm weather)
    (room : 0 < config.indexerMaxPages * config.indexerPageSize) {start state : State}
    (past : Past chain start state) :
    Past chain start (step chain config state (.tick weather)) := by
  obtain ⟨_, _, same | ⟨entry, seen, newest⟩⟩ := calm_step chain calm room state
  · exact ⟨fun other later => same ▸ past.now other later, past.before⟩
  · refine ⟨?_, past.before⟩
    intro other later
    rw [newest]
    intro equal
    exact visible_apart chain seen later (Option.some.inj equal)

/-- After a calm tick the order is kept exactly if the whole backlog fitted. -/
theorem tick_order_iff {weather : Weather} (calm : Calm weather)
    (room : 0 < config.indexerMaxPages * config.indexerPageSize) {start state : State}
    (order : InOrder chain start state) :
    InOrder chain start (step chain config state (.tick weather)) ↔
      (state.behind chain).length ≤ config.indexerMaxPages * config.indexerPageSize := by
  obtain ⟨nothing, taken, _⟩ := calm_step chain calm room state
  have target : InOrder chain start (step chain config state (.tick weather)) ↔
      (state.behind chain).map Entry.signature =
        ((state.behind chain).rtake (config.indexerMaxPages * config.indexerPageSize)).map
          Entry.signature := by
    rw [InOrder, nothing, taken, List.map_nil, List.append_nil]
    change (backlog start.backend.lastSignature (chain.visible state.visible)).map _ = _ ↔ _
    rw [order, List.append_cancel_left_eq]
  rw [target]
  constructor
  · intro same
    have length := congrArg List.length same
    rw [List.length_map, List.length_map, List.rtake, List.length_drop] at length
    omega
  · intro fits
    rw [List.rtake, Nat.sub_eq_zero_of_le fits, List.drop_zero]

theorem steps_take_succ {steps : List Step} {n : Nat} {last : Step} (found : steps[n]? = some last)
    (start : State) :
    runSteps chain config start (steps.take (n + 1)) =
      step chain config (runSteps chain config start (steps.take n)) last := by
  obtain ⟨inside, rfl⟩ := List.getElem?_eq_some_iff.mp found
  rw [List.take_succ_eq_append_getElem inside, run_steps_snoc]

/-- What every step of a run keeps holds of all its states. -/
theorem steps_invariant {start : State} {steps : List Step} {holds : State → Prop}
    (begins : holds start)
    (keeps : ∀ n last, steps[n]? = some last →
      holds (runSteps chain config start (steps.take n)) →
      holds (step chain config (runSteps chain config start (steps.take n)) last)) (n : Nat) :
    holds (runSteps chain config start (steps.take n)) := by
  induction n with
  | zero => exact begins
  | succ n ih =>
      cases found : steps[n]? with
      | none =>
          have past := List.getElem?_eq_none_iff.mp found
          rwa [List.take_of_length_le (Nat.le_succ_of_le past), ← List.take_of_length_le past]
      | some last =>
          rw [steps_take_succ found]
          exact keeps n last found ih

theorem steps_past {start : State} (starts : Start chain start) {steps : List Step}
    (calm : ∀ weather, Step.tick weather ∈ steps → Calm weather)
    (room : 0 < config.indexerMaxPages * config.indexerPageSize) :
    Past chain start (runSteps chain config start steps) := by
  induction steps using List.reverseRecOn with
  | nil => exact ⟨starts.past, starts.past⟩
  | append_singleton steps last ih =>
      have before := ih fun weather member => calm weather (List.mem_append_left _ member)
      rw [run_steps_snoc]
      cases last with
      | grow count => exact (grow_step before count).1
      | tick weather =>
          exact tick_past (calm weather (List.mem_append_right _ List.mem_cons_self)) room before

/-- Calm runs keep up exactly if no tick starts with more behind it than its pages
hold. A longer backlog loses its oldest transactions. -/
theorem keeps_up_iff (chain : Chain) (config : Config) (pageSize : 0 < config.indexerPageSize)
    (maxPages : 0 < config.indexerMaxPages) (start : State) (starts : Start chain start)
    (steps : List Step) (calm : ∀ weather, Step.tick weather ∈ steps → Calm weather) :
    KeepsUp chain config start steps ↔ WithinPages chain config start steps := by
  have room : 0 < config.indexerMaxPages * config.indexerPageSize := Nat.mul_pos maxPages pageSize
  have calmAt : ∀ (n : Nat) weather, steps[n]? = some (Step.tick weather) → Calm weather :=
    fun n weather found => calm weather (List.mem_of_getElem? found)
  constructor
  · -- the order after a tick leaves room for no more than its pages hold
    intro keeps n weather found
    have after := keeps.order (n + 1)
    rw [steps_take_succ found] at after
    exact (tick_order_iff (calmAt n weather found) room (keeps.order n)).mp after
  · intro within
    constructor
    · refine steps_invariant ?_ ?_
      · change _ = start.processed ++ _
        rw [starts.fresh]
        rfl
      · intro n last found inOrder
        cases last with
        | grow count =>
            have early : ∀ weather, Step.tick weather ∈ steps.take n → Calm weather :=
              fun weather member => calm weather (List.mem_of_mem_take member)
            exact (grow_step (steps_past starts early room) count).2 inOrder
        | tick weather =>
            exact (tick_order_iff (calmAt n weather found) room inOrder).mpr
              (within n weather found)
    · intro n weather found
      rw [steps_take_succ found]
      exact (calm_step chain (calmAt n weather found) room _).1

def calmWeather : Weather where
  page := fun _ => none
  transaction := fun _ => none
  database := fun _ => false
  answers := fun _ left right => .ok (hashHex Poseidon2.poseidon2Permutation left right)

theorem calm_weather : Calm calmWeather := ⟨fun _ => rfl, fun _ => rfl, fun _ => rfl⟩

def freshBackend : Backend :=
  ⟨none, ⟨UniqueTable.empty, UniqueTable.empty⟩, ⟨emptyStore, 0⟩⟩

/-- Two transactions of the pool, without any log. -/
def twoTransactions : Chain where
  entries := [⟨"older", true, []⟩, ⟨"newer", true, []⟩]
  distinct := by decide

/-- Both transactions are there at the first tick. -/
def bothVisible : State := ⟨2, freshBackend, []⟩

theorem both_start : Start twoTransactions bothVisible :=
  ⟨rfl, fun _ later => absurd later List.not_mem_nil⟩

theorem both_behind : (bothVisible.behind twoTransactions).length = 2 := by
  have unmet : ∀ entry ∈ twoTransactions.visible 2, (none : Option Signature) ≠
      some entry.signature := fun _ _ => nofun
  exact congrArg List.length (backlog_unmet unmet)

theorem keeps_up_two :
    KeepsUp twoTransactions ⟨1, 2, 20⟩ bothVisible [.tick calmWeather] ↔
      WithinPages twoTransactions ⟨1, 2, 20⟩ bothVisible [.tick calmWeather] :=
  keeps_up_iff twoTransactions ⟨1, 2, 20⟩ (by decide) (by decide) bothVisible both_start
    [.tick calmWeather] fun weather member => by
      rw [List.mem_singleton, Step.tick.injEq] at member
      rw [member]
      exact calm_weather

/-- With one page of one signature the older of the two is never asked for. -/
theorem backlog_lost :
    ¬ KeepsUp twoTransactions ⟨1, 1, 20⟩ bothVisible [.tick calmWeather] := by
  intro keeps
  have before : InOrder twoTransactions bothVisible bothVisible := keeps.order 0
  have after : InOrder twoTransactions bothVisible
      (step twoTransactions ⟨1, 1, 20⟩ bothVisible (.tick calmWeather)) := keeps.order 1
  have fits := (tick_order_iff calm_weather (by decide) before).mp after
  rw [both_behind] at fits
  exact absurd fits (by decide)

end Backlogs

end PrivateTransfer.Indexer
