import PrivateTransfer.IndexerRuns

/-!
Failures in the middle of a tick. A transaction that fails is passed over and
the cursor moves to the newest one that did not, so what failed is tried again
only if nothing after it got through in the same tick.
-/

namespace PrivateTransfer.Indexer

open EventLog MerkleService PoolState Script TreeRecovery

section Recording

/-- The event has its row: a deposit its own commitment, a withdrawal its nullifier. -/
def Recorded (tables : Tables) : Event → Prop
  | .deposit event => ∃ row ∈ tables.commitments.rows,
      row.leafIndex = event.leafIndex.toInt64 ∧ row.commitment = event.commitment
  | .withdraw event => ∃ row ∈ tables.nullifiers.rows, row.nullifierHash = event.nullifierHash

/-- Rows stay. -/
structure Tables.Grows (before after : Tables) : Prop where
  commitments : ∀ row ∈ before.commitments.rows, row ∈ after.commitments.rows
  nullifiers : ∀ row ∈ before.nullifiers.rows, row ∈ after.nullifiers.rows

theorem grows_refl (tables : Tables) : tables.Grows tables := ⟨fun _ => id, fun _ => id⟩

theorem grows_trans {first second third : Tables} (early : first.Grows second)
    (late : second.Grows third) : first.Grows third :=
  ⟨fun row kept => late.commitments row (early.commitments row kept),
    fun row kept => late.nullifiers row (early.nullifiers row kept)⟩

theorem recorded_grows {before after : Tables} (grows : before.Grows after) {event : Event}
    (recorded : Recorded before event) : Recorded after event := by
  cases event with
  | deposit event =>
      obtain ⟨row, kept, same⟩ := recorded
      exact ⟨row, grows.commitments row kept, same⟩
  | withdraw event =>
      obtain ⟨row, kept, same⟩ := recorded
      exact ⟨row, grows.nullifiers row kept, same⟩

theorem record_grows (tables : Tables) (txSignature : Signature) (payload : Payload) :
    tables.Grows (tables.record txSignature payload) := by
  cases payload with
  | deposit leafIndex commitment newRoot =>
      exact ⟨fun row kept => (UniqueTable.insert_grows _ _).subset kept, fun _ => id⟩
  | withdraw nullifierHash recipient =>
      exact ⟨fun _ => id, fun row kept => (UniqueTable.insert_grows _ _).subset kept⟩

theorem has_record (tables : Tables) (txSignature : Signature) (payload : Payload) :
    (tables.record txSignature payload).has payload = true := by
  cases payload with
  | deposit leafIndex commitment newRoot => exact UniqueTable.has_insert _ _
  | withdraw nullifierHash recipient => exact UniqueTable.has_insert _ _

/-- No row takes the leaf index for another commitment. -/
def Agrees (tables : Tables) (deposit : DepositEvent) : Prop :=
  ∀ row ∈ tables.commitments.rows, row.leafIndex = deposit.leafIndex.toInt64 →
    row.commitment = deposit.commitment

/-- No payload takes the leaf index for another commitment. -/
def Unclaimed (payloads : List Payload) (deposit : DepositEvent) : Prop :=
  ∀ commitment newRoot, .deposit deposit.leafIndex.toInt64 commitment newRoot ∈ payloads →
    commitment = deposit.commitment

theorem recorded_deposit {tables : Tables} {deposit : DepositEvent}
    (agrees : Agrees tables deposit)
    (present : tables.has (.ofEvent (.deposit deposit)) = true) :
    Recorded tables (.deposit deposit) := by
  obtain ⟨row, kept, same⟩ := (UniqueTable.has_iff _ _).mp present
  exact ⟨row, kept, same, agrees row kept same⟩

theorem recorded_withdraw {tables : Tables} {withdraw : WithdrawEvent}
    (present : tables.has (.ofEvent (.withdraw withdraw)) = true) :
    Recorded tables (.withdraw withdraw) := (UniqueTable.has_iff _ _).mp present

end Recording

/-! One transaction: rows are only added, and one that was read leaves a row for
each of its events. -/
section Reading
variable {down : Nat → Bool} {txSignature : Signature}

theorem save_payload_cases (down : Nat → Bool) (txSignature : Signature) (payload : Payload)
    (queries : Nat) (tables : Tables) :
    ((savePayload down txSignature payload queries tables).tables = tables ∧
        ((savePayload down txSignature payload queries tables).answered = true →
          tables.has payload = true)) ∨
      (savePayload down txSignature payload queries tables).tables =
        tables.record txSignature payload ∧ tables.has payload ≠ true := by
  rw [savePayload]
  cases down queries with
  | true => exact Or.inl ⟨rfl, fun answered => absurd answered Bool.false_ne_true⟩
  | false =>
      by_cases known : tables.has payload = true
      · rw [if_neg Bool.false_ne_true, if_pos known]
        exact Or.inl ⟨rfl, fun _ => known⟩
      · rw [if_neg Bool.false_ne_true, if_neg known]
        cases down (queries + 1) with
        | true => exact Or.inl ⟨rfl, fun answered => absurd answered Bool.false_ne_true⟩
        | false => exact Or.inr ⟨rfl, known⟩

theorem save_payload_grows (down : Nat → Bool) (txSignature : Signature) (payload : Payload)
    (queries : Nat) (tables : Tables) :
    tables.Grows (savePayload down txSignature payload queries tables).tables := by
  rcases save_payload_cases down txSignature payload queries tables with ⟨same, _⟩ | ⟨new, _⟩
  · rw [same]
    exact grows_refl tables
  · rw [new]
    exact record_grows tables txSignature payload

theorem save_payload_has {payload : Payload} {queries : Nat} {tables : Tables}
    (answered : (savePayload down txSignature payload queries tables).answered = true) :
    (savePayload down txSignature payload queries tables).tables.has payload = true := by
  rcases save_payload_cases down txSignature payload queries tables with ⟨same, known⟩ | ⟨new, _⟩
  · rw [same]
    exact known answered
  · rw [new]
    exact has_record tables txSignature payload

theorem record_agrees {tables : Tables} {payload : Payload} {deposit : DepositEvent}
    (agrees : Agrees tables deposit) (unclaimed : Unclaimed [payload] deposit) :
    Agrees (tables.record txSignature payload) deposit := by
  cases payload with
  | withdraw nullifierHash recipient => exact agrees
  | deposit leafIndex commitment newRoot =>
      intro row kept same
      rcases (UniqueTable.mem_insert_iff _ _ _).mp kept with old | ⟨rfl, _⟩
      · exact agrees row old same
      · cases same
        exact unclaimed commitment newRoot List.mem_cons_self

theorem save_payload_agrees (down : Nat → Bool) (txSignature : Signature) {payload : Payload}
    {deposit : DepositEvent} {tables : Tables} (agrees : Agrees tables deposit)
    (unclaimed : Unclaimed [payload] deposit) (queries : Nat) :
    Agrees (savePayload down txSignature payload queries tables).tables deposit := by
  rcases save_payload_cases down txSignature payload queries tables with ⟨same, _⟩ | ⟨new, _⟩
  · rwa [same]
  · rw [new]
    exact record_agrees agrees unclaimed

theorem save_payloads_append (first second : List Payload) (queries : Nat) (tables : Tables) :
    savePayloads down txSignature (first ++ second) queries tables =
      if (savePayloads down txSignature first queries tables).answered then
        savePayloads down txSignature second
          (savePayloads down txSignature first queries tables).queries
          (savePayloads down txSignature first queries tables).tables
      else savePayloads down txSignature first queries tables := by
  induction first generalizing queries tables with
  | nil => rfl
  | cons payload rest ih =>
      rw [List.cons_append, savePayloads, savePayloads]
      cases answered : (savePayload down txSignature payload queries tables).answered with
      | true => exact ih _ _
      | false => simp [answered]

theorem save_payloads_grows (payloads : List Payload) (queries : Nat) (tables : Tables) :
    tables.Grows (savePayloads down txSignature payloads queries tables).tables := by
  induction payloads generalizing queries tables with
  | nil => exact grows_refl tables
  | cons payload rest ih =>
      have first := save_payload_grows down txSignature payload queries tables
      rw [savePayloads]
      cases (savePayload down txSignature payload queries tables).answered with
      | true => exact grows_trans first (ih _ _)
      | false => exact first

theorem unclaimed_append (first second : List Payload) {deposit : DepositEvent} :
    Unclaimed (first ++ second) deposit ↔ Unclaimed first deposit ∧ Unclaimed second deposit := by
  constructor
  · intro unclaimed
    exact ⟨fun commitment newRoot member => unclaimed commitment newRoot
        (List.mem_append_left _ member),
      fun commitment newRoot member => unclaimed commitment newRoot
        (List.mem_append_right _ member)⟩
  · rintro ⟨early, late⟩ commitment newRoot member
    rcases List.mem_append.mp member with inside | inside
    · exact early commitment newRoot inside
    · exact late commitment newRoot inside

theorem save_payloads_agrees {payloads : List Payload} {deposit : DepositEvent} {tables : Tables}
    (agrees : Agrees tables deposit) (unclaimed : Unclaimed payloads deposit) (queries : Nat) :
    Agrees (savePayloads down txSignature payloads queries tables).tables deposit := by
  induction payloads generalizing queries tables with
  | nil => exact agrees
  | cons payload rest ih =>
      obtain ⟨here, others⟩ := (unclaimed_append [payload] rest).mp unclaimed
      have first := save_payload_agrees down txSignature agrees here queries
      rw [savePayloads]
      cases (savePayload down txSignature payload queries tables).answered with
      | true => exact ih first others _
      | false => exact first

/-- A payload in the middle of the log has its row when the whole log was got through. -/
theorem save_payloads_has {first second : List Payload} {payload : Payload} {queries : Nat}
    {tables : Tables}
    (answered : (savePayloads down txSignature (first ++ payload :: second) queries
      tables).answered = true) :
    ∃ reached, (savePayload down txSignature payload reached
          (savePayloads down txSignature first queries tables).tables).answered = true ∧
      (savePayload down txSignature payload reached
          (savePayloads down txSignature first queries tables).tables).tables.Grows
        (savePayloads down txSignature (first ++ payload :: second) queries tables).tables := by
  rw [save_payloads_append] at answered ⊢
  cases front : (savePayloads down txSignature first queries tables).answered with
  | false =>
      rw [front, if_neg Bool.false_ne_true, front] at answered
      cases answered
  | true =>
      rw [front, if_pos rfl, savePayloads] at answered
      rw [if_pos rfl, savePayloads]
      refine ⟨(savePayloads down txSignature first queries tables).queries, ?_⟩
      cases here : (savePayload down txSignature payload
          (savePayloads down txSignature first queries tables).queries
          (savePayloads down txSignature first queries tables).tables).answered with
      | false =>
          rw [here, if_neg Bool.false_ne_true, here] at answered
          cases answered
      | true => exact ⟨rfl, save_payloads_grows _ _ _⟩

variable {weather : Weather}

theorem handle_grows (entry : Entry) (queries : Nat) (tables : Tables) :
    tables.Grows (handle weather entry queries tables).tables := by
  rw [handle]
  cases weather.transaction entry.signature with
  | none => exact save_payloads_grows _ _ _
  | some fault => cases fault <;> exact grows_refl tables

theorem handle_agrees {entry : Entry} {deposit : DepositEvent} {tables : Tables}
    (agrees : Agrees tables deposit) (unclaimed : Unclaimed entry.payloads deposit)
    (queries : Nat) : Agrees (handle weather entry queries tables).tables deposit := by
  rw [handle]
  cases weather.transaction entry.signature with
  | none => exact save_payloads_agrees agrees unclaimed queries
  | some fault => cases fault <;> exact agrees

theorem handle_all_grows (batch : List Entry) (newest : Option Signature) (queries : Nat)
    (tables : Tables) : tables.Grows (handleAll weather batch newest queries tables).2 := by
  induction batch generalizing newest queries tables with
  | nil => exact grows_refl tables
  | cons entry rest ih => exact grows_trans (handle_grows entry queries tables) (ih _ _ _)

/-- The payloads ahead of a line of the log. -/
def ahead (lines : List LogLine) : List Payload := lines.filterMap fun line => parseLog line.text

theorem payloads_split {entry : Entry} {lines rest : List LogLine} {event : Event}
    (split : entry.logs = lines ++ .emitted event :: rest) :
    entry.payloads = ahead lines ++ .ofEvent event :: ahead rest := by
  have here : parseLog (LogLine.emitted event).text = some (.ofEvent event) := parse_event event
  rw [Entry.payloads, split, List.filterMap_append, List.filterMap_cons, here]
  rfl

/-- A transaction that was read leaves a row for each event whose leaf index was free. -/
theorem handle_records {entry : Entry} {lines rest : List LogLine} {event : Event}
    (split : entry.logs = lines ++ .emitted event :: rest) {queries : Nat} {tables : Tables}
    (fetched : weather.transaction entry.signature = none)
    (answered : (handle weather entry queries tables).answered = true)
    (free : ∀ deposit, event = .deposit deposit →
      Agrees tables deposit ∧ Unclaimed (ahead lines) deposit) :
    Recorded (handle weather entry queries tables).tables event := by
  rw [handle, fetched] at answered ⊢
  dsimp only at answered ⊢
  rw [payloads_split split] at answered ⊢
  obtain ⟨reached, saved, grows⟩ := save_payloads_has answered
  refine recorded_grows grows ?_
  have present := save_payload_has saved
  cases event with
  | withdraw withdraw => exact recorded_withdraw present
  | deposit deposit =>
      obtain ⟨agrees, unclaimed⟩ := free deposit rfl
      refine recorded_deposit
        (save_payload_agrees _ _ (save_payloads_agrees agrees unclaimed _) ?_ _) present
      -- the event's own payload claims the leaf index for the event's commitment
      intro commitment newRoot member
      cases List.mem_singleton.mp member
      rfl

end Reading

/-! One batch: what a tick got through, and which of it the new cursor stands for. -/
section Batches
variable {weather : Weather}

/-- The transactions of a batch, each with whether processing it succeeded. -/
def outcomes (weather : Weather) : List Entry → (queries : Nat) → Tables → List (Entry × Bool)
  | [], _, _ => []
  | entry :: rest, queries, tables =>
      let handled := handle weather entry queries tables
      (entry, handled.answered) :: outcomes weather rest handled.queries handled.tables

theorem outcomes_entries (weather : Weather) (batch : List Entry) (queries : Nat)
    (tables : Tables) :
    (outcomes weather batch queries tables).map Prod.fst = batch := by
  induction batch generalizing queries tables with
  | nil => rfl
  | cons entry rest ih => exact congrArg (entry :: ·) (ih _ _)

/-- The cursor moves to a transaction that succeeded, or not at all. -/
theorem handle_all_newest (weather : Weather) (batch : List Entry) (newest : Option Signature)
    (queries : Nat) (tables : Tables) :
    (handleAll weather batch newest queries tables).1 = newest ∨
      ∃ front entry back,
        outcomes weather batch queries tables = front ++ (entry, true) :: back ∧
        (handleAll weather batch newest queries tables).1 = some entry.signature := by
  induction batch generalizing newest queries tables with
  | nil => exact Or.inl rfl
  | cons entry rest ih =>
      rw [handleAll, outcomes]
      rcases ih (if (handle weather entry queries tables).answered = true
          then some entry.signature else newest) (handle weather entry queries tables).queries
          (handle weather entry queries tables).tables with same | ⟨front, last, back, split, moved⟩
      · cases answered : (handle weather entry queries tables).answered with
        | false =>
            rw [answered] at same
            exact Or.inl same
        | true =>
            rw [answered] at same
            exact Or.inr ⟨[], entry, _, rfl, same⟩
      · refine Or.inr ⟨(entry, (handle weather entry queries tables).answered) :: front, last,
          back, ?_, moved⟩
        rw [split, List.cons_append]

/-- The event stands in the batch behind these payloads. -/
def Emits (batch : List Entry) (event : Event) (before : List Payload) : Prop :=
  ∃ older entry newer lines rest, batch = older ++ entry :: newer ∧ entry.succeeded = true ∧
    entry.logs = lines ++ .emitted event :: rest ∧
    before = older.flatMap Entry.payloads ++ ahead lines

theorem emits_here {entry : Entry} {rest : List Entry} {lines others : List LogLine}
    {event : Event} (succeeded : entry.succeeded = true)
    (split : entry.logs = lines ++ .emitted event :: others) :
    Emits (entry :: rest) event (ahead lines) :=
  ⟨[], entry, rest, lines, others, rfl, succeeded, split, rfl⟩

theorem emits_later {entry : Entry} {rest : List Entry} {event : Event} {before : List Payload}
    (emits : Emits rest event before) : Emits (entry :: rest) event (entry.payloads ++ before) := by
  obtain ⟨older, emitter, newer, lines, others, batch, succeeded, split, place⟩ := emits
  refine ⟨entry :: older, emitter, newer, lines, others, ?_, succeeded, split, ?_⟩
  · rw [batch, List.cons_append]
  · rw [place, List.flatMap_cons, List.append_assoc]

theorem event_line {entry : Entry} {event : Event} (member : event ∈ entry.events) :
    entry.succeeded = true ∧ ∃ lines rest, entry.logs = lines ++ .emitted event :: rest := by
  rw [Entry.events] at member
  cases succeeded : entry.succeeded with
  | false => simp [succeeded] at member
  | true =>
      rw [succeeded, if_pos rfl] at member
      obtain ⟨line, inside, found⟩ := List.mem_filterMap.mp member
      cases line with
      | other text => cases found
      | emitted event' =>
          cases found
          exact ⟨rfl, List.append_of_mem inside⟩

/-- Nothing that is read ahead of a deposit, and no row, has its leaf index for
another commitment. -/
def Free (tables : Tables) (batch : List Entry) : Prop :=
  ∀ deposit before, Emits batch (.deposit deposit) before →
    Agrees tables deposit ∧ Unclaimed before deposit

theorem free_rest {entry : Entry} {rest : List Entry} {tables : Tables}
    (free : Free tables (entry :: rest)) (queries : Nat) :
    Free (handle weather entry queries tables).tables rest := by
  intro deposit before emits
  obtain ⟨agrees, unclaimed⟩ := free deposit _ (emits_later emits)
  obtain ⟨here, later⟩ := (unclaimed_append _ _).mp unclaimed
  exact ⟨handle_agrees agrees here queries, later⟩

/-- Every event of a transaction that was read has its row at the end of the batch. -/
theorem outcomes_recorded {batch : List Entry} {queries : Nat} {tables : Tables}
    (free : Free tables batch) (newest : Option Signature) {entry : Entry}
    (read : (entry, true) ∈ outcomes weather batch queries tables)
    (fetched : weather.transaction entry.signature = none) :
    ∀ event ∈ entry.events,
      Recorded (handleAll weather batch newest queries tables).2 event := by
  induction batch generalizing queries tables newest with
  | nil => cases read
  | cons first rest ih =>
      intro event member
      rw [outcomes] at read
      rcases List.mem_cons.mp read with here | later
      · obtain ⟨rfl, answered⟩ := Prod.mk.inj here
        obtain ⟨succeeded, lines, others, split⟩ := event_line member
        have here : Recorded (handle weather entry queries tables).tables event := by
          refine handle_records split fetched answered.symm ?_
          rintro deposit rfl
          exact free deposit _ (emits_here succeeded split)
        rw [handleAll]
        exact recorded_grows (handle_all_grows _ _ _ _) here
      · exact ih (free_rest free queries) _ later event member

/-- Read in this tick, or nothing in it is left to record. -/
def Settled (weather : Weather) (tables : Tables) (outcome : Entry × Bool) : Prop :=
  outcome.2 = true ∧ weather.transaction outcome.1.signature = none ∨
    ∀ event ∈ outcome.1.events, Recorded tables event

/-- What has to hold of a tick on a batch for nothing to be passed over: the batch
fits the pages, no page behind the first answers with an error in its body while
there is more to fetch, no transaction succeeds after one that left an event
unrecorded, and no other log line has taken the leaf index of a deposit. -/
structure Steady (config : Config) (weather : Weather) (tables : Tables) (batch : List Entry) :
    Prop where
  fits : batch.length ≤ config.indexerMaxPages * config.indexerPageSize
  pages : ∀ j, 0 < j → j * config.indexerPageSize < batch.length →
    (∀ i < j, weather.page i = none) → weather.page j ≠ some .empty
  settled : ∀ front entry back, outcomes weather batch 0 tables = front ++ (entry, true) :: back →
    ∀ outcome ∈ front ++ [(entry, true)], Settled weather tables outcome
  free : Free tables batch

/-- The tables and the cursor when a batch has been worked through. -/
structure Worked (weather : Weather) (backend : Backend) (batch : List Entry) (after : Backend) :
    Prop where
  tables : after.tables = (handleAll weather batch none 0 backend.tables).2
  cursor : after.lastSignature =
    (handleAll weather batch none 0 backend.tables).1.or backend.lastSignature

/-- Under these conditions a tick works through nothing or through its whole backlog. -/
theorem steady_batch {history : List Entry} {config : Config} {backend : Backend}
    (distinct : (history.map Entry.signature).Nodup)
    (steady : Steady config weather backend.tables (backlog backend.lastSignature history)) :
    Worked weather backend [] (runTick history weather config backend).backend ∨
      Worked weather backend (backlog backend.lastSignature history)
        (runTick history weather config backend).backend := by
  obtain ⟨j, within, ⟨tables, cursor, _⟩, reason⟩ := tick_runs weather distinct config backend
  have everything : (backlog backend.lastSignature history).length ≤
      j * config.indexerPageSize → Worked weather backend (backlog backend.lastSignature history)
        (runTick history weather config backend).backend := by
    intro enough
    rw [List.rtake, Nat.sub_eq_zero_of_le enough, List.drop_zero] at tables cursor
    exact ⟨tables, cursor⟩
  have nothing : j = 0 →
      Worked weather backend [] (runTick history weather config backend).backend := by
    rintro rfl
    rw [Nat.zero_mul, List.rtake_zero] at tables cursor
    exact ⟨tables, cursor⟩
  rcases reason with all | enough | ⟨failed, clear⟩ | ⟨none', _⟩
  · exact Or.inr (everything (all ▸ steady.fits))
  · exact Or.inr (everything enough)
  · -- a page that came back empty was the first, or there was nothing left to fetch
    rcases Nat.eq_zero_or_pos j with zero | positive
    · exact Or.inl (nothing zero)
    · refine Or.inr (everything (Nat.le_of_not_lt ?_))
      intro more
      exact steady.pages j positive more clear failed
  · exact Or.inl (nothing none')

end Batches

/-! Runs with failures. -/
section Runs
variable {chain : Chain} {config : Config}

/-- Every event up to the cursor has its row. -/
def CursorSafe (chain : Chain) (state : State) : Prop :=
  ∀ signature, state.backend.lastSignature = some signature →
    ∃ older last newer, chain.entries = older ++ last :: newer ∧ last.signature = signature ∧
      older.length < state.visible ∧
      ∀ entry ∈ older ++ [last], ∀ event ∈ entry.events, Recorded state.backend.tables event

/-- The visible part of the chain: what the cursor stands for and what is behind. -/
theorem cursor_split {state : State} (safe : CursorSafe chain state) :
    ∃ passed, chain.visible state.visible = passed ++ state.behind chain ∧
      ∀ entry ∈ passed, ∀ event ∈ entry.events, Recorded state.backend.tables event := by
  rw [State.behind]
  cases cursor : state.backend.lastSignature with
  | none =>
      refine ⟨[], ?_, fun entry member => absurd member List.not_mem_nil⟩
      have unmet : ∀ entry ∈ chain.visible state.visible, (none : Option Signature) ≠
          some entry.signature := fun entry _ => (Option.some_ne_none _).symm
      rw [backlog_unmet unmet, List.nil_append]
  | some signature =>
      obtain ⟨older, last, newer, split, rfl, seen, recorded⟩ := safe signature cursor
      obtain ⟨rest, count⟩ := Nat.exists_eq_add_of_lt seen
      have shown : chain.visible state.visible = older ++ last :: newer.take rest := by
        rw [Chain.visible, split, count, List.take_append, Nat.add_assoc,
          List.take_of_length_le (Nat.le_add_right _ _), Nat.add_sub_cancel_left,
          List.take_succ_cons]
      have distinct := visible_distinct chain state.visible
      refine ⟨older ++ [last], ?_, recorded⟩
      rw [backlog_after distinct shown, shown, List.append_cons]

/-- A cursor that stays is as safe as before. -/
theorem safe_stays {state after : State} (safe : CursorSafe chain state)
    (visible : after.visible = state.visible)
    (grows : state.backend.tables.Grows after.backend.tables)
    (stays : after.backend.lastSignature = state.backend.lastSignature) :
    CursorSafe chain after := by
  intro signature found
  obtain ⟨older, last, newer, place, named, seen, recorded⟩ :=
    safe signature (stays.symm.trans found)
  exact ⟨older, last, newer, place, named, visible.symm ▸ seen,
    fun entry member event inside => recorded_grows grows (recorded entry member event inside)⟩

theorem tick_safe {weather : Weather} {state : State} (safe : CursorSafe chain state)
    (steady : Steady config weather state.backend.tables (state.behind chain)) :
    CursorSafe chain (step chain config state (.tick weather)) := by
  rcases steady_batch (visible_distinct chain state.visible) steady with worked | worked
  · exact safe_stays safe rfl (worked.tables ▸ grows_refl _) worked.cursor
  · have grows : state.backend.tables.Grows
        (step chain config state (.tick weather)).backend.tables :=
      worked.tables ▸ handle_all_grows _ _ _ _
    rcases handle_all_newest weather (state.behind chain) none 0
      state.backend.tables with same | ⟨front, last, back, split, moved⟩
    · exact safe_stays safe rfl grows (worked.cursor.trans (congrArg (Option.or · _) same))
    · have moves := worked.cursor.trans (congrArg (Option.or · _) moved)
      -- up to the new cursor lie the passed ones and the front of this batch
      obtain ⟨passed, shown, recorded⟩ := cursor_split safe
      have entries := outcomes_entries weather (state.behind chain) 0
        state.backend.tables
      rw [split, List.map_append, List.map_cons] at entries
      intro signature found
      have named : last.signature = signature := Option.some.inj (moves.symm.trans found)
      refine ⟨passed ++ front.map Prod.fst, last,
        back.map Prod.fst ++ chain.entries.drop state.visible, ?_, named, ?_, ?_⟩
      · have all := List.take_append_drop state.visible chain.entries
        rw [← Chain.visible, shown, ← entries] at all
        simpa using all.symm
      · have size := congrArg List.length shown
        rw [← entries, Chain.visible, List.length_take] at size
        simp only [List.length_append, List.length_cons] at size ⊢
        change _ < state.visible
        omega
      · intro entry member event inside
        rcases List.mem_append.mp (List.append_assoc _ _ _ ▸ member) with old | new
        · exact recorded_grows grows (recorded entry old event inside)
        · -- it was read in this tick, or its events had their rows before
          have listed : ∃ outcome ∈ front ++ [(last, true)], outcome.1 = entry := by
            simpa [or_comm, eq_comm] using new
          obtain ⟨outcome, place, rfl⟩ := listed
          rcases steady.settled front last back split outcome place with ⟨answered, fetched⟩ | done
          · have read : (outcome.1, true) ∈
                outcomes weather (state.behind chain) 0 state.backend.tables := by
              rw [split, List.append_cons]
              exact List.mem_append_left _ (answered ▸ place)
            exact worked.tables ▸ outcomes_recorded steady.free none read fetched event inside
          · exact recorded_grows grows (done event inside)

theorem grow_safe {state : State} (safe : CursorSafe chain state) (count : Nat) :
    CursorSafe chain (step chain config state (.grow count)) := by
  intro signature found
  obtain ⟨older, last, newer, place, named, seen, recorded⟩ := safe signature found
  exact ⟨older, last, newer, place, named, Nat.lt_add_right count seen, recorded⟩

/-- A run that starts without a cursor and whose ticks all meet the conditions never
moves the cursor past an event that has no row. -/
theorem cursor_safe (chain : Chain) (config : Config) (start : State)
    (fresh : start.backend.lastSignature = none) (steps : List Step)
    (steady : ∀ n weather, steps[n]? = some (Step.tick weather) →
      Steady config weather (runSteps chain config start (steps.take n)).backend.tables
        ((runSteps chain config start (steps.take n)).behind chain)) :
    ∀ n, CursorSafe chain (runSteps chain config start (steps.take n)) := by
  refine steps_invariant ?_ ?_
  · intro signature found
    cases fresh.symm.trans found
  · intro n last found safe
    cases last with
    | grow count => exact grow_safe safe count
    | tick weather => exact tick_safe safe (steady n weather found)

def initialization : Entry := ⟨"initialize", true, []⟩

def firstDeposit : DepositEvent := ⟨Vector.replicate 32 7, 0, 0, Vector.replicate 32 9⟩

def depositing : Entry := ⟨"deposit", true, [.emitted (.deposit firstDeposit)]⟩

/-- The node refuses to hand out the deposit. -/
def withoutDeposit : Weather :=
  { calmWeather with
    transaction := fun signature => if signature = "deposit" then some .refused else none }

/-- The transaction that fails is the newest of the tick. -/
def newestFails : Chain where
  entries := [initialization, depositing]
  distinct := by decide

theorem backlog_start (chain : Chain) :
    (State.mk chain.entries.length freshBackend []).behind chain = chain.entries := by
  have all : chain.visible chain.entries.length = chain.entries := List.take_length
  have unmet : ∀ entry ∈ chain.entries, (none : Option Signature) ≠ some entry.signature :=
    fun _ _ => nofun
  exact (congrArg (backlog none) all).trans (backlog_unmet unmet)

theorem newest_fails_steady : Steady ⟨2, 1, 20⟩ withoutDeposit freshBackend.tables
    newestFails.entries := by
  constructor
  · decide
  · exact fun j _ _ _ => nofun
  · intro front entry back split
    have listed : [(initialization, true), (depositing, false)] =
        front ++ (entry, true) :: back := split
    rcases front with _ | ⟨first, _ | ⟨second, rest⟩⟩
    · rintro outcome member
      cases listed
      cases List.mem_singleton.mp member
      exact Or.inl ⟨rfl, rfl⟩
    · cases listed
    · simp at listed
  · rintro deposit before ⟨older, entry, newer, lines, rest, batch, _, logs, place⟩
    refine ⟨fun row kept => absurd kept List.not_mem_nil, ?_⟩
    have listed : [initialization, depositing] = older ++ entry :: newer := batch
    rcases older with _ | ⟨first, _ | ⟨second, others⟩⟩
    · cases listed
      simp [initialization] at logs
    · cases listed
      have line : [LogLine.emitted (.deposit firstDeposit)] =
          lines ++ .emitted (.deposit deposit) :: rest := logs
      cases lines with
      | nil =>
          cases place
          exact fun commitment newRoot member => absurd member List.not_mem_nil
      | cons other more => simp at line
    · simp at listed

theorem cursor_safe_failing : CursorSafe newestFails (runSteps newestFails ⟨2, 1, 20⟩
    ⟨2, freshBackend, []⟩ [Step.tick withoutDeposit]) :=
  cursor_safe newestFails ⟨2, 1, 20⟩ ⟨2, freshBackend, []⟩ rfl [Step.tick withoutDeposit] (by
    intro n weather found
    cases n with
    | zero =>
        cases found
        exact (backlog_start newestFails).symm ▸ newest_fails_steady
    | succ n => cases found) 1

/-- The transaction that fails has one behind it. -/
def middleFails : Chain where
  entries := [initialization, depositing, ⟨"newer", true, []⟩]
  distinct := by decide

/-- The tick has room for all transactions, fails on the deposit and moves the cursor
to the newer one, so the deposit is never recorded. -/
theorem failed_lost :
    ((State.mk 3 freshBackend []).behind middleFails).length ≤ 1 * 3 ∧
      ¬ CursorSafe middleFails (runSteps middleFails ⟨3, 1, 20⟩ ⟨3, freshBackend, []⟩
        [Step.tick withoutDeposit]) := by
  have all := backlog_start middleFails
  refine ⟨le_of_eq (congrArg List.length all), ?_⟩
  obtain ⟨j, within, ⟨tables, cursor, _⟩, reason⟩ := tick_runs withoutDeposit
    (visible_distinct middleFails 3) ⟨3, 1, 20⟩ freshBackend
  have full : backlog none (middleFails.visible 3) = middleFails.entries := all
  have one : j = 1 := by
    rcases reason with one | enough | ⟨failed, _⟩ | ⟨_, i, _, refused⟩
    · exact one
    · change (backlog none (middleFails.visible 3)).length ≤ j * 3 at enough
      change j ≤ 1 at within
      have three : (backlog none (middleFails.visible 3)).length = 3 := congrArg List.length full
      omega
    · cases failed
    · cases refused
  have whole : (backlog none (middleFails.visible 3)).rtake (j * 3) = middleFails.entries := by
    rw [one, full]
    rfl
  change _ = (handleAll _ ((backlog none _).rtake (j * 3)) none 0 _).2 at tables
  change _ = (handleAll _ ((backlog none _).rtake (j * 3)) none 0 _).1.or _ at cursor
  rw [whole] at tables cursor
  intro safe
  obtain ⟨older, last, newer, split, named, _, recorded⟩ := safe "newer" cursor
  have listed : [initialization, depositing, ⟨"newer", true, []⟩] = older ++ last :: newer := split
  have passed : depositing ∈ older ++ [last] := by
    rcases older with _ | ⟨first, _ | ⟨second, rest⟩⟩
    · cases listed
      exact absurd named (by decide)
    · cases listed
      exact absurd named (by decide)
    · injection listed with _ others
      injection others with here _
      rw [here]
      simp
  have row : Recorded (runTick (middleFails.visible 3) withoutDeposit ⟨3, 1, 20⟩
      freshBackend).backend.tables (.deposit firstDeposit) :=
    recorded _ passed _ List.mem_cons_self
  rw [tables] at row
  obtain ⟨row, kept, _⟩ := row
  cases kept

end Runs

end PrivateTransfer.Indexer
