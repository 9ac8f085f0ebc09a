import Mathlib.Data.List.DropRight
import PrivateTransfer.Indexer

/-!
What a tick does, as functions of its weather: which signatures its pages bring
in, which transactions it gets through and what they write. Each part of the
script has one lemma here and is not unfolded again.
-/

namespace PrivateTransfer.Indexer

open EventLog MerkleService PoolState Script TreeRecovery

/-! What the payloads of one transaction write, query by query. -/
section Saving

def Tables.has (tables : Tables) : Payload → Bool
  | .deposit leafIndex _ _ => tables.commitments.has leafIndex
  | .withdraw nullifierHash _ => tables.nullifiers.has nullifierHash

def Tables.record (tables : Tables) (txSignature : Signature) : Payload → Tables
  | .deposit leafIndex commitment _ =>
      { tables with
        commitments := tables.commitments.insert { leafIndex, commitment, txSignature } }
  | .withdraw nullifierHash recipient =>
      { tables with
        nullifiers := tables.nullifiers.insert
          { nullifierHash, recipient, amount := 0, txSignature } }

/-- Whether the database answered every query, how many there have been and what is stored. -/
structure Outcome where
  answered : Bool
  queries : Nat
  tables : Tables

def savePayload (down : Nat → Bool) (txSignature : Signature) (payload : Payload) (queries : Nat)
    (tables : Tables) : Outcome :=
  if down queries then ⟨false, queries + 1, tables⟩
  else if tables.has payload then ⟨true, queries + 1, tables⟩
  else if down (queries + 1) then ⟨false, queries + 2, tables⟩
  else ⟨true, queries + 2, tables.record txSignature payload⟩

/-- The first query that fails ends the transaction. -/
def savePayloads (down : Nat → Bool) (txSignature : Signature) :
    List Payload → (queries : Nat) → Tables → Outcome
  | [], queries, tables => ⟨true, queries, tables⟩
  | payload :: rest, queries, tables =>
      let saved := savePayload down txSignature payload queries tables
      if saved.answered then savePayloads down txSignature rest saved.queries saved.tables
      else saved

def handle (weather : Weather) (entry : Entry) (queries : Nat) (tables : Tables) : Outcome :=
  match weather.transaction entry.signature with
  | some .refused => ⟨false, queries, tables⟩
  | some .empty => ⟨true, queries, tables⟩
  | none => savePayloads weather.database entry.signature entry.payloads queries tables

/-- The loop of a tick, with the newest signature that was got through. -/
def handleAll (weather : Weather) :
    List Entry → (newest : Option Signature) → (queries : Nat) → Tables → Option Signature × Tables
  | [], newest, _, tables => (newest, tables)
  | entry :: rest, newest, queries, tables =>
      let handled := handle weather entry queries tables
      handleAll weather rest (if handled.answered then some entry.signature else newest)
        handled.queries handled.tables

end Saving

section Laws
variable (history : List Entry) (weather : Weather)

/-- A session that has come to an outcome, with whatever its tree and reports are by then. -/
def Session.write (session : Session) (outcome : Outcome) (tree : Host)
    (reported : List (Int64 × Hex64)) : Session :=
  { session with
    queries := outcome.queries
    reported := reported
    backend := { session.backend with tables := outcome.tables, tree := tree } }

def Outcome.result (outcome : Outcome) : Except IndexerError Unit :=
  if outcome.answered then .ok () else .error .database

theorem add_leaf_runs (leafIndex : Nat) (commitment : Hex64) (depth : Nat) (session : Session) :
    ∃ added tree, run (serve history weather) (attempt (addLeaf leafIndex commitment depth))
      session = (.ok added, session.write ⟨true, session.queries, session.backend.tables⟩ tree
        session.reported) :=
  ⟨_, _, run_attempt _ _ _⟩

theorem report_runs (leafIndex : Int64) (added : Except IndexerError Hex64) (session : Session) :
    ∃ reported, run (serve history weather) (reportLeaf leafIndex added) session =
      (.ok (), session.write ⟨true, session.queries, session.backend.tables⟩ session.backend.tree
        reported) := by
  cases added with
  | ok root => exact ⟨_, rfl⟩
  | error failure => cases failure <;> exact ⟨_, rfl⟩

/-- The insertion alone, before the tree is touched. -/
theorem save_deposit_runs (txSignature : Signature) (leafIndex : Int64)
    (commitment newRoot : Bytes32) (session : Session) :
    run (serve history weather) (saveDeposit leafIndex commitment newRoot txSignature) session =
      if weather.database session.queries then
        (.error .database, session.write ⟨false, session.queries + 1, session.backend.tables⟩
          session.backend.tree session.reported)
      else (.ok (), session.write ⟨true, session.queries + 1,
          session.backend.tables.record txSignature (.deposit leafIndex commitment newRoot)⟩
        session.backend.tree session.reported) := by
  change serve history weather (.saveDeposit leafIndex commitment newRoot txSignature) session = _
  rw [serve]
  cases weather.database session.queries <;> rfl

theorem index_deposit_runs (config : Config) (txSignature : Signature) (leafIndex : Int64)
    (commitment newRoot : Bytes32) (session : Session) :
    ∃ tree reported, run (serve history weather)
        (indexDeposit config txSignature leafIndex commitment newRoot) session =
      if weather.database session.queries then
        (.error .database, session.write ⟨false, session.queries + 1, session.backend.tables⟩
          tree reported)
      else (.ok (), session.write ⟨true, session.queries + 1,
          session.backend.tables.record txSignature (.deposit leafIndex commitment newRoot)⟩
        tree reported) := by
  have saved := save_deposit_runs history weather txSignature leafIndex
    commitment newRoot session
  rw [indexDeposit]
  by_cases down : weather.database session.queries = true
  · rw [if_pos down] at saved
    refine ⟨session.backend.tree, session.reported, ?_⟩
    rw [run_bind_error _ saved, if_pos down]
  · rw [if_neg down] at saved
    obtain ⟨added, tree, attempted⟩ := add_leaf_runs history weather
      leafIndex.toUInt64.toNat (hexEncode commitment) config.merkleTreeDepth
      (session.write ⟨true, session.queries + 1, session.backend.tables.record txSignature
        (.deposit leafIndex commitment newRoot)⟩ session.backend.tree session.reported)
    obtain ⟨reported, reports⟩ := report_runs history weather leafIndex
      added (session.write ⟨true, session.queries + 1, session.backend.tables.record txSignature
        (.deposit leafIndex commitment newRoot)⟩ tree session.reported)
    refine ⟨tree, reported, ?_⟩
    rw [run_bind_ok _ saved, run_bind_ok _ attempted, if_neg down]
    exact run_bind_ok _ reports _

theorem save_nullifier_runs (txSignature : Signature) (nullifierHash : Bytes32)
    (recipient : Pubkey) (session : Session) :
    run (serve history weather) (saveNullifier nullifierHash recipient 0 txSignature) session =
      if weather.database session.queries then
        (.error .database, session.write ⟨false, session.queries + 1, session.backend.tables⟩
          session.backend.tree session.reported)
      else (.ok (), session.write ⟨true, session.queries + 1,
          session.backend.tables.record txSignature (.withdraw nullifierHash recipient)⟩
        session.backend.tree session.reported) := by
  change serve history weather (.saveNullifier nullifierHash recipient 0 txSignature) session = _
  rw [serve]
  cases weather.database session.queries <;> rfl

/-- One query asks whether the payload has its row, and one more saves it if it has none. -/
theorem save_unknown_runs {txSignature : Signature} {payload : Payload} {asks : Work Bool}
    {saves : Work Unit} {session : Session}
    (asked : run (serve history weather) asks session =
      (if weather.database session.queries then .error .database
        else .ok (session.backend.tables.has payload),
        { session with queries := session.queries + 1 }))
    (saved : ∃ tree reported,
      run (serve history weather) saves { session with queries := session.queries + 1 } =
        if weather.database (session.queries + 1) then
          (.error .database, session.write ⟨false, session.queries + 2, session.backend.tables⟩
            tree reported)
        else (.ok (), session.write ⟨true, session.queries + 2,
            session.backend.tables.record txSignature payload⟩ tree reported)) :
    ∃ tree reported, run (serve history weather)
        (asks >>= fun known => if known then pure () else saves) session =
      ((savePayload weather.database txSignature payload session.queries
          session.backend.tables).result,
        session.write (savePayload weather.database txSignature payload session.queries
          session.backend.tables) tree reported) := by
  rw [savePayload]
  by_cases down : weather.database session.queries = true
  · rw [if_pos down] at asked ⊢
    exact ⟨_, _, run_bind_error _ asked _⟩
  · rw [if_neg down] at asked ⊢
    rw [run_bind_ok _ asked]
    by_cases known : session.backend.tables.has payload = true
    · rw [if_pos known, if_pos known]
      exact ⟨_, _, rfl⟩
    · obtain ⟨tree, reported, saves⟩ := saved
      rw [if_neg known, if_neg known]
      refine ⟨tree, reported, saves.trans ?_⟩
      by_cases later : weather.database (session.queries + 1) = true
      · rw [if_pos later, if_pos later]
        rfl
      · rw [if_neg later, if_neg later]
        rfl

/-- A line of the log comes to the outcome of its payload. -/
theorem process_log_runs (config : Config) (txSignature : Signature) (log : String)
    (session : Session) :
    ∃ tree reported, run (serve history weather) (processLog config txSignature log) session =
      match parseLog log with
      | none => (.ok (), session)
      | some payload =>
          let outcome := savePayload weather.database txSignature payload session.queries
            session.backend.tables
          (outcome.result, session.write outcome tree reported) := by
  rw [processLog]
  cases parseLog log with
  | none => exact ⟨session.backend.tree, session.reported, rfl⟩
  | some payload =>
      cases payload with
      | deposit leafIndex commitment newRoot =>
          have indexed := index_deposit_runs history weather config txSignature leafIndex
            commitment newRoot { session with queries := session.queries + 1 }
          exact save_unknown_runs history weather rfl indexed
      | withdraw nullifierHash recipient =>
          have saved := save_nullifier_runs history weather txSignature nullifierHash recipient
            { session with queries := session.queries + 1 }
          exact save_unknown_runs history weather rfl ⟨_, _, saved⟩

theorem process_logs_run (config : Config) (txSignature : Signature) (logs : List String)
    (session : Session) :
    ∃ tree reported, run (serve history weather) (processLogs config txSignature logs) session =
      ((savePayloads weather.database txSignature (logs.filterMap parseLog) session.queries
          session.backend.tables).result,
        session.write (savePayloads weather.database txSignature (logs.filterMap parseLog)
          session.queries session.backend.tables) tree reported) := by
  induction logs generalizing session with
  | nil => exact ⟨_, _, rfl⟩
  | cons log rest ih =>
      obtain ⟨tree, reported, first⟩ := process_log_runs history weather
        config txSignature log session
      rw [processLogs, List.filterMap_cons]
      cases parsed : parseLog log with
      | none =>
          rw [parsed] at first
          rw [run_bind_ok _ first]
          exact ih session
      | some payload =>
          rw [parsed] at first
          dsimp only at first ⊢
          rw [savePayloads]
          by_cases answered : (savePayload weather.database txSignature payload session.queries
            session.backend.tables).answered = true
          · rw [Outcome.result, if_pos answered] at first
            rw [if_pos answered, run_bind_ok _ first]
            exact ih _
          · rw [Outcome.result, if_neg answered] at first
            rw [if_neg answered, Outcome.result, if_neg answered]
            exact ⟨tree, reported, run_bind_error _ first _⟩

variable {history}

theorem logs_of_entry (distinct : (history.map Entry.signature).Nodup) {entry : Entry}
    (listed : entry ∈ history) :
    logsOf history entry.signature = some (entry.logs.map LogLine.text) := by
  have found : history.find? (·.signature == entry.signature) = some entry := by
    cases looked : history.find? (·.signature == entry.signature) with
    | none =>
        have missing := List.find?_eq_none.mp looked entry listed
        simp at missing
    | some other =>
        have same : other.signature = entry.signature := by
          simpa using List.find?_some looked
        rw [List.inj_on_of_nodup_map distinct (List.mem_of_find?_eq_some looked) listed same]
  rw [logsOf, found, Option.map_some]

/-- A transaction of the history comes to what the weather makes of its payloads. -/
theorem process_transaction_runs (distinct : (history.map Entry.signature).Nodup)
    (config : Config) {entry : Entry} (listed : entry ∈ history) (session : Session) :
    ∃ failure tree reported,
      run (serve history weather) (processTransaction config entry.signature) session =
        (if (handle weather entry session.queries session.backend.tables).answered then .ok ()
          else .error failure,
          { session.write (handle weather entry session.queries session.backend.tables) tree
              reported with asked := session.asked ++ [entry.signature] }) := by
  have asked : run (serve history weather) (getTransaction entry.signature) session =
      (rpcAnswer (weather.transaction entry.signature) (logsOf history entry.signature),
        { session with asked := session.asked ++ [entry.signature] }) := rfl
  rw [logs_of_entry distinct listed] at asked
  rw [processTransaction, handle]
  cases fault : weather.transaction entry.signature with
  | none =>
      rw [fault] at asked
      obtain ⟨tree, reported, logged⟩ := process_logs_run history weather
        config entry.signature (entry.logs.map LogLine.text)
        { session with asked := session.asked ++ [entry.signature] }
      rw [List.filterMap_map] at logged
      exact ⟨.database, tree, reported, (run_bind_ok _ asked _).trans logged⟩
  | some fault' =>
      rw [fault] at asked
      cases fault' with
      | refused => exact ⟨.rpc, session.backend.tree, session.reported, run_bind_error _ asked _⟩
      | empty => exact ⟨.rpc, session.backend.tree, session.reported, run_bind_ok _ asked _⟩

/-- The loop over a batch, oldest first. -/
theorem process_all_runs (distinct : (history.map Entry.signature).Nodup) (config : Config)
    (batch : List Entry) (listed : ∀ entry ∈ batch, entry ∈ history) (newest : Option Signature)
    (session : Session) :
    ∃ queries tree reported,
      run (serve history weather) (processAll config (batch.map Entry.signature) newest) session =
        (.ok (handleAll weather batch newest session.queries session.backend.tables).1,
          { session.write ⟨true, queries,
              (handleAll weather batch newest session.queries session.backend.tables).2⟩ tree
              reported with asked := session.asked ++ batch.map Entry.signature }) := by
  induction batch generalizing newest session with
  | nil =>
      refine ⟨session.queries, session.backend.tree, session.reported, ?_⟩
      rw [List.map_nil, List.append_nil]
      rfl
  | cons entry rest ih =>
      obtain ⟨failure, tree, reported, first⟩ := process_transaction_runs weather distinct
        config (listed entry List.mem_cons_self) session
      have others : ∀ entry ∈ rest, entry ∈ history :=
        fun entry member => listed entry (List.mem_cons_of_mem _ member)
      have joined := List.append_cons session.asked entry.signature (rest.map Entry.signature)
      rw [List.map_cons, processAll, run_bind_ok _ (run_attempt _ _ _), first, handleAll]
      by_cases answered : (handle weather entry session.queries session.backend.tables).answered
      · rw [if_pos answered, if_pos answered]
        obtain ⟨queries, tree, reported, later⟩ := ih others (some entry.signature) _
        refine ⟨queries, tree, reported, later.trans ?_⟩
        rw [joined]
        rfl
      · rw [if_neg answered, if_neg answered]
        obtain ⟨queries, tree, reported, later⟩ := ih others newest _
        refine ⟨queries, tree, reported, later.trans ?_⟩
        rw [joined]
        rfl

end Laws

/-! The pages of a tick, on the newest-first list of signatures. -/
section Pages
variable {history : List Entry} (weather : Weather)

def newestFirst (history : List Entry) : List Signature := (history.map Entry.signature).reverse

/-- The signatures in front of the cursor, all of them if it is not met. -/
def newerThan (last : Option Signature) (newest : List Signature) : List Signature :=
  newest.takeWhile fun signature => decide (last ≠ some signature)

theorem scan_page (last : Option Signature) (page : List Signature) :
    (scanPage last page).1 = newerThan last page ∧
      ((scanPage last page).2 = false → newerThan last page = page) ∧
      ((scanPage last page).2 = true → (newerThan last page).length < page.length) := by
  induction page with
  | nil => exact ⟨rfl, fun _ => rfl, fun met => absurd met Bool.false_ne_true⟩
  | cons signature rest ih =>
      obtain ⟨scanned, whole, cut⟩ := ih
      rw [scanPage, newerThan]
      by_cases met : last = some signature
      · rw [if_pos met, List.takeWhile_cons_of_neg (by simpa using met)]
        exact ⟨rfl, fun unmet => absurd unmet (by decide), fun _ => Nat.succ_pos _⟩
      · rw [if_neg met, List.takeWhile_cons_of_pos (by simpa using met)]
        refine ⟨congrArg _ scanned, ?_, ?_⟩
        · intro unmet
          exact congrArg _ (whole unmet)
        · intro found
          exact Nat.succ_lt_succ (cut found)

theorem newer_than_skip (last : Option Signature) (newest : List Signature) {p : Nat}
    (unmet : p ≤ (newerThan last newest).length) :
    newerThan last newest = newest.take p ++ newerThan last (newest.drop p) := by
  induction p generalizing newest with
  | zero => rfl
  | succ p ih =>
      cases newest with
      | nil => exact absurd unmet (Nat.not_succ_le_zero p)
      | cons signature rest =>
          by_cases met : last = some signature
          · rw [newerThan, List.takeWhile_cons_of_neg (by simpa using met)] at unmet
            exact absurd unmet (Nat.not_succ_le_zero p)
          · rw [newerThan, List.takeWhile_cons_of_pos (by simpa using met)] at unmet ⊢
            rw [List.take_succ_cons, List.drop_succ_cons, List.cons_append]
            exact congrArg _ (ih rest (Nat.le_of_succ_le_succ unmet))

/-- Scanning the next `n` signatures extends what has been taken by them. -/
theorem newer_than_take (last : Option Signature) (newest : List Signature) {p : Nat}
    (unmet : p ≤ (newerThan last newest).length) (n : Nat) :
    (newerThan last newest).take (p + n) =
      newest.take p ++ newerThan last ((newest.drop p).take n) := by
  have inside : p ≤ newest.length := Nat.le_trans unmet (List.takeWhile_prefix _).length_le
  have width : (newest.take p).length = p := List.length_take_of_le inside
  have skip := newer_than_skip last newest unmet
  rw [skip, List.take_append, width, Nat.add_sub_cancel_left,
    List.take_of_length_le (by omega), newerThan, newerThan, List.take_takeWhile]

theorem newer_than_length (last : Option Signature) (newest : List Signature) :
    (newerThan last newest).length ≤ newest.length :=
  (List.takeWhile_prefix _).length_le

/-- What the node answers behind the `p`-th signature. -/
theorem signatures_behind (distinct : (history.map Entry.signature).Nodup) (limit : Nat)
    {p : Nat} {signature : Signature} (placed : (newestFirst history)[p]? = some signature) :
    signaturesFor history limit (some signature) =
      ((newestFirst history).drop (p + 1)).take limit := by
  have behind : ∀ {newest : List Signature} {p : Nat}, newest.Nodup → newest[p]? = some signature →
      (newest.dropWhile (· ≠ signature)).drop 1 = newest.drop (p + 1) := by
    intro newest
    induction newest with
    | nil => exact fun _ placed => absurd placed (by simp)
    | cons first rest ih =>
        intro p unique placed
        obtain ⟨absent, unique⟩ := List.nodup_cons.mp unique
        cases p with
        | zero =>
            obtain rfl := Option.some.inj placed
            rw [List.dropWhile_cons_of_neg (by simp)]
        | succ p =>
            rw [List.getElem?_cons_succ] at placed
            have other : first ≠ signature := by
              rintro rfl
              exact absent (List.mem_of_getElem? placed)
            rw [List.dropWhile_cons_of_pos (by simpa using other)]
            exact ih unique placed
  rw [signaturesFor]
  exact congrArg _ (behind (List.nodup_reverse.mpr distinct) placed)

/-- A page that starts behind the first `p` signatures, all of them newer than the cursor. -/
structure PageStart (history : List Entry) (config : Config) (last : Option Signature)
    (p : Nat) (before : Option Signature) : Prop where
  unmet : p ≤ (newerThan last (newestFirst history)).length
  placed : signaturesFor history config.indexerPageSize before =
    ((newestFirst history).drop p).take config.indexerPageSize

/-- A whole page in front of the cursor moves the start behind its last signature. -/
theorem page_start_next (distinct : (history.map Entry.signature).Nodup) {config : Config}
    {last : Option Signature} {p : Nat} {before : Option Signature}
    (start : PageStart history config last p before) {pageSigs : List Signature}
    (page : ((newestFirst history).drop p).take config.indexerPageSize = pageSigs)
    (nonempty : pageSigs ≠ [])
    (whole : (newerThan last (newestFirst history)).take (p + config.indexerPageSize) =
      (newestFirst history).take p ++ pageSigs) :
    PageStart history config last (p + pageSigs.length) pageSigs.getLast? ∧
      (newestFirst history).take (p + pageSigs.length) =
        (newestFirst history).take p ++ pageSigs := by
  have bound := newer_than_length last (newestFirst history)
  have width : ((newestFirst history).take p).length = p :=
    List.length_take_of_le (Nat.le_trans start.unmet bound)
  have exact' : ((newestFirst history).drop p).take pageSigs.length = pageSigs := by
    have size := congrArg List.length page
    rw [List.length_take] at size
    rw [← size, ← List.take_eq_take_min, page]
  refine ⟨⟨?_, ?_⟩, ?_⟩
  · have size := congrArg List.length whole
    rw [List.length_take, List.length_append, width] at size
    omega
  · have positive := List.length_pos_of_ne_nil nonempty
    have lastOf : pageSigs.getLast? = some (pageSigs.getLast nonempty) :=
      List.getLast?_eq_some_getLast nonempty
    have placed : (newestFirst history)[p + (pageSigs.length - 1)]? =
        some (pageSigs.getLast nonempty) := by
      calc (newestFirst history)[p + (pageSigs.length - 1)]?
          = ((newestFirst history).drop p)[pageSigs.length - 1]? := (List.getElem?_drop ..).symm
        _ = (((newestFirst history).drop p).take pageSigs.length)[pageSigs.length - 1]? :=
            (List.getElem?_take_of_lt (by omega)).symm
        _ = pageSigs[pageSigs.length - 1]? := by rw [exact']
        _ = some (pageSigs.getLast nonempty) := List.getLast?_eq_getElem?.symm.trans lastOf
    rw [lastOf, signatures_behind distinct _ placed]
    congr 2
    omega
  · rw [List.take_add, exact']

theorem page_start_stays {config : Config} {last : Option Signature} {p : Nat}
    {before : Option Signature} (start : PageStart history config last p before) :
    (newestFirst history).take p = (newerThan last (newestFirst history)).take p := by
  have taken := newer_than_take last (newestFirst history) start.unmet 0
  rw [List.take_zero] at taken
  exact (List.append_nil _).symm.trans taken.symm

/-- How the pages from the `first` on end, `p` signatures in: at one that is refused, or with
what `j` of them hold in front of the cursor. -/
def PagesEnd (history : List Entry) (weather : Weather) (config : Config)
    (last : Option Signature) (pages p first : Nat)
    (result : Except IndexerError (List Signature)) : Prop :=
  (result = .error .rpc ∧ ∃ j < pages, weather.page (first + j) = some .refused) ∨
    ∃ j ≤ pages,
      result = .ok ((newerThan last (newestFirst history)).take
        (p + j * config.indexerPageSize)) ∧
      (j = pages ∨
        (newerThan last (newestFirst history)).length ≤ p + j * config.indexerPageSize ∨
        weather.page (first + j) = some .empty ∧ ∀ i < j, weather.page (first + i) = none)

/-- Nothing more is fetched. -/
theorem pages_end_here {config : Config} {last : Option Signature} {p : Nat}
    {before : Option Signature} (start : PageStart history config last p before)
    {pages first : Nat}
    (reason : 0 = pages ∨ (newerThan last (newestFirst history)).length ≤ p ∨
      weather.page first = some .empty) :
    PagesEnd history weather config last pages p first (.ok ((newestFirst history).take p)) := by
  refine Or.inr ⟨0, Nat.zero_le _, ?_, ?_⟩
  · rw [Nat.zero_mul, Nat.add_zero, page_start_stays start]
  · rw [Nat.zero_mul, Nat.add_zero, Nat.add_zero]
    rcases reason with none' | enough | empty
    · exact Or.inl none'
    · exact Or.inr (Or.inl enough)
    · exact Or.inr (Or.inr ⟨empty, fun i early => absurd early (Nat.not_lt_zero i)⟩)

/-- Where the rest ends behind an answered page, the whole ends. -/
theorem pages_end_next {config : Config} {last : Option Signature} {pages p first : Nat}
    {pageSigs : List Signature} {result : Except IndexerError (List Signature)}
    (page : ((newestFirst history).drop p).take config.indexerPageSize = pageSigs)
    (answered : weather.page first = none)
    (ends : PagesEnd history weather config last pages (p + pageSigs.length) (first + 1) result) :
    PagesEnd history weather config last (pages + 1) p first result := by
  have bound := newer_than_length last (newestFirst history)
  have size := congrArg List.length page
  rw [List.length_take, List.length_drop] at size
  -- a page that is not full is the last one, so both bounds take everything
  have same : ∀ j, (newerThan last (newestFirst history)).take
      (p + pageSigs.length + j * config.indexerPageSize) =
      (newerThan last (newestFirst history)).take (p + (j + 1) * config.indexerPageSize) := by
    intro j
    rw [Nat.succ_mul]
    by_cases full : pageSigs.length = config.indexerPageSize
    · congr 1
      omega
    · rw [List.take_of_length_le (by omega), List.take_of_length_le (by omega)]
  have later : ∀ j, first + 1 + j = first + (j + 1) := by
    intro j
    omega
  rcases ends with ⟨failed, j, within, refused⟩ | ⟨j, within, done, reason⟩
  · refine Or.inl ⟨failed, j + 1, Nat.succ_lt_succ within, ?_⟩
    rw [← later]
    exact refused
  · refine Or.inr ⟨j + 1, Nat.succ_le_succ within, done.trans (by rw [same]), ?_⟩
    rcases reason with all | enough | ⟨failed, clear⟩
    · exact Or.inl (congrArg _ all)
    · refine Or.inr (Or.inl ?_)
      rw [Nat.succ_mul]
      omega
    · refine Or.inr (Or.inr ⟨?_, ?_⟩)
      · rw [← later]
        exact failed
      · intro i early
        cases i with
        | zero => exact answered
        | succ i =>
            rw [← later]
            exact clear i (Nat.lt_of_succ_lt_succ early)

/-- The loop over the pages, `p` signatures in. -/
theorem collect_runs (distinct : (history.map Entry.signature).Nodup) (config : Config)
    (last : Option Signature) (pages p : Nat) (before : Option Signature)
    (start : PageStart history config last p before) (session : Session) :
    ∃ asked result, run (serve history weather)
        (collect config last pages before ((newestFirst history).take p)) session =
        (result, { session with pages := asked }) ∧
      PagesEnd history weather config last pages p session.pages result := by
  induction pages generalizing p before session with
  | zero => exact ⟨session.pages, _, rfl, pages_end_here weather start (Or.inl rfl)⟩
  | succ pages ih =>
      have asked : run (serve history weather)
          (getSignaturesForAddress config.indexerPageSize before) session =
          (rpcAnswer (weather.page session.pages)
            (some (signaturesFor history config.indexerPageSize before)),
            { session with pages := session.pages + 1 }) := rfl
      rw [start.placed] at asked
      rw [collect]
      cases fault : weather.page session.pages with
      | some fault' =>
          rw [fault] at asked
          cases fault' with
          | refused =>
              exact ⟨_, _, run_bind_error _ asked _, Or.inl ⟨rfl, 0, Nat.succ_pos _, fault⟩⟩
          | empty =>
              exact ⟨_, _, run_bind_ok _ asked _,
                pages_end_here weather start (Or.inr (Or.inr fault))⟩
      | none =>
          rw [fault] at asked
          have whole := newer_than_take last (newestFirst history) start.unmet
            config.indexerPageSize
          generalize page : ((newestFirst history).drop p).take config.indexerPageSize = pageSigs
            at asked whole
          obtain ⟨scanned, unmet, met⟩ := scan_page last pageSigs
          rw [run_bind_ok _ asked]
          dsimp only [Option.getD_some]
          by_cases empty : pageSigs.isEmpty = true
          · rw [List.isEmpty_iff.mp empty, List.take_eq_nil_iff, List.drop_eq_nil_iff] at page
            rw [if_pos empty]
            -- an empty page is past the end, unless the page size itself is zero
            rcases page with zero | past
            · refine ⟨_, _, rfl, Or.inr ⟨pages + 1, Nat.le_refl _, ?_, Or.inl rfl⟩⟩
              rw [zero, Nat.mul_zero, Nat.add_zero, page_start_stays start]
            · have bound := newer_than_length last (newestFirst history)
              exact ⟨_, _, rfl, pages_end_here weather start (Or.inr (Or.inl (by omega)))⟩
          · rw [if_neg empty]
            cases stop : (scanPage last pageSigs).2 with
            | true =>
                -- the cursor is on this page: what is in front of it is all there is
                have short := met stop
                have size := congrArg List.length whole
                have width : pageSigs.length ≤ config.indexerPageSize := by
                  rw [← page, List.length_take]
                  exact Nat.min_le_left _ _
                rw [List.length_take, List.length_append, List.length_take] at size
                rw [if_pos rfl, scanned]
                refine ⟨_, _, rfl, Or.inr ⟨1, Nat.succ_le_succ (Nat.zero_le _), ?_,
                  Or.inr (Or.inl (by omega))⟩⟩
                rw [Nat.one_mul, whole]
            | false =>
                rw [if_neg Bool.false_ne_true, scanned, unmet stop]
                rw [unmet stop] at whole
                have nonempty : pageSigs ≠ [] := fun none' => empty (List.isEmpty_iff.mpr none')
                obtain ⟨next, more⟩ := page_start_next distinct start page nonempty whole
                obtain ⟨count, result, collected, ends⟩ := ih _ _ next
                  { session with pages := session.pages + 1 }
                rw [more] at collected
                exact ⟨count, result, collected, pages_end_next weather page fault ends⟩

end Pages

/-! A tick as a whole, on the transactions behind the cursor. -/
section Ticks
variable {history : List Entry} {weather : Weather}

/-- Oldest first, what is newer than the cursor. -/
def backlog (last : Option Signature) (history : List Entry) : List Entry :=
  (history.reverse.takeWhile fun entry => decide (last ≠ some entry.signature)).reverse

theorem newer_than_backlog (last : Option Signature) (history : List Entry) :
    newerThan last (newestFirst history) =
      ((backlog last history).map Entry.signature).reverse := by
  rw [newerThan, newestFirst, backlog, ← List.map_reverse, List.takeWhile_map, ← List.map_reverse,
    List.reverse_reverse]
  rfl

theorem backlog_listed (last : Option Signature) (history : List Entry) :
    ∀ entry ∈ backlog last history, entry ∈ history := by
  intro entry member
  have newer := List.mem_reverse.mp member
  exact List.mem_reverse.mp ((List.takeWhile_prefix _).subset newer)

/-- The newest signatures, put back into chain order. -/
theorem batch_reverse (last : Option Signature) (history : List Entry) (n : Nat) :
    ((newerThan last (newestFirst history)).take n).reverse =
      ((backlog last history).rtake n).map Entry.signature := by
  rw [newer_than_backlog, ← List.rtake_eq_reverse_take_reverse, List.rtake, List.rtake,
    List.length_map, List.map_drop]

/-- A tick that has fetched `j` pages works through the newest ones behind the cursor. -/
structure Ticked (history : List Entry) (weather : Weather) (config : Config) (backend : Backend)
    (j : Nat) (after : Session) : Prop where
  tables : after.backend.tables = (handleAll weather
    ((backlog backend.lastSignature history).rtake (j * config.indexerPageSize)) none 0
    backend.tables).2
  cursor : after.backend.lastSignature = (handleAll weather
    ((backlog backend.lastSignature history).rtake (j * config.indexerPageSize)) none 0
    backend.tables).1.or backend.lastSignature
  asked : after.asked = ((backlog backend.lastSignature history).rtake
    (j * config.indexerPageSize)).map Entry.signature

theorem ticked_nothing {config : Config} {backend : Backend} {j : Nat} {after : Session}
    (nothing : (backlog backend.lastSignature history).rtake (j * config.indexerPageSize) = [])
    (tables : after.backend.tables = backend.tables)
    (cursor : after.backend.lastSignature = backend.lastSignature) (asked : after.asked = []) :
    Ticked history weather config backend j after := by
  constructor
  · rw [nothing]
    exact tables
  · rw [nothing]
    exact cursor
  · rw [nothing]
    exact asked

theorem advance_runs (history : List Entry) (weather : Weather) (newest : Option Signature)
    (session : Session) :
    run (serve history weather) (advance newest) session = (.ok (), { session with
      backend := { session.backend with
        lastSignature := newest.or session.backend.lastSignature } }) := by
  cases newest with
  | none => rfl
  | some signature => exact run_bind_ok _ (run_attempt _ _ _) _

theorem tick_runs (weather : Weather) (distinct : (history.map Entry.signature).Nodup)
    (config : Config) (backend : Backend) :
    ∃ j ≤ config.indexerMaxPages,
      Ticked history weather config backend j (runTick history weather config backend) ∧
      (j = config.indexerMaxPages ∨
        (backlog backend.lastSignature history).length ≤ j * config.indexerPageSize ∨
        (weather.page j = some .empty ∧ ∀ i < j, weather.page i = none) ∨
        j = 0 ∧ ∃ i < config.indexerMaxPages, weather.page i = some .refused) := by
  have start : PageStart history config backend.lastSignature 0 none := ⟨Nat.zero_le _, rfl⟩
  have cached : run (serve history weather) (attempt getLastSignature) ⟨backend, 0, 0, [], []⟩ =
      (.ok (.ok backend.lastSignature), ⟨backend, 0, 0, [], []⟩) := run_attempt _ _ _
  obtain ⟨asked, result, collected, ends⟩ := collect_runs weather distinct config
    backend.lastSignature config.indexerMaxPages 0 none start ⟨backend, 0, 0, [], []⟩
  rw [List.take_zero] at collected
  rw [runTick, tick, run_bind_ok _ cached]
  dsimp only [Except.toOption, Option.getD_some]
  rcases ends with ⟨rfl, i, within, refused⟩ | ⟨j, within, rfl, reason⟩
  · rw [Nat.zero_add] at refused
    refine ⟨0, Nat.zero_le _, ?_, Or.inr (Or.inr (Or.inr ⟨rfl, i, within, refused⟩))⟩
    have nothing : (backlog backend.lastSignature history).rtake
        (0 * config.indexerPageSize) = [] := by rw [Nat.zero_mul, List.rtake_zero]
    rw [run_bind_error _ collected]
    exact ticked_nothing nothing rfl rfl rfl
  · rw [Nat.zero_add] at collected reason
    refine ⟨j, within, ?_, ?_⟩
    · have listed : ∀ entry ∈ (backlog backend.lastSignature history).rtake
          (j * config.indexerPageSize), entry ∈ history := by
        intro entry member
        exact backlog_listed _ _ _ (List.mem_of_mem_drop member)
      have batch := batch_reverse backend.lastSignature history (j * config.indexerPageSize)
      rw [run_bind_ok _ collected]
      by_cases empty : ((newerThan backend.lastSignature (newestFirst history)).take
          (j * config.indexerPageSize)).isEmpty = true
      · rw [List.isEmpty_iff.mp empty, List.reverse_nil] at batch
        have nothing := List.map_eq_nil_iff.mp batch.symm
        rw [if_pos empty]
        exact ticked_nothing nothing rfl rfl rfl
      · rw [if_neg empty, batch]
        obtain ⟨queries, tree, reported, processed⟩ := process_all_runs weather distinct
          config _ listed none ⟨backend, asked, 0, [], []⟩
        rw [run_bind_ok _ processed, advance_runs]
        exact ⟨rfl, rfl, List.nil_append _⟩
    · simp only [Nat.zero_add] at reason
      rcases reason with all | enough | fault
      · exact Or.inl all
      · refine Or.inr (Or.inl ?_)
        rwa [newer_than_backlog, List.length_reverse, List.length_map] at enough
      · exact Or.inr (Or.inr (Or.inl fault))

end Ticks

end PrivateTransfer.Indexer
