import PrivateTransfer.Database
import PrivateTransfer.Interruption

/-!
`process_transaction` over the whole database, as often as one likes. A query of the
database may be refused, with or without an id already drawn, or be carried out with
its answer lost; a transaction that was stopped by one is taken up again later.
-/

namespace PrivateTransfer.Reindexing

open Database EventLog Indexer MerkleService Script

/-- What becomes of a query. -/
inductive Reply where
  | answered
  | refused (drawn : Bool)
  | lost
  deriving DecidableEq

/-- The failures of one attempt: of the node, of the `n`-th query, of the tree and of Redis. -/
structure Weather (Tree : Type) where
  transaction : Option Fault
  database : Nat → Reply
  addLeaf : Nat → Hex64 → Nat → Tree → Except RedisTree.TreeError Hex64 × Tree
  invalidates : Bool

structure Backend (Tree : Type) where
  db : Db
  tree : Tree

structure Session (Tree : Type) where
  backend : Backend Tree
  queries : Nat

structure Transaction where
  signature : Signature
  logs : List String

def Transaction.payloads (transaction : Transaction) : List Payload :=
  transaction.logs.filterMap parseLog

section Service
variable {Tree : Type} (poolAddress : String) (weather : Weather Tree)

/-- A query that only reads. -/
def Session.read (session : Session Tree) (found : Bool) :
    Except IndexerError Bool × Session Tree :=
  (if weather.database session.queries = .answered then .ok found else .error .database,
    { session with queries := session.queries + 1 })

/-- A query that is carried out as a whole or not at all. -/
def Session.write (session : Session Tree) (written : Db) :
    Except IndexerError Unit × Session Tree :=
  match weather.database session.queries with
  | .answered =>
      (.ok (), ⟨{ session.backend with db := written }, session.queries + 1⟩)
  | .lost => (.error .database, ⟨{ session.backend with db := written }, session.queries + 1⟩)
  | .refused false => (.error .database, { session with queries := session.queries + 1 })
  | .refused true =>
      (.error .database,
        ⟨{ session.backend with
          db := { session.backend.db with roots := session.backend.db.roots.skip } },
          session.queries + 1⟩)

/-- The cursor and the pages are not asked for by `process_transaction`. -/
def serve (logs : List String) : (request : Request) → Session Tree →
    Except IndexerError (Answer request) × Session Tree
  | .getLastSignature, session => (.error .redis, session)
  | .setLastSignature _, session => (.error .redis, session)
  | .getSignaturesForAddress _ _, session => (.error .rpc, session)
  | .getTransaction _, session => (rpcAnswer weather.transaction (some logs), session)
  | .commitmentExists leafIndex, session =>
      session.read weather (commitmentExists session.backend.db leafIndex)
  | .isNullifierUsed nullifierHash, session =>
      session.read weather (isNullifierUsed session.backend.db nullifierHash)
  | .saveDeposit leafIndex commitment newRoot txSignature, session =>
      session.write weather
        (saveDeposit session.backend.db leafIndex commitment newRoot poolAddress txSignature)
  | .saveNullifier nullifierHash recipient amount txSignature, session =>
      session.write weather
        (saveNullifier session.backend.db nullifierHash poolAddress recipient amount txSignature)
  | .addLeaf leafIndex commitment depth, session =>
      let added := weather.addLeaf leafIndex commitment depth session.backend.tree
      (added.1.mapError .tree, { session with backend := { session.backend with tree := added.2 } })
  | .recordDeposit _ _, session => (.ok (), session)
  | .recordTreeError _, session => (.ok (), session)
  | .invalidatePool, session =>
      (if weather.invalidates then .ok () else .error .redis, session)

/-- One attempt at a transaction. -/
def process (config : Config) (transaction : Transaction) (backend : Backend Tree) :
    Except IndexerError Unit × Backend Tree :=
  let ended := run (serve poolAddress weather transaction.logs)
    (processTransaction config transaction.signature) ⟨backend, 0⟩
  (ended.1, ended.2.backend)

/-- The node and the database answer throughout; the tree and Redis may do as they like. -/
structure Complete : Prop where
  transaction : weather.transaction = none
  database : ∀ query, weather.database query = .answered

end Service

/-- An attempt with its weather. -/
structure Attempt (Tree : Type) where
  weather : Weather Tree
  transaction : Transaction

def processAll {Tree : Type} (poolAddress : String) (config : Config)
    (attempts : List (Attempt Tree)) (backend : Backend Tree) : Backend Tree :=
  attempts.foldl (fun backend attempt =>
    (process poolAddress attempt.weather config attempt.transaction backend).2) backend

/-! What the payloads of a transaction come to, each saved unless its key is known. -/
section Settling
variable (poolAddress : String) (txSignature : Signature)

def has (db : Db) : Payload → Bool
  | .deposit leafIndex _ _ => commitmentExists db leafIndex
  | .withdraw nullifierHash _ => isNullifierUsed db nullifierHash

def record (db : Db) : Payload → Db
  | .deposit leafIndex commitment newRoot =>
      saveDeposit db leafIndex commitment newRoot poolAddress txSignature
  | .withdraw nullifierHash recipient =>
      saveNullifier db nullifierHash poolAddress recipient 0 txSignature

def settle (db : Db) (payload : Payload) : Db :=
  if has db payload then db else record poolAddress txSignature db payload

def settleAll (payloads : List Payload) (db : Db) : Db :=
  payloads.foldl (settle poolAddress txSignature) db

/-- The same rows, whatever their ids. -/
structure SameRows (db other : Db) : Prop where
  commitments : db.commitments.rows = other.commitments.rows
  roots : db.roots.contents = other.roots.contents
  nullifiers : db.nullifiers.rows = other.nullifiers.rows

variable {poolAddress txSignature} {db other third : Db}

theorem same_refl (db : Db) : SameRows db db := ⟨rfl, rfl, rfl⟩

theorem same_trans (first : SameRows db other) (second : SameRows other third) :
    SameRows db third :=
  ⟨first.commitments.trans second.commitments, first.roots.trans second.roots,
    first.nullifiers.trans second.nullifiers⟩

theorem same_symm (same : SameRows db other) : SameRows other db :=
  ⟨same.commitments.symm, same.roots.symm, same.nullifiers.symm⟩

theorem table_same {Row Key : Type} {key : Row → Key} {table held : UniqueTable key}
    (same : table.rows = held.rows) : table = held := by
  cases table
  cases held
  cases same
  rfl

theorem same_has (same : SameRows db other) (payload : Payload) :
    has db payload = has other payload := by
  cases payload with
  | deposit leafIndex commitment newRoot =>
      exact congrArg (UniqueTable.has · leafIndex) (table_same same.commitments)
  | withdraw nullifierHash recipient =>
      exact congrArg (UniqueTable.has · nullifierHash) (table_same same.nullifiers)

theorem same_record (same : SameRows db other) (payload : Payload) :
    SameRows (record poolAddress txSignature db payload)
      (record poolAddress txSignature other payload) := by
  cases payload with
  | deposit leafIndex commitment newRoot =>
      have rows : ∀ row,
          (db.commitments.insert row).rows = (other.commitments.insert row).rows := by
        simp [table_same same.commitments]
      refine ⟨rows _, ?_, same.nullifiers⟩
      simp [record, Database.saveDeposit, same.roots]
  | withdraw nullifierHash recipient =>
      have rows : ∀ row, (db.nullifiers.insert row).rows = (other.nullifiers.insert row).rows := by
        simp [table_same same.nullifiers]
      exact ⟨same.commitments, same.roots, rows _⟩

theorem has_record (db : Db) (payload : Payload) :
    has (record poolAddress txSignature db payload) payload = true := by
  cases payload with
  | deposit leafIndex commitment newRoot => exact UniqueTable.has_insert _ _
  | withdraw nullifierHash recipient => exact UniqueTable.has_insert _ _

theorem has_settle (db : Db) (payload : Payload) :
    has (settle poolAddress txSignature db payload) payload = true := by
  rw [settle]
  split
  · assumption
  · exact has_record db payload

theorem insert_has {Row Key : Type} [DecidableEq Key] {key : Row → Key} {table : UniqueTable key}
    {k : Key} (known : table.has k = true) (row : Row) : (table.insert row).has k = true := by
  obtain ⟨held, member, keyed⟩ := (UniqueTable.has_iff _ _).mp known
  exact (UniqueTable.has_iff _ _).mpr
    ⟨held, (UniqueTable.mem_insert_iff _ _ _).mpr (Or.inl member), keyed⟩

/-- What is known stays known. -/
theorem settle_keeps {payload : Payload} (known : has db payload = true) (later : Payload) :
    has (settle poolAddress txSignature db later) payload = true := by
  rw [settle]
  split
  · exact known
  · cases later with
    | deposit leafIndex commitment newRoot =>
        cases payload with
        | deposit _ _ _ => exact insert_has known _
        | withdraw _ _ => exact known
    | withdraw nullifierHash recipient =>
        cases payload with
        | deposit _ _ _ => exact known
        | withdraw _ _ => exact insert_has known _

theorem settle_all_keeps (payloads : List Payload) {payload : Payload}
    (known : has db payload = true) :
    has (settleAll poolAddress txSignature payloads db) payload = true := by
  induction payloads generalizing db with
  | nil => exact known
  | cons later rest ih => exact ih (settle_keeps known later)

theorem settle_all_has (payloads : List Payload) {payload : Payload} (member : payload ∈ payloads) :
    has (settleAll poolAddress txSignature payloads db) payload = true := by
  induction payloads generalizing db with
  | nil => exact absurd member List.not_mem_nil
  | cons first rest ih =>
      rcases List.mem_cons.mp member with rfl | later
      · exact settle_all_keeps rest (has_settle db _)
      · exact ih later

/-- Nothing is left to do where everything is known. -/
theorem settle_all_known {payloads : List Payload}
    (known : ∀ payload ∈ payloads, has db payload = true) :
    settleAll poolAddress txSignature payloads db = db := by
  induction payloads with
  | nil => rfl
  | cons first rest ih =>
      have settled : settle poolAddress txSignature db first = db :=
        if_pos (known first List.mem_cons_self)
      change settleAll poolAddress txSignature rest (settle poolAddress txSignature db first) = db
      rw [settled]
      exact ih fun payload member => known payload (List.mem_cons_of_mem _ member)

theorem settle_all_append (front back : List Payload) (db : Db) :
    settleAll poolAddress txSignature (front ++ back) db =
      settleAll poolAddress txSignature back (settleAll poolAddress txSignature front db) :=
  List.foldl_append

/-- Starting over after some of the payloads ends where the longer run ends. -/
theorem settle_all_again {done again payloads : List Payload} (first : done <+: payloads)
    (second : again <+: payloads) (db : Db) :
    ∃ longer, longer <+: payloads ∧ again <+: longer ∧
      settleAll poolAddress txSignature again (settleAll poolAddress txSignature done db) =
        settleAll poolAddress txSignature longer db := by
  rcases List.prefix_or_prefix_of_prefix first second with ⟨rest, rfl⟩ | behind
  · refine ⟨done ++ rest, second, List.prefix_rfl, ?_⟩
    have known : settleAll poolAddress txSignature done
        (settleAll poolAddress txSignature done db) = settleAll poolAddress txSignature done db :=
      settle_all_known fun payload member => settle_all_has done member
    rw [settle_all_append, settle_all_append, known]
  · refine ⟨done, first, behind, settle_all_known fun payload member => ?_⟩
    exact settle_all_has done (behind.subset member)

end Settling

/-! The tables of the indexer's own runs are these without the pool and the roots. -/
section Tables
variable (poolAddress : String) (txSignature : Signature)

def tables (db : Db) : Tables where
  commitments := db.commitments.project
    (fun row => ⟨row.leafIndex, row.commitment, row.txSignature⟩) fun _ => rfl
  nullifiers := db.nullifiers.project
    (fun row => ⟨row.nullifierHash, row.recipient, row.amount, row.txSignature⟩) fun _ => rfl

theorem tables_has (db : Db) (payload : Payload) : (tables db).has payload = has db payload := by
  cases payload with
  | deposit leafIndex commitment newRoot =>
      exact UniqueTable.has_project _ _ (fun _ => rfl) _
  | withdraw nullifierHash recipient => exact UniqueTable.has_project _ _ (fun _ => rfl) _

theorem tables_record (db : Db) (payload : Payload) :
    tables (record poolAddress txSignature db payload) =
      (tables db).record txSignature payload := by
  cases payload with
  | deposit leafIndex commitment newRoot =>
      simp only [tables, record, Database.saveDeposit, Tables.record, UniqueTable.insert_project]
  | withdraw nullifierHash recipient =>
      simp only [tables, record, Database.saveNullifier, Tables.record, UniqueTable.insert_project]

/-- Where every query is answered, both models write the same. -/
theorem tables_settle (db : Db) (payload : Payload) (queries : Nat) :
    (savePayload (fun _ => false) txSignature payload queries (tables db)).tables =
      tables (settle poolAddress txSignature db payload) := by
  cases known : has db payload with
  | true => simp [savePayload, settle, tables_has, known]
  | false => simp [savePayload, settle, tables_has, known, tables_record]

/-- A deposit is what the indexer makes of it. -/
theorem settle_deposit (db : Db) (deposit : Deposit) :
    settle poolAddress deposit.txSignature db
        (.deposit deposit.leafIndex deposit.commitment deposit.newRoot) =
      index poolAddress db deposit := rfl

end Tables

/-! One attempt, from a database with the rows of `db`. -/
section Attempts
variable {Tree : Type} {poolAddress : String} {weather : Weather Tree} {logs : List String}
  {config : Config} {txSignature : Signature} {db : Db}

/-- What an attempt has come to: the payloads `done`, and a query unanswered if it failed. -/
def Reaches (poolAddress : String) (weather : Weather Tree) (txSignature : Signature)
    (payloads : List Payload) (db : Db) (result : Except IndexerError Unit)
    (session : Session Tree) : Prop :=
  ∃ done, done <+: payloads ∧
    SameRows session.backend.db (settleAll poolAddress txSignature done db) ∧
    ((result = .ok () ∧ done = payloads) ∨
      (∃ failure, result = .error failure) ∧ ∃ query, weather.database query ≠ .answered)

variable {payloads : List Payload} {session : Session Tree}

theorem reaches_stays (same : SameRows session.backend.db db) {failure : IndexerError}
    {query : Nat} (missed : weather.database query ≠ .answered) :
    Reaches poolAddress weather txSignature payloads db (.error failure) session :=
  ⟨[], List.nil_prefix, same, Or.inr ⟨⟨failure, rfl⟩, query, missed⟩⟩

theorem reaches_end (same : SameRows session.backend.db
    (settleAll poolAddress txSignature payloads db)) :
    Reaches poolAddress weather txSignature payloads db (.ok ()) session :=
  ⟨payloads, List.prefix_rfl, same, Or.inl ⟨rfl, rfl⟩⟩

/-- What is written when the query is not refused. -/
theorem write_reaches {payload : Payload} (same : SameRows session.backend.db db)
    (new : has db payload = false) :
    Reaches poolAddress weather txSignature [payload] db
      (session.write weather (record poolAddress txSignature session.backend.db payload)).1
      (session.write weather (record poolAddress txSignature session.backend.db payload)).2 := by
  have settled : settle poolAddress txSignature db payload =
      record poolAddress txSignature db payload := if_neg (by simp [new])
  have written : SameRows (record poolAddress txSignature session.backend.db payload)
      (settleAll poolAddress txSignature [payload] db) := by
    change SameRows _ (settle poolAddress txSignature db payload)
    rw [settled]
    exact same_record same payload
  rw [Session.write]
  cases reply : weather.database session.queries with
  | answered => exact reaches_end written
  | lost =>
      refine ⟨[payload], List.prefix_rfl, written, Or.inr ⟨⟨_, rfl⟩, session.queries, ?_⟩⟩
      simp [reply]
  | refused drawn =>
      have missed : weather.database session.queries ≠ .answered := by simp [reply]
      cases drawn with
      | false =>
          apply reaches_stays _ missed
          exact same
      | true =>
          apply reaches_stays _ missed
          exact ⟨same.commitments, same.roots, same.nullifiers⟩

/-- What is done about the tree and the cache, whatever comes of it. -/
def indexLeaf (config : Config) (leafIndex : Int64) (commitment : Bytes32) : Work Unit := do
  let added ← attempt
    (Indexer.addLeaf leafIndex.toUInt64.toNat (hexEncode commitment) config.merkleTreeDepth)
  reportLeaf leafIndex added
  let _ ← attempt invalidatePool
  pure ()

/-- Behind the insertion nothing fails and the database is left alone. -/
theorem index_leaf_runs (leafIndex : Int64) (commitment : Bytes32) (session : Session Tree) :
    ∃ later, later.backend.db = session.backend.db ∧
      run (serve poolAddress weather logs) (indexLeaf config leafIndex commitment) session =
        (.ok (), later) := by
  have attempted := run_attempt (serve poolAddress weather logs) (Indexer.addLeaf
    leafIndex.toUInt64.toNat (hexEncode commitment) config.merkleTreeDepth) session
  have reported : ∀ added (later : Session Tree),
      run (serve poolAddress weather logs) (reportLeaf leafIndex added) later =
        (.ok (), later) := by
    intro added later
    cases added with
    | ok root => rfl
    | error failure => cases failure <;> rfl
  rw [indexLeaf, run_bind_ok _ attempted, run_bind_ok _ (reported _ _),
    run_bind_ok _ (run_attempt _ _ _)]
  refine ⟨_, ?_, rfl⟩
  rfl

theorem reaches_followed {first : Work Unit} {next : Unit → Work Unit}
    (reached : Reaches poolAddress weather txSignature payloads db
      (run (serve poolAddress weather logs) first session).1
      (run (serve poolAddress weather logs) first session).2)
    (rest : ∀ later : Session Tree, ∃ last : Session Tree, last.backend.db = later.backend.db ∧
      run (serve poolAddress weather logs) (next ()) later = (.ok (), last)) :
    Reaches poolAddress weather txSignature payloads db
      (run (serve poolAddress weather logs) (first >>= next) session).1
      (run (serve poolAddress weather logs) (first >>= next) session).2 := by
  rw [run_bind]
  rcases ran : run (serve poolAddress weather logs) first session with ⟨result, later⟩
  rw [ran] at reached
  cases result with
  | error failure => exact reached
  | ok value =>
      obtain ⟨last, unmoved, runs⟩ := rest later
      obtain ⟨done, inside, same, ended⟩ := reached
      dsimp only
      rw [runs]
      refine ⟨done, inside, ?_, ended⟩
      rw [unmoved]
      exact same

/-- A query that asks whether the payload is known, and what saves it if it is not. -/
theorem guarded_reaches {payload : Payload} {asks : Work Bool} {saves : Work Unit}
    (same : SameRows session.backend.db db)
    (asked : run (serve poolAddress weather logs) asks session =
      session.read weather (has session.backend.db payload))
    (saved : ∀ later : Session Tree, later.backend = session.backend → has db payload = false →
      Reaches poolAddress weather txSignature [payload] db
        (run (serve poolAddress weather logs) saves later).1
        (run (serve poolAddress weather logs) saves later).2) :
    Reaches poolAddress weather txSignature [payload] db
      (run (serve poolAddress weather logs)
        (asks >>= fun known => if known then pure () else saves) session).1
      (run (serve poolAddress weather logs)
        (asks >>= fun known => if known then pure () else saves) session).2 := by
  rw [run_bind, asked, Session.read, same_has same]
  by_cases answered : weather.database session.queries = .answered
  · rw [if_pos answered]
    cases known : has db payload with
    | true =>
        apply reaches_end
        have settled : settle poolAddress txSignature db payload = db := if_pos known
        simpa [settleAll, settled] using same
    | false => exact saved _ rfl known
  · rw [if_neg answered]
    exact reaches_stays same answered

/-- A line is taken as far as its queries are answered. -/
theorem log_reaches (log : String) (same : SameRows session.backend.db db) :
    Reaches poolAddress weather txSignature (parseLog log).toList db
      (run (serve poolAddress weather logs) (processLog config txSignature log) session).1
      (run (serve poolAddress weather logs) (processLog config txSignature log) session).2 := by
  rw [processLog]
  cases parseLog log with
  | none =>
      apply reaches_end
      exact same
  | some payload =>
      cases payload with
      | deposit leafIndex commitment newRoot =>
          apply guarded_reaches same rfl
          intro later backend new
          rw [← backend] at same
          apply reaches_followed (write_reaches same new)
          exact fun later => index_leaf_runs leafIndex commitment later
      | withdraw nullifierHash recipient =>
          apply guarded_reaches same rfl
          intro later backend new
          rw [← backend] at same
          exact write_reaches same new

theorem logs_reach (lines : List String) (same : SameRows session.backend.db db) :
    Reaches poolAddress weather txSignature (lines.filterMap parseLog) db
      (run (serve poolAddress weather logs) (processLogs config txSignature lines) session).1
      (run (serve poolAddress weather logs) (processLogs config txSignature lines) session).2 := by
  induction lines generalizing session db with
  | nil => exact reaches_end same
  | cons log rest ih =>
      have first := @log_reaches _ poolAddress weather logs config txSignature _ _ log same
      rw [processLogs, run_bind]
      rcases ran : run (serve poolAddress weather logs) (processLog config txSignature log) session
        with ⟨result, later⟩
      rw [ran] at first
      have split : (log :: rest).filterMap parseLog =
          (parseLog log).toList ++ rest.filterMap parseLog := by
        cases parsed : parseLog log <;> simp [parsed]
      rw [split]
      obtain ⟨done, inside, reached, ended⟩ := first
      cases result with
      | error failure =>
          refine ⟨done, inside.trans (List.prefix_append _ _), reached, ?_⟩
          rcases ended with ⟨fine, _⟩ | failed
          · cases fine
          · exact Or.inr failed
      | ok value =>
          obtain rfl : done = (parseLog log).toList := by
            rcases ended with ⟨_, whole⟩ | ⟨⟨failure, failed⟩, _⟩
            · exact whole
            · cases failed
          obtain ⟨more, further, same, closed⟩ := ih reached
          refine ⟨(parseLog log).toList ++ more, ?_, ?_, ?_⟩
          · exact (List.prefix_append_right_inj _).mpr further
          · rw [settle_all_append]
            exact same
          · rcases closed with ⟨fine, whole⟩ | failed
            · exact Or.inl ⟨fine, by rw [whole]⟩
            · exact Or.inr failed

/-- An attempt comes to some of the payloads, and to all of them if it is answered. -/
theorem process_reaches (config : Config) (transaction : Transaction) (backend : Backend Tree)
    (same : SameRows backend.db db) :
    ∃ done, done <+: transaction.payloads ∧
      SameRows (process poolAddress weather config transaction backend).2.db
        (settleAll poolAddress transaction.signature done db) ∧
      (Complete weather → (process poolAddress weather config transaction backend).1 = .ok () ∧
        done = transaction.payloads) := by
  have fetched : run (serve poolAddress weather transaction.logs)
      (getTransaction transaction.signature) ⟨backend, 0⟩ =
        (rpcAnswer weather.transaction (some transaction.logs), ⟨backend, 0⟩) := rfl
  rw [process, processTransaction]
  cases fault : weather.transaction with
  | some failure =>
      refine ⟨[], List.nil_prefix, ?_, fun complete => ?_⟩
      · rw [fault] at fetched
        rw [run_bind, fetched]
        cases failure <;> exact same
      · rw [complete.transaction] at fault
        cases fault
  | none =>
      rw [fault] at fetched
      rw [run_bind, fetched]
      obtain ⟨done, inside, rows, ended⟩ := @logs_reach _ poolAddress weather transaction.logs
        config transaction.signature db ⟨backend, 0⟩ transaction.logs same
      refine ⟨done, inside, rows, fun complete => ?_⟩
      rcases ended with whole | ⟨_, query, missed⟩
      · exact whole
      · exact absurd (complete.database query) missed

/-- Where everything is known nothing is done but asking. -/
theorem log_idle (log : String)
    (known : ∀ payload ∈ (parseLog log).toList, has session.backend.db payload = true) :
    (run (serve poolAddress weather logs) (processLog config txSignature log) session).2.backend =
      session.backend := by
  have stays : ∀ {payload : Payload} (asks : Work Bool) (saves : Work Unit),
      has session.backend.db payload = true →
      run (serve poolAddress weather logs) asks session =
        session.read weather (has session.backend.db payload) →
      (run (serve poolAddress weather logs)
        (asks >>= fun known => if known then pure () else saves) session).2.backend =
          session.backend := by
    intro payload asks saves found asked
    rw [run_bind, asked, Session.read, found]
    by_cases answered : weather.database session.queries = .answered
    · rw [if_pos answered]
      rfl
    · rw [if_neg answered]
  rw [processLog]
  cases parsed : parseLog log with
  | none => rfl
  | some payload =>
      rw [parsed] at known
      have found := known payload (List.mem_singleton_self payload)
      cases payload with
      | deposit leafIndex commitment newRoot => exact stays _ _ found rfl
      | withdraw nullifierHash recipient => exact stays _ _ found rfl

theorem logs_idle (lines : List String)
    (known : ∀ payload ∈ lines.filterMap parseLog, has session.backend.db payload = true) :
    (run (serve poolAddress weather logs)
      (processLogs config txSignature lines) session).2.backend = session.backend := by
  induction lines generalizing session with
  | nil => rfl
  | cons log rest ih =>
      have split : (log :: rest).filterMap parseLog =
          (parseLog log).toList ++ rest.filterMap parseLog := by
        cases parsed : parseLog log <;> simp [parsed]
      rw [split] at known
      have first := @log_idle _ poolAddress weather logs config txSignature session log
        fun payload member => known payload (List.mem_append_left _ member)
      rw [processLogs, run_bind]
      rcases ran : run (serve poolAddress weather logs) (processLog config txSignature log) session
        with ⟨result, later⟩
      rw [ran] at first
      cases result with
      | error failure => exact first
      | ok value =>
          refine (ih fun payload member => ?_).trans first
          rw [first]
          exact known payload (List.mem_append_right _ member)

theorem process_idle (config : Config) (transaction : Transaction) (backend : Backend Tree)
    (known : ∀ payload ∈ transaction.payloads, has backend.db payload = true) :
    (process poolAddress weather config transaction backend).2 = backend := by
  have fetched : run (serve poolAddress weather transaction.logs)
      (getTransaction transaction.signature) ⟨backend, 0⟩ =
        (rpcAnswer weather.transaction (some transaction.logs), ⟨backend, 0⟩) := rfl
  rw [process, processTransaction, run_bind, fetched]
  cases weather.transaction with
  | some failure => cases failure <;> rfl
  | none => exact @logs_idle _ poolAddress weather _ config _ ⟨backend, 0⟩ _ known

/-- Any attempts at a transaction have come to some of its payloads. -/
theorem attempts_reach (config : Config) (transaction : Transaction) (earlier : List (Weather Tree))
    {done : List Payload} (inside : done <+: transaction.payloads) (backend : Backend Tree)
    (same : SameRows backend.db (settleAll poolAddress transaction.signature done db)) :
    ∃ reached, reached <+: transaction.payloads ∧
      SameRows (processAll poolAddress config (earlier.map (⟨·, transaction⟩)) backend).db
        (settleAll poolAddress transaction.signature reached db) := by
  induction earlier generalizing done backend with
  | nil => exact ⟨done, inside, same⟩
  | cons weather rest ih =>
      obtain ⟨next, further, rows, _⟩ := @process_reaches _ poolAddress weather _ config transaction
        backend same
      obtain ⟨longer, within, _, again⟩ := settle_all_again inside further db
      rw [again] at rows
      exact ih within _ rows

/-- What is known stays known, whatever is attempted. -/
theorem attempts_keep (config : Config) (attempts : List (Attempt Tree)) (backend : Backend Tree)
    {payload : Payload} (known : has backend.db payload = true) :
    has (processAll poolAddress config attempts backend).db payload = true := by
  induction attempts generalizing backend with
  | nil => exact known
  | cons attempt rest ih =>
      obtain ⟨done, _, rows, _⟩ := @process_reaches _ poolAddress attempt.weather _ config
        attempt.transaction backend (same_refl _)
      apply ih
      rw [same_has rows]
      exact settle_all_keeps done known

/-- After a complete attempt every payload of the transaction is known. -/
theorem complete_known (config : Config) {past : List (Attempt Tree)} {attempt : Attempt Tree}
    (member : attempt ∈ past) (complete : Complete attempt.weather) (start : Backend Tree)
    {payload : Payload} (held : payload ∈ attempt.transaction.payloads) :
    has (processAll poolAddress config past start).db payload = true := by
  obtain ⟨before, after, rfl⟩ := List.append_of_mem member
  obtain ⟨done, _, rows, ended⟩ := @process_reaches _ poolAddress attempt.weather _ config
    attempt.transaction (processAll poolAddress config before start) (same_refl _)
  have whole := (ended complete).2
  subst whole
  have split : processAll poolAddress config (before ++ attempt :: after) start =
      processAll poolAddress config after (process poolAddress attempt.weather config
        attempt.transaction (processAll poolAddress config before start)).2 := by
    simp [processAll]
  rw [split]
  apply attempts_keep
  rw [same_has rows]
  exact settle_all_has _ held

theorem attempts_idle (config : Config) (later : List (Attempt Tree)) (backend : Backend Tree)
    (known : ∀ attempt ∈ later, ∀ payload ∈ attempt.transaction.payloads,
      has backend.db payload = true) :
    processAll poolAddress config later backend = backend := by
  induction later with
  | nil => rfl
  | cons attempt rest ih =>
      have still := @process_idle _ poolAddress attempt.weather config attempt.transaction backend
        (known attempt List.mem_cons_self)
      change processAll poolAddress config rest (process poolAddress attempt.weather config
        attempt.transaction backend).2 = backend
      rw [still]
      exact ih fun other member => known other (List.mem_cons_of_mem _ member)

/-- A transaction stopped at will and taken up again leaves the rows of one uninterrupted run,
and transactions that were once got through change nothing however often they come again. -/
theorem reprocessing_converges (poolAddress : String) (config : Config) (start : Backend Tree)
    (transaction : Transaction) (earlier : List (Weather Tree)) (again whole : Weather Tree)
    (repeated : Complete again) (uninterrupted : Complete whole)
    (past later : List (Attempt Tree))
    (covered : ∀ attempt ∈ later, ∃ done ∈ past,
      done.transaction = attempt.transaction ∧ Complete done.weather) :
    ((process poolAddress again config transaction
        (processAll poolAddress config (earlier.map (⟨·, transaction⟩)) start)).1 = .ok () ∧
      SameRows (process poolAddress again config transaction
          (processAll poolAddress config (earlier.map (⟨·, transaction⟩)) start)).2.db
        (process poolAddress whole config transaction start).2.db) ∧
    processAll poolAddress config later (processAll poolAddress config past start) =
      processAll poolAddress config past start := by
  constructor
  · obtain ⟨done, inside, stopped⟩ := attempts_reach config transaction earlier
      List.nil_prefix start (same_refl start.db)
    obtain ⟨all, _, rows, ended⟩ := @process_reaches _ poolAddress again _ config transaction
      _ stopped
    obtain ⟨fine, rfl⟩ := ended repeated
    obtain ⟨full, _, once, closed⟩ := @process_reaches _ poolAddress whole _ config transaction
      start (same_refl start.db)
    obtain rfl := (closed uninterrupted).2
    obtain ⟨longer, within, covers, same⟩ := settle_all_again inside List.prefix_rfl start.db
    obtain rfl := within.eq_of_length_le covers.length_le
    rw [same] at rows
    exact ⟨fine, same_trans rows (same_symm once)⟩
  · apply attempts_idle
    intro attempt member payload held
    obtain ⟨done, earlier, same, complete⟩ := covered attempt member
    rw [← same] at held
    exact complete_known config earlier complete start held

end Attempts

/-! A transaction with one deposit over the real tree, stopped before its insertion. -/
section Sample

/-- The tree of the backend, with a merkle service that answers as given. -/
def hostWeather (answers : TreeRecovery.HashService) (database : Nat → Reply) :
    Weather TreeRecovery.Host where
  transaction := none
  database := database
  addLeaf := fun leafIndex commitment depth tree =>
    run (TreeRecovery.serveHost answers) (RedisTree.addLeaf leafIndex commitment depth) tree
  invalidates := true

def sampleWeather (database : Nat → Reply) : Weather TreeRecovery.Host :=
  hostWeather (fun _ left _ => .ok left) database

theorem sample_complete : Complete (sampleWeather fun _ => .answered) := ⟨rfl, fun _ => rfl⟩

def sampleTransaction : Transaction where
  signature := "transaction"
  logs := [eventLine (.deposit ⟨Bytes32.ofNat 1, 0, 0, Bytes32.ofNat 2⟩)]

def sampleStart : Backend TreeRecovery.Host := ⟨Db.empty, ⟨TreeRecovery.emptyStore, 0⟩⟩

theorem stopped_before_insertion :
    ((process "pool" (sampleWeather fun _ => .answered) ⟨1000, 10, 20⟩ sampleTransaction
        (processAll "pool" ⟨1000, 10, 20⟩
          ([sampleWeather fun query => if query = 1 then .refused true else .answered].map
            (⟨·, sampleTransaction⟩)) sampleStart)).1 = .ok () ∧
      SameRows (process "pool" (sampleWeather fun _ => .answered) ⟨1000, 10, 20⟩ sampleTransaction
          (processAll "pool" ⟨1000, 10, 20⟩
            ([sampleWeather fun query => if query = 1 then .refused true else .answered].map
              (⟨·, sampleTransaction⟩)) sampleStart)).2.db
        (process "pool" (sampleWeather fun _ => .answered) ⟨1000, 10, 20⟩ sampleTransaction
          sampleStart).2.db) ∧
    processAll "pool" ⟨1000, 10, 20⟩ [⟨sampleWeather fun _ => .lost, sampleTransaction⟩]
        (processAll "pool" ⟨1000, 10, 20⟩
          [⟨sampleWeather fun _ => .answered, sampleTransaction⟩] sampleStart) =
      processAll "pool" ⟨1000, 10, 20⟩
        [⟨sampleWeather fun _ => .answered, sampleTransaction⟩] sampleStart :=
  reprocessing_converges "pool" ⟨1000, 10, 20⟩ sampleStart sampleTransaction _ _ _
    sample_complete sample_complete _ _ fun attempt member =>
      ⟨_, List.mem_singleton_self _, by rw [List.mem_singleton.mp member], sample_complete⟩

end Sample

end PrivateTransfer.Reindexing
