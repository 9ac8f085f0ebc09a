import PrivateTransfer.Accounting
import PrivateTransfer.IndexerFailures

/-!
What the index holds when nothing fails. A log line counts by the number of its
bytes, whichever program wrote it and whether or not the transaction took
effect, and the first line with a leaf index keeps it.
-/

namespace PrivateTransfer.Indexer

open EventLog MerkleService PoolState Script TreeRecovery

/-! Without failures the tables are what the payloads make of them, in order. -/
section Replay

/-- A payload with the transaction it is read from. -/
abbrev Claim := Signature × Payload

def Entry.claims (entry : Entry) : List Claim := entry.payloads.map (entry.signature, ·)

def recordAll (claims : List Claim) (tables : Tables) : Tables :=
  claims.foldl (fun tables claim => tables.record claim.1 claim.2) tables

theorem record_known {tables : Tables} {payload : Payload} (known : tables.has payload = true)
    (txSignature : Signature) : tables.record txSignature payload = tables := by
  cases payload with
  | deposit leafIndex commitment newRoot =>
      have same : tables.commitments.insert ⟨leafIndex, commitment, txSignature⟩ =
          tables.commitments := UniqueTable.insert_present known
      rw [Tables.record, same]
  | withdraw nullifierHash recipient =>
      have same : tables.nullifiers.insert ⟨nullifierHash, recipient, 0, txSignature⟩ =
          tables.nullifiers := UniqueTable.insert_present known
      rw [Tables.record, same]

variable {weather : Weather}

theorem save_payload_calm (calm : Calm weather) (txSignature : Signature) (payload : Payload)
    (queries : Nat) (tables : Tables) :
    (savePayload weather.database txSignature payload queries tables).answered = true ∧
      (savePayload weather.database txSignature payload queries tables).tables =
        tables.record txSignature payload := by
  rw [savePayload, calm.database, calm.database]
  cases known : tables.has payload with
  | true => exact ⟨rfl, (record_known known txSignature).symm⟩
  | false => exact ⟨rfl, rfl⟩

theorem handle_calm_tables (calm : Calm weather) (entry : Entry) (queries : Nat)
    (tables : Tables) :
    (handle weather entry queries tables).tables = recordAll entry.claims tables := by
  rw [handle, calm.transaction, Entry.claims]
  induction entry.payloads generalizing queries tables with
  | nil => rfl
  | cons payload rest ih =>
      obtain ⟨answered, saved⟩ := save_payload_calm calm entry.signature payload queries tables
      dsimp only at ih ⊢
      rw [savePayloads, if_pos answered, ih, saved]
      rfl

theorem handle_all_calm_tables (calm : Calm weather) (batch : List Entry)
    (newest : Option Signature) (queries : Nat) (tables : Tables) :
    (handleAll weather batch newest queries tables).2 =
      recordAll (batch.flatMap Entry.claims) tables := by
  induction batch generalizing newest queries tables with
  | nil => rfl
  | cons entry rest ih =>
      rw [handleAll, ih, handle_calm_tables calm, List.flatMap_cons, recordAll, recordAll,
        recordAll, List.foldl_append]

/-- The commitment a payload claims a leaf index for. -/
def commitmentAt (leafIndex : Int64) : Payload → Option Bytes32
  | .deposit index commitment _ => if index = leafIndex then some commitment else none
  | .withdraw _ _ => none

/-- Of all payloads the first one with the leaf index decides. -/
theorem record_all_deposits (claims : List Claim) (tables : Tables) (leafIndex : Int64) :
    ((recordAll claims tables).commitments.find leafIndex).map CommitmentRow.commitment =
      ((tables.commitments.find leafIndex).map CommitmentRow.commitment).or
        ((claims.map Prod.snd).findSome? (commitmentAt leafIndex)) := by
  induction claims generalizing tables with
  | nil => exact Option.or_none.symm
  | cons claim rest ih =>
      obtain ⟨txSignature, payload⟩ := claim
      have first : ((tables.record txSignature payload).commitments.find leafIndex).map
          CommitmentRow.commitment =
          ((tables.commitments.find leafIndex).map CommitmentRow.commitment).or
            (commitmentAt leafIndex payload) := by
        cases payload with
        | withdraw nullifierHash recipient => exact Option.or_none.symm
        | deposit index commitment newRoot =>
            rw [Tables.record, UniqueTable.find_insert, Option.map_or, commitmentAt]
            by_cases same : index = leafIndex
            · rw [if_pos same, if_pos same]
              rfl
            · rw [if_neg same, if_neg same]
              rfl
      rw [recordAll, List.foldl_cons, ← recordAll, ih, first, List.map_cons, List.findSome?_cons]
      cases (tables.commitments.find leafIndex).map CommitmentRow.commitment with
      | some kept => rfl
      | none => cases commitmentAt leafIndex payload <;> rfl

theorem record_all_withdrawals (claims : List Claim) (tables : Tables) (nullifierHash : Bytes32) :
    (recordAll claims tables).nullifiers.has nullifierHash = true ↔
      tables.nullifiers.has nullifierHash = true ∨
        ∃ recipient, .withdraw nullifierHash recipient ∈ claims.map Prod.snd := by
  induction claims generalizing tables with
  | nil => simp [recordAll]
  | cons claim rest ih =>
      obtain ⟨txSignature, payload⟩ := claim
      rw [recordAll, List.foldl_cons, ← recordAll, ih, List.map_cons]
      cases payload with
      | deposit leafIndex commitment newRoot => simp [Tables.record]
      | withdraw hash recipient =>
          have first : (tables.nullifiers.insert ⟨hash, recipient, 0, txSignature⟩).has
              nullifierHash = true ↔
              tables.nullifiers.has nullifierHash = true ∨ hash = nullifierHash := by
            rw [UniqueTable.has_find, UniqueTable.find_insert, UniqueTable.has_find]
            by_cases same : hash = nullifierHash <;> simp [same]
          rw [Tables.record, first]
          constructor
          · rintro ((known | rfl) | ⟨other, later⟩)
            · exact Or.inl known
            · exact Or.inr ⟨recipient, List.mem_cons_self⟩
            · exact Or.inr ⟨other, List.mem_cons_of_mem _ later⟩
          · rintro (known | ⟨other, member⟩)
            · exact Or.inl (Or.inl known)
            · rcases List.mem_cons.mp member with here | later
              · cases here
                exact Or.inl (Or.inr rfl)
              · exact Or.inr ⟨other, later⟩

end Replay

/-! The index against the events of the program that took effect. -/
section Index
variable {weather : Weather}

def Chain.payloads (chain : Chain) : List Payload := chain.entries.flatMap Entry.payloads

def Chain.events (chain : Chain) : List Event := chain.entries.flatMap Entry.events

def Deposited (chain : Chain) (leafIndex : Int64) (commitment : Bytes32) : Prop :=
  ∃ deposit, .deposit deposit ∈ chain.events ∧ deposit.leafIndex.toInt64 = leafIndex ∧
    deposit.commitment = commitment

def Withdrawn (chain : Chain) (nullifierHash : Bytes32) : Prop :=
  ∃ withdraw, .withdraw withdraw ∈ chain.events ∧ withdraw.nullifierHash = nullifierHash

/-- The tables hold what the program emitted in transactions that succeeded, and nothing else. -/
structure Authentic (chain : Chain) (tables : Tables) : Prop where
  deposits : ∀ leafIndex commitment,
    (∃ row ∈ tables.commitments.rows, row.leafIndex = leafIndex ∧ row.commitment = commitment) ↔
      Deposited chain leafIndex commitment
  withdrawals : ∀ nullifierHash,
    (∃ row ∈ tables.nullifiers.rows, row.nullifierHash = nullifierHash) ↔
      Withdrawn chain nullifierHash

/-- The tables after `process_transaction` on every transaction of the chain. -/
def indexed (weather : Weather) (config : Config) (chain : Chain) : Tables :=
  (run (serve chain.entries weather) (processAll config (chain.entries.map Entry.signature) none)
    ⟨freshBackend, 0, 0, [], []⟩).2.backend.tables

theorem indexed_calm (calm : Calm weather) (config : Config) (chain : Chain) :
    indexed weather config chain =
      recordAll (chain.entries.flatMap Entry.claims) freshBackend.tables := by
  obtain ⟨queries, tree, reported, processed⟩ := process_all_runs weather chain.distinct config
    chain.entries (fun _ => id) none ⟨freshBackend, 0, 0, [], []⟩
  rw [indexed, processed]
  exact handle_all_calm_tables calm _ _ _ _

theorem claims_payloads (chain : Chain) :
    (chain.entries.flatMap Entry.claims).map Prod.snd = chain.payloads := by
  rw [List.map_flatMap, Chain.payloads]
  congr 1
  funext entry
  rw [Entry.claims, List.map_map]
  exact List.map_id _

/-- The first payload with a leaf index is the one that gets the row. -/
theorem indexed_deposit_iff (calm : Calm weather) (config : Config) (chain : Chain)
    (leafIndex : Int64) (commitment : Bytes32) :
    (∃ row ∈ (indexed weather config chain).commitments.rows,
        row.leafIndex = leafIndex ∧ row.commitment = commitment) ↔
      chain.payloads.findSome? (commitmentAt leafIndex) = some commitment := by
  have found := record_all_deposits (chain.entries.flatMap Entry.claims) freshBackend.tables
    leafIndex
  rw [claims_payloads, ← indexed_calm calm config] at found
  have empty : freshBackend.tables.commitments.find leafIndex = none := rfl
  rw [empty, Option.map_none, Option.none_or] at found
  rw [← found, Option.map_eq_some_iff]
  constructor
  · rintro ⟨row, kept, indexed, committed⟩
    exact ⟨row, (UniqueTable.find_iff _ _ _).mpr ⟨kept, indexed⟩, committed⟩
  · rintro ⟨row, found, committed⟩
    obtain ⟨kept, indexed⟩ := (UniqueTable.find_iff _ _ _).mp found
    exact ⟨row, kept, indexed, committed⟩

theorem indexed_withdrawal_iff (calm : Calm weather) (config : Config) (chain : Chain)
    (nullifierHash : Bytes32) :
    (∃ row ∈ (indexed weather config chain).nullifiers.rows, row.nullifierHash = nullifierHash) ↔
      ∃ recipient, .withdraw nullifierHash recipient ∈ chain.payloads := by
  have none' : ¬ freshBackend.tables.nullifiers.has nullifierHash = true := by
    rw [UniqueTable.has_iff]
    rintro ⟨row, kept, _⟩
    cases kept
  rw [← UniqueTable.has_iff, indexed_calm calm, record_all_withdrawals, claims_payloads,
    or_iff_right none']

/-- What the program emitted is among the payloads. -/
theorem event_payload {chain : Chain} {event : Event} (emitted : event ∈ chain.events) :
    Payload.ofEvent event ∈ chain.payloads := by
  obtain ⟨entry, listed, member⟩ := List.mem_flatMap.mp emitted
  obtain ⟨_, lines, rest, split⟩ := event_line member
  refine List.mem_flatMap.mpr ⟨entry, listed, ?_⟩
  rw [payloads_split split]
  exact List.mem_append_right _ List.mem_cons_self

/-- For each leaf index the first line of 88 bytes repeats a deposit of the program
that took effect, and each line of 80 bytes a withdrawal. -/
structure FirstGenuine (chain : Chain) : Prop where
  deposits : ∀ leafIndex commitment,
    chain.payloads.findSome? (commitmentAt leafIndex) = some commitment →
      Deposited chain leafIndex commitment
  withdrawals : ∀ nullifierHash recipient,
    .withdraw nullifierHash recipient ∈ chain.payloads → Withdrawn chain nullifierHash

/-- The program gives out every leaf index once. -/
theorem deposit_unique {verifier : List UInt8 → Bool} {deployment : PoolProgram.Deployment}
    (launch : PoolRuns.Launch verifier deployment)
    (calls : List (PoolProgram.Transaction deployment)) {first second : DepositEvent}
    (one : .deposit first ∈ (launch.run calls).log)
    (other : .deposit second ∈ (launch.run calls).log)
    (same : first.leafIndex = second.leafIndex) : first = second := by
  have logged := Accounting.trace_log launch (launch.run_trace calls)
  have distinct : ((Accounting.depositEvents (launch.run calls).log).map
      fun event => event.leafIndex.toNat).Nodup := by
    rw [logged.indices]
    exact List.nodup_range
  have listed : ∀ {event : DepositEvent}, .deposit event ∈ (launch.run calls).log →
      event ∈ Accounting.depositEvents (launch.run calls).log :=
    fun member => List.mem_filterMap.mpr ⟨_, member, rfl⟩
  exact List.inj_on_of_nodup_map distinct (listed one) (listed other)
    (congrArg UInt64.toNat same)

/-- Whatever other lines there are, the index is authentic exactly if the first line for
each leaf index and every line for a nullifier repeat an event that took effect. -/
theorem index_authentic_iff {verifier : List UInt8 → Bool} {deployment : PoolProgram.Deployment}
    (launch : PoolRuns.Launch verifier deployment)
    (calls : List (PoolProgram.Transaction deployment)) (chain : Chain)
    (emitted : ∀ event ∈ chain.events, event ∈ (launch.run calls).log) (weather : Weather)
    (calm : Calm weather) (config : Config) :
    Authentic chain (indexed weather config chain) ↔ FirstGenuine chain := by
  constructor
  · intro authentic
    constructor
    · intro leafIndex commitment first
      exact (authentic.deposits _ _).mp ((indexed_deposit_iff calm config chain _ _).mpr first)
    · intro nullifierHash recipient read
      exact (authentic.withdrawals _).mp
        ((indexed_withdrawal_iff calm config chain _).mpr ⟨recipient, read⟩)
  · intro genuine
    constructor
    · intro leafIndex commitment
      rw [indexed_deposit_iff calm]
      refine ⟨genuine.deposits leafIndex commitment, ?_⟩
      rintro ⟨deposit, took, rfl, rfl⟩
      -- some line has the leaf index, so the first one is a deposit with that index as well
      have claims : commitmentAt deposit.leafIndex.toInt64 (.ofEvent (.deposit deposit)) =
          some deposit.commitment := if_pos rfl
      cases first : chain.payloads.findSome? (commitmentAt deposit.leafIndex.toInt64) with
      | none =>
          rw [List.findSome?_eq_none_iff.mp first _ (event_payload took)] at claims
          cases claims
      | some commitment =>
          obtain ⟨other, tookToo, same, rfl⟩ := genuine.deposits _ _ first
          have index : deposit.leafIndex = other.leafIndex := by
            simpa using congrArg Int64.toUInt64 same.symm
          rw [deposit_unique launch calls (emitted _ took) (emitted _ tookToo) index]
    · intro nullifierHash
      rw [indexed_withdrawal_iff calm]
      constructor
      · rintro ⟨recipient, read⟩
        exact genuine.withdrawals nullifierHash recipient read
      · rintro ⟨withdraw, took, rfl⟩
        exact ⟨withdraw.recipient, event_payload took⟩

/-- One accepted deposit. -/
def sampleCalls : List (PoolProgram.Transaction Verifier.sampleDeployment) :=
  [Verifier.sampleDeposit (Vector.replicate 32 7) (Vector.replicate 32 9) Verifier.oneSol]

def sampleDeposited : DepositEvent :=
  ⟨Vector.replicate 32 7, 0, 1_700_000_000, Vector.replicate 32 9⟩

theorem sample_log : ((Verifier.sampleLaunch fun _ => true).run sampleCalls).log =
    [.deposit sampleDeposited] := by
  decide +kernel

/-- Beside the deposit a line of another program and a withdrawal that was rolled back. -/
def mixedChain : Chain where
  entries := [⟨"deposit", true, [.other "Program log: hello", .emitted (.deposit sampleDeposited)]⟩,
    ⟨"reverted", false, [.emitted (.withdraw ⟨Vector.replicate 32 5, Verifier.payer, 0⟩)]⟩]
  distinct := by decide

theorem mixed_authentic_iff :
    Authentic mixedChain (indexed calmWeather ⟨10, 1, 20⟩ mixedChain) ↔
      FirstGenuine mixedChain :=
  index_authentic_iff (Verifier.sampleLaunch fun _ => true) sampleCalls mixedChain
    (fun _ took => sample_log ▸ took) calmWeather calm_weather ⟨10, 1, 20⟩

def rolledBack : DepositEvent :=
  ⟨Vector.replicate 32 1, 0, 1_700_000_000, Vector.replicate 32 2⟩

/-- A deposit that is rolled back, in front of the one that gets its leaf index. -/
def revertedFirst : Chain where
  entries := [⟨"reverted", false, [.emitted (.deposit rolledBack)]⟩,
    ⟨"deposit", true, [.emitted (.deposit sampleDeposited)]⟩]
  distinct := by decide

/-- The row of the rolled back deposit keeps the genuine one out. -/
theorem reverted_kept :
    (∀ event ∈ revertedFirst.events,
        event ∈ ((Verifier.sampleLaunch fun _ => true).run sampleCalls).log) ∧
      ¬ Authentic revertedFirst (indexed calmWeather ⟨10, 1, 20⟩ revertedFirst) := by
  refine ⟨fun _ took => sample_log ▸ took, ?_⟩
  intro authentic
  have first : revertedFirst.payloads.findSome? (commitmentAt 0) =
      some (Vector.replicate 32 1) := by
    have read : Entry.payloads ⟨"reverted", false, [.emitted (.deposit rolledBack)]⟩ =
        ahead [] ++ .ofEvent (.deposit rolledBack) :: ahead [] := payloads_split rfl
    have claims : commitmentAt 0 (.ofEvent (.deposit rolledBack)) =
        some (Vector.replicate 32 1) := by decide
    rw [Chain.payloads, revertedFirst, List.flatMap_cons, read, List.append_assoc, List.cons_append,
      ahead, List.filterMap_nil, List.nil_append, List.findSome?_cons, claims]
  obtain ⟨deposit, took, _, same⟩ := (authentic.deposits 0 _).mp
    ((indexed_deposit_iff calm_weather _ _ _ _).mpr first)
  cases List.mem_singleton.mp (show _ ∈ [Event.deposit sampleDeposited] from took)
  exact absurd same (by decide)

end Index

end PrivateTransfer.Indexer
