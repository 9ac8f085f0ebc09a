import PrivateTransfer.IndexerRuns
import PrivateTransfer.Traces

/-!
What the program emits and what the indexer does about it. `process_transaction`
tells the events apart by the number of bytes and picks the fields out by offset;
here a line of the program's own has the requests of its event, with the event's
data in them, and no request of the other kind.
-/

namespace PrivateTransfer.EventDecoding

open EventLog Indexer MerkleService PoolState Script

/-- The index counter of a pool whose leaves an `i64` can number. -/
def Indexable : Event → Prop
  | .deposit event => event.leafIndex.toNat < 2 ^ 63
  | .withdraw _ => True

/-- What is to be done about an event, from its own fields. -/
def indexEvent (config : Config) (signature : Signature) : Event → Work Unit
  | .deposit event => do
      let known ← commitmentExists event.leafIndex.toInt64
      if known then pure ()
      else indexDeposit config signature event.leafIndex.toInt64 event.commitment event.newRoot
  | .withdraw event => do
      let known ← isNullifierUsed event.nullifierHash
      if known then pure () else saveNullifier event.nullifierHash event.recipient 0 signature

/-- A request that belongs to an event, with the event's data as it was emitted. -/
def Concerns (signature : Signature) : Event → Request → Prop
  | .deposit event, .commitmentExists leafIndex => leafIndex.toInt = event.leafIndex.toNat
  | .deposit event, .saveDeposit leafIndex commitment newRoot txSignature =>
      leafIndex.toInt = event.leafIndex.toNat ∧ commitment = event.commitment ∧
        newRoot = event.newRoot ∧ txSignature = signature
  | .deposit event, .addLeaf leafIndex commitment _ =>
      leafIndex = event.leafIndex.toNat ∧ commitment = hexEncode event.commitment
  | .deposit event, .recordDeposit leafIndex _ => leafIndex.toInt = event.leafIndex.toNat
  | .deposit _, .recordTreeError _ | .deposit _, .invalidatePool => True
  | .withdraw event, .isNullifierUsed nullifierHash => nullifierHash = event.nullifierHash
  | .withdraw event, .saveNullifier nullifierHash recipient _ txSignature =>
      nullifierHash = event.nullifierHash ∧ recipient = event.recipient ∧ txSignature = signature
  | _, _ => False

theorem index_lossless {leafIndex : UInt64} (small : leafIndex.toNat < 2 ^ 63) :
    leafIndex.toInt64.toInt = leafIndex.toNat := by
  rw [Int64.toInt, UInt64.toBitVec_toInt64, BitVec.toInt_eq_toNat_of_lt]
  · rfl
  · simpa using (by omega : 2 * leafIndex.toNat < 2 ^ 64)

theorem process_line (config : Config) (signature : Signature) (event : Event) :
    processLog config signature (eventLine event) = indexEvent config signature event := by
  rw [processLog, parse_event]
  cases event <;> rfl

section Requests

variable {State : Type}
  (serve : (request : Request) → State → Except IndexerError (Answer request) × State)

variable (config : Config) (signature : Signature)

/-- What is asked for about a deposit whose index is not known yet. -/
theorem index_deposit_concerns {event : DepositEvent} (small : event.leafIndex.toNat < 2 ^ 63)
    (state : State) (request : Request)
    (asked : request ∈ trace serve (indexDeposit config signature event.leafIndex.toInt64
      event.commitment event.newRoot) state) :
    Concerns signature (.deposit event) request := by
  have index := index_lossless small
  rw [indexDeposit, mem_trace_bind] at asked
  rcases asked with asked | ⟨_, saved, _, asked⟩
  · obtain rfl : request = .saveDeposit _ _ _ _ := List.mem_singleton.mp asked
    exact ⟨index, rfl, rfl, rfl⟩
  rw [mem_trace_bind, trace_attempt] at asked
  rcases asked with asked | ⟨added, reached, _, asked⟩
  · obtain rfl : request = .addLeaf _ _ _ := List.mem_singleton.mp asked
    exact ⟨by simp, rfl⟩
  rw [mem_trace_bind] at asked
  rcases asked with asked | ⟨_, reported, _, asked⟩
  · -- a failed addition is counted under its own request
    cases added with
    | ok root =>
        obtain rfl : request = .recordDeposit _ _ := List.mem_singleton.mp asked
        exact index
    | error failure =>
        cases failure with
        | tree error =>
            obtain rfl : request = .recordTreeError _ := List.mem_singleton.mp asked
            trivial
        | rpc | database | redis => simp [reportLeaf] at asked
  · rw [mem_trace_bind, trace_attempt] at asked
    rcases asked with asked | ⟨_, _, _, asked⟩
    · obtain rfl : request = .invalidatePool := List.mem_singleton.mp asked
      trivial
    · simp at asked

theorem event_concerns {event : Event} (indexable : Indexable event) (state : State)
    (request : Request) (asked : request ∈ trace serve (indexEvent config signature event) state) :
    Concerns signature event request := by
  cases event with
  | deposit event =>
      rw [indexEvent, mem_trace_bind] at asked
      rcases asked with asked | ⟨known, reached, _, asked⟩
      · obtain rfl : request = .commitmentExists _ := List.mem_singleton.mp asked
        exact index_lossless indexable
      · cases known with
        | true => simp at asked
        | false => exact index_deposit_concerns serve config signature indexable reached _ asked
  | withdraw event =>
      rw [indexEvent, mem_trace_bind] at asked
      rcases asked with asked | ⟨known, reached, _, asked⟩
      · obtain rfl : request = .isNullifierUsed _ := List.mem_singleton.mp asked
        rfl
      · cases known with
        | true => simp at asked
        | false =>
            rw [if_neg Bool.false_ne_true] at asked
            obtain rfl : request = .saveNullifier _ _ _ _ := List.mem_singleton.mp asked
            exact ⟨rfl, rfl, rfl⟩

theorem process_logs_append (before after : List String) :
    processLogs config signature (before ++ after) =
      (processLogs config signature before >>= fun _ => processLogs config signature after) := by
  induction before with
  | nil => rfl
  | cons log rest ih =>
      rw [List.cons_append, processLogs, processLogs, Script.bind_assoc, ih]

/-- Behind what stands before it in a transaction's log, the program's line has the
requests of its event, and then comes what stands behind it. -/
theorem trace_transaction {event : Event} {before after : List String}
    {state fetched reached : State}
    (answered : serve (.getTransaction signature) state =
      (.ok (some (before ++ eventLine event :: after)), fetched))
    (earlier : run serve (processLogs config signature before) fetched = (.ok (), reached)) :
    trace serve (processTransaction config signature) state =
      .getTransaction signature :: (trace serve (processLogs config signature before) fetched ++
        trace serve (indexEvent config signature event >>=
          fun _ => processLogs config signature after) reached) := by
  have read : run serve (getTransaction signature) state =
      (.ok (some (before ++ eventLine event :: after)), fetched) := answered
  have asks : trace serve (getTransaction signature) state = [.getTransaction signature] := rfl
  rw [processTransaction, trace_bind_ok serve read, asks, List.singleton_append]
  congr 1
  change trace serve (processLogs config signature (before ++ eventLine event :: after)) fetched = _
  rw [process_logs_append, trace_bind_ok serve earlier, processLogs, process_line]

/-- A line of the program's own is taken for its event: the indexer does what is to be
done about it, with the event's data as emitted, and nothing about the other kind,
wherever in a transaction's log it stands. -/
theorem event_decoded {event : Event} (indexable : Indexable event) :
    processLog config signature (eventLine event) = indexEvent config signature event ∧
      (∀ state, ∀ request ∈ trace serve (indexEvent config signature event) state,
        Concerns signature event request) ∧
      ∀ (before after : List String) (state fetched reached : State),
        serve (.getTransaction signature) state =
          (.ok (some (before ++ eventLine event :: after)), fetched) →
        run serve (processLogs config signature before) fetched = (.ok (), reached) →
        trace serve (processTransaction config signature) state =
          .getTransaction signature :: (trace serve (processLogs config signature before) fetched ++
            trace serve (indexEvent config signature event >>=
              fun _ => processLogs config signature after) reached) := by
  refine ⟨process_line config signature event, ?_, ?_⟩
  · intro state request asked
    exact event_concerns serve config signature indexable state request asked
  · intro before after state fetched reached answered earlier
    exact trace_transaction serve config signature answered earlier

end Requests

/-! The eighth deposit of a pool, in a log behind a line of another program. -/
section Sample

def eighthDeposit : Event := .deposit ⟨Bytes32.ofNat 11, 7, 1700000000, Bytes32.ofNat 13⟩

def eighthEntry : Entry := ⟨"eighth", true, [.other "Program log: deposit", .emitted eighthDeposit]⟩

theorem eighth_decoded :
    trace (serve [eighthEntry] calmWeather) (processTransaction ⟨10, 1, 20⟩ "eighth")
        ⟨freshBackend, 0, 0, [], []⟩ =
      .getTransaction "eighth" :: trace (serve [eighthEntry] calmWeather)
        (indexEvent ⟨10, 1, 20⟩ "eighth" eighthDeposit >>= fun _ => pure ())
        ⟨freshBackend, 0, 0, ["eighth"], []⟩ := by
  have decoded := event_decoded (serve [eighthEntry] calmWeather) ⟨10, 1, 20⟩ "eighth"
    (show Indexable eighthDeposit by exact (by decide : (7 : UInt64).toNat < 2 ^ 63))
  exact decoded.2.2 ["Program log: deposit"] [] _ _ _ rfl rfl

end Sample

end PrivateTransfer.EventDecoding
