import PrivateTransfer.BackendView
import PrivateTransfer.Database

/-!
Positions in the list of commitments. `withdraw` and `deposit` sort what `/api/commitments`
answers by `leaf_index`, drop the indices and go on with positions, as if they were the
indices that the program, the database and the tree count with.
-/

namespace PrivateTransfer.ListPositions

open ClientHex Script
open DepositClient (CommitmentEntry DepositNote existingCommitments)

/-! What a deposit asks the Merkle service. -/
section Root
open DepositClient
variable {poseidon2Permutation : Vector Field 4 → Vector Field 4} {weather : Weather}
  {config : Config} {amount : Nat} {browser : Browser} {Value Next : Type}
  {request : DepositClient.Request}

theorem asked_remote {call : Remote} {next : call.Answer → Flow Next} :
    request ∈ trace (serve weather) (@bind _ _ (no_index call.Answer) _ (remote call) next)
        browser ↔
      request = .remote call ∨ ∃ answer, weather.answers call = .ok answer ∧
        request ∈ trace (serve weather) (next answer) browser := by
  change request ∈ .remote call :: trace (serve weather)
    (andThen (.done (weather.answers call)) next) browser ↔ _
  rw [List.mem_cons]
  apply or_congr_right
  cases weather.answers call <;> simp [andThen, trace]

theorem asked_throw {message : String} {found : Option Value} {next : Value → Flow Next} :
    request ∈ trace (serve weather) (orThrow message found >>= next) browser ↔
      ∃ value, found = some value ∧ request ∈ trace (serve weather) (next value) browser := by
  cases found with
  | none =>
      have stops : (orThrow message none >>= next) = fail message := rfl
      rw [stops, trace_fail]
      simp
  | some value => simp

theorem asked_fail {message : String} {holds : Bool} {next : Unit → Flow Next} :
    request ∈ trace (serve weather) (orFail holds message >>= next) browser ↔
      holds = true ∧ request ∈ trace (serve weather) (next ()) browser := by
  cases holds with
  | false =>
      have stops : (orFail false message >>= next) = fail message := rfl
      rw [stops, trace_fail]
      simp
  | true => simp

theorem asked_root {newCommitment : List UInt8} {existing : List (List UInt8)}
    {next : List UInt8 → Flow Next} :
    request ∈ trace (serve weather) (fetchNewRootFromMerkle newCommitment existing >>= next)
        browser ↔
      request = .remote (.root ((existing ++ [newCommitment]).map bytesToHex)) ∨
        ∃ hex newRoot, weather.answers
          (.root ((existing ++ [newCommitment]).map bytesToHex)) = .ok (.root hex) ∧
          hexToBytes hex = some newRoot ∧ request ∈ trace (serve weather) (next newRoot)
            browser := by
  rw [fetchNewRootFromMerkle, Script.bind_assoc, asked_remote]
  apply or_congr_right
  constructor
  · rintro ⟨reply, answered, asked⟩
    cases reply with
    | refused status text => cases asked
    | root hex =>
        obtain ⟨newRoot, decoded, asked⟩ := asked_throw.mp asked
        exact ⟨hex, newRoot, answered, decoded, asked⟩
  · rintro ⟨hex, newRoot, answered, decoded, asked⟩
    exact ⟨.root hex, answered, asked_throw.mpr ⟨newRoot, decoded, asked⟩⟩

theorem prepare_asks {hexes : List String} :
    .remote (.root hexes) ∈ trace (serve weather) (prepare poseidon2Permutation config amount)
        browser ↔
      ∃ wallet firstDraw secondDraw computed entries existing,
        weather.answers .wallet = .ok (some wallet) ∧ belowMinimum config amount = false ∧
        weather.answers (.randomBytes 0) = .ok firstDraw ∧
        weather.answers (.randomBytes 1) = .ok secondDraw ∧ weather.answers .hashes = .ok () ∧
        computeCommitment poseidon2Permutation (bytesToFieldElement firstDraw)
          (bytesToFieldElement secondDraw) amount = some computed ∧
        weather.answers (.commitments config.pool) = .ok entries ∧
        existingCommitments entries = some existing ∧
        hexes = (existing ++ [computed.commitment.toList]).map bytesToHex := by
  simp only [prepare, asked_remote, asked_throw, asked_fail, asked_root, trace_pure,
    List.not_mem_nil, and_false, exists_false, or_false, false_or, reduceCtorEq,
    DepositClient.Request.remote.injEq, Remote.root.injEq]
  constructor
  · rintro ⟨_, connected, wallet, rfl, enough, firstDraw, first, secondDraw, second, _, loaded,
      computed, hashed, entries, listed, existing, read, same⟩
    exact ⟨wallet, firstDraw, secondDraw, computed, entries, existing, connected,
      by simpa using enough, first, second, loaded, hashed, listed, read, same⟩
  · rintro ⟨wallet, firstDraw, secondDraw, computed, entries, existing, connected, enough, first,
      second, loaded, hashed, listed, read, same⟩
    exact ⟨_, connected, wallet, rfl, by simpa using enough, firstDraw, first, secondDraw, second,
      (), loaded, computed, hashed, entries, listed, existing, read, same⟩

theorem save_asks {note : DepositNote} {hexes : List String} :
    .remote (.root hexes) ∉ trace (serve weather) (saveDepositNote note) browser := by
  have read : trace (serve weather) (attempt (perform DepositClient.Request.getItem)) browser =
      [.getItem] := rfl
  simp only [saveDepositNote, getDepositNotes, Script.bind_assoc, mem_trace_bind, read,
    trace_perform, trace_pure, List.mem_singleton, List.not_mem_nil, reduceCtorEq, false_or,
    or_false, and_false, exists_false, not_exists, not_and]
  rintro data reached _
  cases data with
  | ok stored => cases stored <;> simp [orThrow, Stored.parsed, trace_fail]
  | error failure => simp [orThrow]

/-- After the signature the service is asked no more. -/
theorem submit_asks {draft : Draft} {hexes : List String} :
    .remote (.root hexes) ∉ trace (serve weather) (submit config draft) browser := by
  rw [submit, mem_trace_bind, trace_perform]
  rintro (sent | ⟨signature, reached, _, asked⟩)
  · simp at sent
  rcases asked_remote.mp asked with confirms | ⟨failed, _, asked⟩
  · simp at confirms
  cases failed with
  | some err => cases asked
  | none =>
      rcases asked_remote.mp asked with stamps | ⟨id, _, saves⟩
      · simp at stamps
      · exact save_asks saves

theorem root_asked {hexes : List String} :
    .remote (.root hexes) ∈ trace (serve weather) (deposit poseidon2Permutation config amount)
        browser ↔
      .remote (.root hexes) ∈ trace (serve weather) (prepare poseidon2Permutation config amount)
        browser := by
  rw [deposit, mem_trace_bind, or_iff_left]
  rintro ⟨draft, reached, _, asked⟩
  rcases (mem_trace_bind _ _ _ _ _).mp asked with asked | ⟨note, last, _, asked⟩
  · exact submit_asks asked
  · rw [remote, trace_perform] at asked
    simp at asked

end Root

/-! Different whole numbers in rising order, none below zero and none beyond their count. -/
section Rising
variable {values : List Int}

theorem rising_spread (rising : values.Pairwise (· < ·)) {start count : Nat}
    (inside : start + count < values.length) :
    values[start] + count ≤ values[start + count] := by
  induction count with
  | zero => simp
  | succ count ih =>
      have near := ih (by omega)
      have step := List.pairwise_iff_getElem.mp rising (start + count) (start + (count + 1))
        (by omega) inside (by omega)
      push_cast
      omega

/-- Each of them is its own position. -/
theorem rising_fills (rising : values.Pairwise (· < ·))
    (bounded : ∀ value ∈ values, 0 ≤ value ∧ value < values.length) {position : Nat}
    (inside : position < values.length) : values[position] = position := by
  have first := (bounded _ (List.getElem_mem (show 0 < values.length by omega))).1
  have last := (bounded _ (List.getElem_mem (show values.length - 1 < values.length by omega))).2
  have below : values[0] + position ≤ values[0 + position] :=
    rising_spread rising (by omega)
  have above : values[position] + (values.length - 1 - position : Nat) ≤
      values[position + (values.length - 1 - position)] := rising_spread rising (by omega)
  simp only [Nat.zero_add, show position + (values.length - 1 - position) = values.length - 1 by
    omega] at below above
  omega

end Rising

/-! The answer of `/api/commitments`, and what the two flows make of it. -/
section Response

/-- `handle_commitments`. -/
def commitmentsResponse (rows : List (Int64 × Bytes32)) : List CommitmentEntry :=
  rows.map fun row => ⟨row.1.toInt, bytesToHex row.2.toList⟩

def inLeafOrder (rows : List (Int64 × Bytes32)) : List (Int64 × Bytes32) :=
  rows.mergeSort fun row other => decide (row.1 ≤ other.1)

theorem response_sorted (rows : List (Int64 × Bytes32)) :
    existingCommitments (commitmentsResponse rows) =
      some ((inLeafOrder rows).map fun row => row.2.toList) := by
  have order : (commitmentsResponse rows).mergeSort
      (fun a b => decide (a.leafIndex ≤ b.leafIndex)) =
        (inLeafOrder rows).map fun row => ⟨row.1.toInt, bytesToHex row.2.toList⟩ := by
    rw [commitmentsResponse, inLeafOrder, List.map_mergeSort]
    intro row _ other _
    exact decide_eq_decide.mpr Int64.le_iff_toInt_le
  rw [existingCommitments, order, List.mapM_map]
  simp only [Function.comp_def, hex_round_trip]
  exact List.mapM_pure

/-- With different indices, none is missing. -/
def GapFree (rows : List (Int64 × Bytes32)) : Prop :=
  ∀ row ∈ rows, 0 ≤ row.1.toInt ∧ row.1.toInt < rows.length

theorem order_fills {rows : List (Int64 × Bytes32)} (distinct : (rows.map Prod.fst).Nodup)
    (gapFree : GapFree rows) {position : Nat} (inside : position < (inLeafOrder rows).length) :
    (inLeafOrder rows)[position].1.toInt = position := by
  have rising : ((inLeafOrder rows).map fun row => row.1.toInt).Pairwise (· < ·) := by
    rw [List.pairwise_map]
    exact (Database.sort_rising Prod.fst distinct).imp Int64.lt_iff_toInt_lt.mp
  have length : (inLeafOrder rows).length = rows.length := List.length_mergeSort _
  have filled := @rising_fills _ rising (fun value member => by
    obtain ⟨row, held, rfl⟩ := List.mem_map.mp member
    rw [List.length_map, length]
    exact gapFree row (List.mem_mergeSort.mp held)) position (by rwa [List.length_map])
  rwa [List.getElem_map] at filled

end Response

section Positions
variable (poseidon2Permutation : Vector Field 4 → Vector Field 4)

/-- The stored note a withdrawal is of. -/
def NoteUsed (world : WithdrawFlow.World) (form : WithdrawFlow.Form) (note : DepositNote) : Prop :=
  ∃ nullifierSecret nullifierHash notes,
    hexToBytes form.nullifierSecretHex = some nullifierSecret ∧
    NoteText.computeNullifierHash poseidon2Permutation nullifierSecret = some nullifierHash ∧
    world .notes = .ok notes ∧
    notes.find? (fun note => note.nullifierHash == bytesToHex nullifierHash.toList) = some note

/-- Every proof is asked for at the leaf index of an entry with the note's commitment. -/
def WithdrawsInPlace (rows : List (Int64 × Bytes32)) : Prop :=
  ∀ (world : WithdrawFlow.World) (config : WithdrawFlow.Config) (form : WithdrawFlow.Form)
    (poolAddress : String) (leafIndex : Nat),
    world (.api (.getCommitments config.poolPda)) = .ok (commitmentsResponse rows) →
    WithdrawFlow.Asks world (WithdrawFlow.withdraw poseidon2Permutation config form)
      (.api (.getProof poolAddress leafIndex)) →
    ∃ note, NoteUsed poseidon2Permutation world form note ∧ ∃ row ∈ rows,
      row.1.toInt = leafIndex ∧ NoteText.sameHex note.commitment row.2.toList = true

/-- Every root is asked for with each commitment at its leaf index. -/
def DepositsInPlace (rows : List (Int64 × Bytes32)) : Prop :=
  ∀ (weather : DepositClient.Weather) (config : DepositClient.Config) (amount : Nat)
    (browser : DepositClient.Browser) (hexes : List String),
    weather.answers (.commitments config.pool) = .ok (commitmentsResponse rows) →
    .remote (.root hexes) ∈ trace (DepositClient.serve weather)
      (DepositClient.deposit poseidon2Permutation config amount) browser →
    ∀ row ∈ rows, ∃ position : Nat, row.1.toInt = position ∧
      hexes[position]? = some (bytesToHex row.2.toList)

end Positions

section InPlace
variable {poseidon2Permutation : Vector Field 4 → Vector Field 4} {rows : List (Int64 × Bytes32)}

theorem withdraws_in_place (distinct : (rows.map Prod.fst).Nodup) (gapFree : GapFree rows) :
    WithdrawsInPlace poseidon2Permutation rows := by
  intro world config form poolAddress leafIndex answered asked
  obtain ⟨_, _, nullifierSecret, nullifierHash, locates⟩ := WithdrawFlow.asks_proof.mp asked
  obtain ⟨notes, note, entries, sortedCommitments, _, read, _, hashed, stored, found, _, listed,
    sorted, located⟩ := locates
  refine ⟨note, ⟨nullifierSecret, nullifierHash, notes, read, hashed, stored, found⟩, ?_⟩
  cases Except.ok.inj (answered.symm.trans listed)
  cases Option.some.inj ((response_sorted rows).symm.trans sorted)
  obtain ⟨inside, same, _⟩ := List.findIdx?_eq_some_iff_getElem.mp located
  rw [List.length_map] at inside
  rw [List.getElem_map] at same
  exact ⟨(inLeafOrder rows)[leafIndex], List.mem_mergeSort.mp (List.getElem_mem inside),
    order_fills distinct gapFree inside, same⟩

/-- What a deposit asks a root for, with the answer it is given. -/
theorem root_of_response {weather : DepositClient.Weather} {config : DepositClient.Config}
    {amount : Nat} {browser : DepositClient.Browser} {hexes : List String}
    (answered : weather.answers (.commitments config.pool) = .ok (commitmentsResponse rows))
    (asked : .remote (.root hexes) ∈ trace (DepositClient.serve weather)
      (DepositClient.deposit poseidon2Permutation config amount) browser) :
    ∃ newCommitment : Bytes32, hexes =
      ((inLeafOrder rows).map fun row => bytesToHex row.2.toList) ++
        [bytesToHex newCommitment.toList] := by
  obtain ⟨_, _, _, computed, entries, existing, _, _, _, _, _, _, listed, read, rfl⟩ :=
    prepare_asks.mp (root_asked.mp asked)
  cases Except.ok.inj (answered.symm.trans listed)
  cases Option.some.inj ((response_sorted rows).symm.trans read)
  exact ⟨computed.commitment, by simp [Function.comp_def]⟩

theorem deposits_in_place (distinct : (rows.map Prod.fst).Nodup) (gapFree : GapFree rows) :
    DepositsInPlace poseidon2Permutation rows := by
  intro weather config amount browser hexes answered asked row member
  obtain ⟨newCommitment, rfl⟩ := root_of_response answered asked
  obtain ⟨position, inside, same⟩ := List.getElem_of_mem
    (show row ∈ inLeafOrder rows from List.mem_mergeSort.mpr member)
  refine ⟨position, ?_, ?_⟩
  · rw [← same]
    exact order_fills distinct gapFree inside
  · rw [List.getElem?_append_left (by rwa [List.length_map]), List.getElem?_map,
      List.getElem?_eq_getElem inside, same]
    rfl

/-- A deposit of this opening, with the list that is answered. -/
def listedAnswers (rows : List (Int64 × Bytes32)) (opening : Field × Field) :
    (call : DepositClient.Remote) → Except String call.Answer
  | .commitments _ => .ok (commitmentsResponse rows)
  | call => BackendView.drawnAnswers opening call

/-- It puts its own commitment behind the others. -/
theorem opening_asked (rows : List (Int64 × Bytes32)) (opening : Field × Field) :
    .remote (.root (((inLeafOrder rows).map fun row => bytesToHex row.2.toList) ++
        [BackendView.elementHex (BackendView.leafOf poseidon2Permutation opening)])) ∈
      trace (DepositClient.serve ⟨listedAnswers rows opening, fun _ => .ok "", none, none⟩)
        (DepositClient.deposit poseidon2Permutation DepositClient.sampleConfig
          BackendView.sampleAmount) ⟨.absent, []⟩ := by
  refine root_asked.mpr (prepare_asks.mpr ⟨⟨Bytes32.zero, true⟩, _, _, _, _, _, rfl, by decide,
    rfl, rfl, rfl, BackendView.drawn_commitment poseidon2Permutation opening, rfl,
    response_sorted rows, ?_⟩)
  simp [Function.comp_def, BackendView.elementHex]

/-- An index as large as the count is only met if every new commitment is the one in its row. -/
theorem gap_free_of_deposits {first second : Field × Field}
    (varies : BackendView.leafOf poseidon2Permutation first ≠
      BackendView.leafOf poseidon2Permutation second)
    (inPlace : DepositsInPlace poseidon2Permutation rows) : GapFree rows := by
  intro row member
  have placed : ∀ opening, ∃ position : Nat, row.1.toInt = position ∧
      (((inLeafOrder rows).map fun row => bytesToHex row.2.toList) ++
        [BackendView.elementHex (BackendView.leafOf poseidon2Permutation opening)])[position]? =
          some (bytesToHex row.2.toList) := fun opening =>
    inPlace _ DepositClient.sampleConfig BackendView.sampleAmount _ _ rfl
      (opening_asked rows opening) row member
  obtain ⟨position, index, ofFirst⟩ := placed first
  obtain ⟨again, same, ofSecond⟩ := placed second
  have length : ((inLeafOrder rows).map fun row => bytesToHex row.2.toList).length =
      rows.length := by rw [List.length_map, inLeafOrder, List.length_mergeSort]
  obtain rfl : again = position := by omega
  rcases Nat.lt_or_ge again rows.length with inside | past
  · omega
  rw [List.getElem?_append_right (by omega), List.getElem?_singleton] at ofFirst ofSecond
  split at ofFirst
  · rename_i last
    rw [if_pos last] at ofSecond
    exact absurd (BackendView.hex_injective (Option.some.inj (ofFirst.trans ofSecond.symm))) varies
  · cases ofFirst

end InPlace

/-- Both flows count as the tree does exactly where no index is missing. -/
theorem in_place_iff (rows : List (Int64 × Bytes32)) (distinct : (rows.map Prod.fst).Nodup) :
    WithdrawsInPlace Poseidon2.poseidon2Permutation rows ∧
        DepositsInPlace Poseidon2.poseidon2Permutation rows ↔ GapFree rows := by
  constructor
  · rintro ⟨_, deposits⟩
    exact gap_free_of_deposits BackendView.sample_apart.2 deposits
  · intro gapFree
    exact ⟨withdraws_in_place distinct gapFree, deposits_in_place distinct gapFree⟩

/-- What the database holds for a pool has different indices. -/
theorem stored_distinct (db : Database.Db) (poolAddress : String) :
    ((Database.getCommitments db poolAddress).map Prod.fst).Nodup := by
  rw [List.Nodup, List.pairwise_map]
  exact (Database.get_commitments_rising db poolAddress).imp Int64.ne_of_lt

/-- Two entries in the wrong order. -/
theorem swapped_in_place :
    let rows : List (Int64 × Bytes32) := [(1, Bytes32.zero), (0, Bytes32.ofNat 1)]
    WithdrawsInPlace Poseidon2.poseidon2Permutation rows ∧
        DepositsInPlace Poseidon2.poseidon2Permutation rows ↔ GapFree rows :=
  in_place_iff [(1, Bytes32.zero), (0, Bytes32.ofNat 1)] (by decide)

/-! Index 1 has not been indexed. -/
section Gap
variable (poseidon2Permutation : Vector Field 4 → Vector Field 4) (first second : Field × Field)

def gapRows : List (Int64 × Bytes32) :=
  [(0, bytesOf (BackendView.leafOf poseidon2Permutation first)),
    (2, bytesOf (BackendView.leafOf poseidon2Permutation second))]

def gapWorld : WithdrawFlow.World
  | .api (.getCommitments _) =>
      .ok (commitmentsResponse (gapRows poseidon2Permutation first second))
  | request => BackendView.sampleWorld poseidon2Permutation [second] request

variable {poseidon2Permutation first second}

theorem gap_sorted :
    existingCommitments (commitmentsResponse (gapRows poseidon2Permutation first second)) =
      some [(bytesOf (BackendView.leafOf poseidon2Permutation first)).toList,
        (bytesOf (BackendView.leafOf poseidon2Permutation second)).toList] := by
  have order : inLeafOrder (gapRows poseidon2Permutation first second) =
      gapRows poseidon2Permutation first second := by
    refine List.mergeSort_of_pairwise ?_
    simp [gapRows]
  rw [response_sorted, order, gapRows]
  rfl

/-- The path of leaf 1 is asked for, though the note is at leaf 2. -/
theorem gap_asks (varies : BackendView.leafOf poseidon2Permutation first ≠
      BackendView.leafOf poseidon2Permutation second) :
    WithdrawFlow.Asks (gapWorld poseidon2Permutation first second)
      (WithdrawFlow.withdraw poseidon2Permutation BackendView.sampleConfig
        (BackendView.formOf (BackendView.noteOf poseidon2Permutation second) "recipient"))
      (.api (.getProof "pool" 1)) := by
  have found : [BackendView.noteOf poseidon2Permutation second].find? (fun note =>
      note.nullifierHash == bytesToHex (bytesOf
        (Circuit.hash1 poseidon2Permutation second.1)).toList) =
      some (BackendView.noteOf poseidon2Permutation second) := by
    simp [BackendView.noteOf, BackendView.elementHex]
  have located : [(bytesOf (BackendView.leafOf poseidon2Permutation first)).toList,
      (bytesOf (BackendView.leafOf poseidon2Permutation second)).toList].findIdx?
        (NoteText.sameHex (BackendView.noteOf poseidon2Permutation second).commitment) =
      some 1 := by
    simp [List.findIdx?_cons, BackendView.note_differs varies, BackendView.note_same]
  exact WithdrawFlow.asks_proof.mpr ⟨rfl, ⟨Bytes32.zero, true⟩, _, _,
    WithdrawFlow.Locates.intro _ _ _ _ _ _ _ _ rfl (hex_round_trip _) rfl
      (BackendView.element_hashed poseidon2Permutation second.1) rfl found rfl rfl gap_sorted
      located⟩

end Gap

/-- Both flows go wrong. -/
theorem gap_misplaces :
    let rows := gapRows Poseidon2.poseidon2Permutation (1, 2) (3, 4)
    (rows.map Prod.fst).Nodup ∧ ¬ WithdrawsInPlace Poseidon2.poseidon2Permutation rows ∧
      ¬ DepositsInPlace Poseidon2.poseidon2Permutation rows := by
  refine ⟨?_, ?_, ?_⟩
  · change [(0 : Int64), 2].Nodup
    decide
  · intro inPlace
    obtain ⟨_, _, row, member, index, _⟩ := inPlace _ _ _ _ _ rfl
      (gap_asks BackendView.sample_apart.2)
    have indices : row.1 ∈ [(0 : Int64), 2] := List.mem_map_of_mem member
    rcases List.mem_pair.mp indices with zero | two
    · rw [zero] at index
      exact absurd index (by decide)
    · rw [two] at index
      exact absurd index (by decide)
  · intro inPlace
    have gapFree := gap_free_of_deposits BackendView.sample_apart.2 inPlace
    have past := (gapFree _ (List.mem_cons_of_mem _ (List.mem_singleton_self _))).2
    exact absurd past (by decide)

end PrivateTransfer.ListPositions
