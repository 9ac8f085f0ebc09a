import Mathlib.Data.List.Sort
import PrivateTransfer.CommitmentsCache
import PrivateTransfer.DepositClient
import PrivateTransfer.DepositRace
import PrivateTransfer.EventDecoding
import PrivateTransfer.MerkleProofs
import PrivateTransfer.ProofRoutes

/-!
The routes a client reads. Each has a source of its own: the commitments come from a
response that Redis keeps or else from the database, the root from Redis or else from the
database, and a path from the levels in Redis. As long as no submitted root was behind,
they all speak of one tree, that of what has been indexed; only the response in Redis may
be of fewer leaves.
-/

namespace PrivateTransfer.ReadRoutes

open ClientHex DepositRace Indexer MerkleService PoolProgram PoolRuns TreeRecovery
open PoolState hiding treeDepth
open Database (Db getCommitments getLatestRoot)

/-! `handle_root` of `backend/src/main.rs`. -/
section Root

abbrev RedisError := String

abbrev DbError := String

/-- 500 with the error of the database, or 404 with a text. -/
inductive Refusal where
  | dbError (error : DbError)
  | notFound (message : String)
  deriving DecidableEq

/-- An error of Redis counts as a missing root. -/
def handleRoot (cached : Except RedisError (Option Hex64))
    (latest : Except DbError (Option Bytes32)) : Except Refusal Hex64 :=
  match cached with
  | .ok (some root) => .ok root
  | _ =>
      match latest with
      | .ok (some root) => .ok (hexEncode root)
      | .ok none => .error (.notFound "No root found")
      | .error error => .error (.dbError error)

/-- Redis has nothing for the key, or fails. -/
inductive Missed {α : Type} : Except RedisError (Option α) → Prop
  | absent : Missed (.ok none)
  | failed (error : RedisError) : Missed (.error error)

theorem handle_root_missed {cached : Except RedisError (Option Hex64)} (missed : Missed cached)
    (latest : Option Bytes32) :
    handleRoot cached (.ok latest) = match latest with
      | some root => .ok (hexEncode root)
      | none => .error (.notFound "No root found") := by
  cases missed <;> cases latest <;> rfl

/-- `/root` of `merkle/src/server.js`; the body has no array where it is `none`. -/
def rootRoute (hash : Hex64 → Hex64 → Except ServiceError Hex64)
    (commitments : Option (List Hex64)) : Except ProofRoutes.RouteError (Option Hex64) :=
  match commitments with
  | none => .error (.badRequest "commitments must be an array")
  | some commitments =>
      ((buildTree hash commitments ProofRoutes.treeDepth).map Tree.root).mapError .thrown

end Root

/-! The post of `fetchNewRootFromMerkle`. -/
section Post

/-- The limit of Fastify for a body, in bytes, which `server.js` leaves as it is. -/
def bodyLimit : Nat := 1_048_576

def quoted (hex : Hex64) : String := "\"" ++ hex.text ++ "\""

/-- `JSON.stringify({ commitments })`. -/
def rootBody (commitments : List Hex64) : String :=
  "\x7b\"commitments\":[" ++ ",".intercalate (commitments.map quoted) ++ "]\x7d"

/-- 413, or what the route refuses. -/
inductive PostError where
  | tooLarge
  | route (error : ProofRoutes.RouteError)
  deriving DecidableEq

def postRoot (hash : Hex64 → Hex64 → Except ServiceError Hex64) (commitments : List Hex64) :
    Except PostError (Option Hex64) :=
  if (rootBody commitments).length ≤ bodyLimit then
    (rootRoute hash (some commitments)).mapError .route
  else .error .tooLarge

theorem quoted_length (hex : Hex64) : (quoted hex).length = 66 := by
  rw [quoted, String.length_append, String.length_append, hex.length]
  decide

theorem intercalate_quoted (first : Hex64) (others : List Hex64) :
    (",".intercalate ((first :: others).map quoted)).length = 66 + 67 * others.length := by
  induction others generalizing first with
  | nil => simp [quoted_length]
  | cons second others ih =>
      have comma : ",".length = 1 := by decide
      rw [List.map_cons, String.intercalate_cons_of_ne_nil (by simp), String.length_append,
        String.length_append, ih second, quoted_length, List.length_cons, comma]
      omega

theorem root_body_length {commitments : List Hex64} (some : commitments ≠ []) :
    (rootBody commitments).length = 17 + 67 * commitments.length := by
  obtain ⟨first, others, rfl⟩ := List.exists_cons_of_ne_nil some
  have front : "\x7b\"commitments\":[".length = 16 := by decide
  have back : "]\x7d".length = 2 := by decide
  rw [rootBody, String.length_append, String.length_append, intercalate_quoted, List.length_cons,
    front, back]
  omega

/-- 15,650 commitments are what a post has room for. -/
theorem root_body_fits {commitments : List Hex64} (some : commitments ≠ []) :
    (rootBody commitments).length ≤ bodyLimit ↔ commitments.length ≤ 15_650 := by
  rw [root_body_length some, bodyLimit]
  omega

end Post

/-! The database behind the routes: the indexer saves what it has not got. -/
section Tables

def factOf (event : Found) : Database.Deposit :=
  ⟨event.2.leafIndex.toInt64, event.2.commitment, event.2.newRoot, event.1⟩

def database (poolAddress : String) (found : List Found) : Db :=
  Database.indexAll poolAddress (found.map factOf) Db.empty

/-- Deposits with indices of their own are all new to the indexer. -/
theorem index_all_fresh (poolAddress : String) {deposits : List Database.Deposit} {db : Db}
    (apart : (deposits.map Database.Deposit.leafIndex).Nodup)
    (new : ∀ deposit ∈ deposits, Database.commitmentExists db deposit.leafIndex = false) :
    Database.indexAll poolAddress deposits db = Database.saveAll poolAddress deposits db := by
  induction deposits generalizing db with
  | nil => rfl
  | cons deposit rest ih =>
      rw [List.map_cons, List.nodup_cons] at apart
      have saved := Database.index_new poolAddress (new deposit List.mem_cons_self)
      rw [Database.indexAll, List.foldl_cons, saved, ← Database.indexAll]
      refine ih apart.2 ?_
      intro later member
      rw [Bool.eq_false_iff]
      intro known
      rcases (Database.save_exists poolAddress db deposit later.leafIndex).mp known with old | same
      · rw [new later (List.mem_cons_of_mem _ member)] at old
        cases old
      · exact apart.1 (same ▸ List.mem_map_of_mem member)

theorem fact_index {found : List Found} (consecutive : Consecutive found)
    (few : found.length ≤ 2 ^ PoolState.treeDepth) {k : Nat} (inside : k < found.length) :
    (found[k].2.leafIndex.toInt64).toInt = k := by
  have place := consecutive k _ (List.getElem?_eq_getElem inside)
  rw [PoolState.treeDepth] at few
  rw [EventDecoding.index_lossless (by omega), place]

theorem facts_rising {found : List Found} (consecutive : Consecutive found)
    (few : found.length ≤ 2 ^ PoolState.treeDepth) :
    found.Pairwise fun event later => event.2.leafIndex.toInt64 < later.2.leafIndex.toInt64 := by
  rw [List.pairwise_iff_getElem]
  intro i j left right before
  rw [Int64.lt_iff_toInt_lt, fact_index consecutive few left, fact_index consecutive few right]
  omega

theorem facts_apart {found : List Found} (consecutive : Consecutive found)
    (few : found.length ≤ 2 ^ PoolState.treeDepth) :
    ((found.map factOf).map Database.Deposit.leafIndex).Nodup := by
  rw [List.map_map, List.Nodup, List.pairwise_map]
  refine (facts_rising consecutive few).imp ?_
  intro event later before
  exact Int64.ne_of_lt before

theorem database_saved (poolAddress : String) {found : List Found}
    (consecutive : Consecutive found) (few : found.length ≤ 2 ^ PoolState.treeDepth) :
    database poolAddress found = Database.saveAll poolAddress (found.map factOf) Db.empty :=
  index_all_fresh poolAddress (facts_apart consecutive few) fun _ _ => rfl

/-- `get_commitments` lists the indexed deposits in leaf order. -/
theorem database_lists (poolAddress : String) {found : List Found}
    (consecutive : Consecutive found) (few : found.length ≤ 2 ^ PoolState.treeDepth) :
    getCommitments (database poolAddress found) poolAddress =
      found.map fun event => (event.2.leafIndex.toInt64, event.2.commitment) := by
  have single : Database.OnePerLeaf (found.map factOf) := by
    intro deposit member other among same
    rw [List.inj_on_of_nodup_map (facts_apart consecutive few) member among same]
  have rising := Database.get_commitments_rising (database poolAddress found) poolAddress
  have listed : (found.map fun event => (event.2.leafIndex.toInt64, event.2.commitment)).Pairwise
      fun entry later => entry.1 < later.1 := by
    rw [List.pairwise_map]
    exact facts_rising consecutive few
  have members : ∀ entry, entry ∈ getCommitments (database poolAddress found) poolAddress ↔
      entry ∈ found.map fun event => (event.2.leafIndex.toInt64, event.2.commitment) := by
    intro entry
    rw [database_saved poolAddress consecutive few, Database.saved_entries poolAddress single]
    simp only [List.mem_map, factOf, Prod.ext_iff, exists_exists_and_eq_and]
  have irreflexive : Std.Irrefl fun entry later : Int64 × Bytes32 => entry.1 < later.1 :=
    ⟨fun entry => Int64.lt_irrefl⟩
  have antisymmetric : Std.Antisymm fun entry later : Int64 × Bytes32 => entry.1 < later.1 :=
    ⟨fun entry later below above => absurd below (Int64.lt_asymm above)⟩
  exact rising.eq_of_mem_iff listed members

theorem database_latest (poolAddress : String) {found : List Found}
    (consecutive : Consecutive found) (few : found.length ≤ 2 ^ PoolState.treeDepth) :
    getLatestRoot (database poolAddress found) poolAddress =
      found.getLast?.map fun event => event.2.newRoot := by
  rw [database_saved poolAddress consecutive few, Database.latest_root_last, List.getLast?_map,
    Option.map_map]
  rfl

end Tables

/-! What has been indexed, in any reachable state. -/
section Indexed
variable {poseidon2Permutation : Vector Field 4 → Vector Field 4}
  {services : Services poseidon2Permutation} {verifier : List UInt8 → Bool}
  {deployment : Deployment} {launch : Launch verifier deployment}

/-- Each accepted root is that of the commitments up to its own. -/
def Rooted (poseidon2Permutation : Vector Field 4 → Vector Field 4)
    (system : System deployment) : Prop :=
  ∀ (k : Nat) (args : DepositArgs), (deposits system.history)[k]? = some args →
    hexEncode args.newRoot = MerkleTree.root (hashHex poseidon2Permutation) emptyLeaf
      ((accepted system).take (k + 1)) PoolState.treeDepth

theorem step_accepts {before after : System deployment} {action : Action deployment}
    (step : Step services verifier before action after) :
    deposits after.history = deposits before.history ∨
      ∃ args, deposits after.history = deposits before.history ++ [args] := by
  cases step with
  | submit client tx existing args next waits sent committed =>
      exact Or.inr ⟨args, deposits_snoc before.history sent⟩
  | other tx next apart committed => exact Or.inl (deposits_snoc_other before.history apart)
  | _ => exact Or.inl rfl

theorem step_rooted {before after : System deployment} {action : Action deployment}
    (rooted : Rooted poseidon2Permutation before) (sound : Sound launch poseidon2Permutation after)
    (step : Step services verifier before action after) : Rooted poseidon2Permutation after := by
  intro k args place
  rcases step_accepts step with same | ⟨last, more⟩
  · rw [same] at place
    rw [accepted, same]
    exact rooted k args place
  · obtain ⟨inside, _⟩ := List.getElem?_eq_some_iff.mp place
    rw [more, List.length_append, List.length_singleton] at inside
    rcases Nat.lt_or_eq_of_le (Nat.le_of_lt_succ inside) with early | rfl
    · rw [more, List.getElem?_append_left early] at place
      have short : k + 1 ≤ (accepted before).length := by
        rw [accepted, List.length_map]
        exact early
      have kept : (accepted after).take (k + 1) = (accepted before).take (k + 1) := by
        rw [accepted, more, List.map_append, ← accepted, List.take_append_of_le_length short]
      rw [kept]
      exact rooted k args place
    · -- the newest root is the one the invariant of the race is about
      rw [more, List.getElem?_concat_length] at place
      obtain rfl := Option.some.inj place
      have whole : (accepted after).length ≤ (deposits before.history).length + 1 := by
        rw [accepted, more, List.length_map, List.length_append, List.length_singleton]
      rw [List.take_of_length_le whole]
      exact sound.rooted _ _ more

theorem reachable_rooted {system : System deployment}
    (reached : Reachable services verifier launch UpToDate system) :
    Sound launch poseidon2Permutation system ∧ Rooted poseidon2Permutation system := by
  induction reached with
  | start => exact ⟨initial_sound launch, nofun⟩
  | next earlier permitted taken ih =>
      have sound := step_sound ih.1 permitted taken
      exact ⟨sound, step_rooted ih.2 sound taken⟩

theorem indexed_consecutive {system : System deployment}
    (sound : Sound launch poseidon2Permutation system) : Consecutive system.found := by
  have indices := (Accounting.trace_log launch sound.trace).indices
  intro k event place
  have there : (Accounting.depositEvents system.chain.log)[k]? = some event.2 := by
    obtain ⟨rest, whole⟩ := sound.indexed
    obtain ⟨inside, _⟩ := List.getElem?_eq_some_iff.mp place
    rw [← whole, List.getElem?_append_left (by rwa [List.length_map]), List.getElem?_map, place]
    rfl
  have read := congrArg (·[k]?) indices
  simp only [List.getElem?_map, there, Option.map_some] at read
  obtain ⟨_, index⟩ := List.getElem?_eq_some_iff.mp read.symm
  rw [List.getElem_range] at index
  exact index.symm

/-- The events that were indexed are those of the first deposits. -/
theorem indexed_facts {system : System deployment}
    (sound : Sound launch poseidon2Permutation system) :
    system.found.map (fun event => (event.2.commitment, event.2.newRoot)) =
      ((deposits system.history).map fun args => (args.commitment, args.newRoot)).take
        system.found.length := by
  have taken := List.prefix_iff_eq_take.mp sound.indexed
  have facts := congrArg (List.map fun event : DepositEvent => (event.commitment, event.newRoot))
    taken
  rw [List.map_map, List.map_take, (Accounting.trace_log launch sound.trace).contents,
    List.length_map] at facts
  exact facts

theorem indexed_few {system : System deployment}
    (sound : Sound launch poseidon2Permutation system) :
    system.found.length ≤ 2 ^ PoolState.treeDepth := by
  obtain ⟨_, _, follows⟩ := trace_follows launch sound.trace
  have facts := congrArg List.length (indexed_facts sound)
  rw [List.length_map, List.length_take, List.length_map] at facts
  have bounded := follows.bounded
  omega

theorem indexed_leaves {system : System deployment}
    (sound : Sound launch poseidon2Permutation system) :
    leaves system.found = (accepted system).take system.found.length := by
  have encoded := congrArg (List.map fun facts : Bytes32 × Bytes32 => hexEncode facts.1)
    (indexed_facts sound)
  rw [List.map_map, List.map_take, List.map_map] at encoded
  exact encoded

/-- The rows of the table as `/api/commitments` sends them. -/
def entriesOf (tables : Tables) : List DepositClient.CommitmentEntry :=
  tables.commitments.rows.map fun row => ⟨row.leafIndex.toInt, (hexEncode row.commitment).text⟩

/-- The client reads the indexed commitments off the rows, in leaf order. -/
theorem indexed_listed {system : System deployment}
    (sound : Sound launch poseidon2Permutation system) :
    DepositClient.existingCommitments (entriesOf (backend services system.found).tables) =
      some (system.found.map fun event => event.2.commitment.toList) := by
  have consecutive := indexed_consecutive sound
  have few := indexed_few sound
  have rows := (index_events_stage [] services.config consecutive services.up services.ready
    system.found.length (Nat.le_refl _)).rows
  rw [List.take_length] at rows
  have entries : entriesOf (backend services system.found).tables =
      system.found.map fun event =>
        ⟨event.2.leafIndex.toInt64.toInt, (hexEncode event.2.commitment).text⟩ := by
    have read := congrArg (List.map fun row : Int64 × Bytes32 =>
      (⟨row.1.toInt, (hexEncode row.2).text⟩ : DepositClient.CommitmentEntry)) rows
    rw [List.map_map, List.map_map] at read
    exact read
  have ordered : (entriesOf (backend services system.found).tables).Pairwise
      fun a b => decide (a.leafIndex ≤ b.leafIndex) = true := by
    rw [entries, List.pairwise_map, List.pairwise_iff_getElem]
    intro i j left right before
    have order : (i : Int) ≤ j := by omega
    rwa [decide_eq_true_eq, fact_index consecutive few left, fact_index consecutive few right]
  rw [DepositClient.existingCommitments, List.mergeSort_of_pairwise ordered, entries,
    List.mapM_map]
  simp only [Function.comp_def, hex_encode_text, hex_round_trip]
  exact List.mapM_pure

/-- The table holds what has been indexed. -/
theorem indexed_rows {system : System deployment}
    (sound : Sound launch poseidon2Permutation system) :
    dbLeaves (backend services system.found).tables = leaves system.found := by
  have stored := stage_leaves (index_events_stage [] services.config (indexed_consecutive sound)
    services.up services.ready system.found.length (Nat.le_refl _))
  rwa [List.take_length] at stored

/-- The levels in Redis are those of the indexed commitments. -/
theorem indexed_represents {system : System deployment}
    (sound : Sound launch poseidon2Permutation system) :
    RedisTree.Represents (hashHex poseidon2Permutation) PoolState.treeDepth (leaves system.found)
      (backend services system.found).tree.store := by
  have honest : Honest (hashHex poseidon2Permutation) services.weather.answers :=
    fun n left right => Or.inr (services.answers n left right)
  have grown := index_events_grown [] services.config honest services.up services.ready
    (indexed_consecutive sound) system.found.length (Nat.le_refl _)
    fun _ _ _ _ => ⟨_, services.answers _ _ _⟩
  have whole := grown.whole
  rwa [List.take_length, services.depth] at whole

end Indexed

/-! What `/api/commitments` answers. -/
section Listing
variable {poseidon2Permutation : Vector Field 4 → Vector Field 4}
  {services : Services poseidon2Permutation} {verifier : List UInt8 → Bool}
  {deployment : Deployment} {launch : Launch verifier deployment}

/-- `handle_commitments`. An error of Redis, or a text that does not parse, counts as a
missing response. -/
def handleCommitments {Response : Type} (cached : Except RedisError (Option Response))
    (rows : Except DbError Response) : Except DbError Response :=
  match cached with
  | .ok (some response) => .ok response
  | _ => rows

theorem handle_commitments_missed {Response : Type}
    {cached : Except RedisError (Option Response)} (missed : Missed cached)
    (rows : Except DbError Response) : handleCommitments cached rows = rows := by
  cases missed <;> rfl

/-- What Redis answers about a key. -/
inductive Redis {α : Type} (held : Option α) : Except RedisError (Option α) → Prop
  | reads : Redis held (.ok held)
  | fails (error : RedisError) : Redis held (.error error)

/-- A key that holds nothing is missed. -/
theorem redis_answer {α : Type} {held : Option α} {cached : Except RedisError (Option α)}
    (answer : Redis held cached) :
    (∃ value, held = some value ∧ cached = .ok (some value)) ∨ Missed cached := by
  cases answer with
  | reads =>
      cases held with
      | none => exact Or.inr .absent
      | some value => exact Or.inl ⟨value, rfl, rfl⟩
  | fails error => exact Or.inr (.failed error)

/-- The response with these commitments, the first of leaf 0. -/
def responseOf (listed : List Hex64) : List DepositClient.CommitmentEntry :=
  listed.mapIdx fun k leaf => ⟨k, leaf.text⟩

theorem response_texts (listed : List Hex64) :
    (responseOf listed).map DepositClient.CommitmentEntry.commitment =
      listed.map Hex64.text := by
  apply List.ext_getElem
  · simp [responseOf]
  · intro k left right
    simp [responseOf]

/-- The client's request for the commitments is answered with these entries, which list these
leaves. -/
structure Lists (services : Services poseidon2Permutation) (system : System deployment)
    (listed : List Hex64) (entries : List DepositClient.CommitmentEntry) : Prop where
  answered : ∃ cached, Redis (system.cache.map responseOf) cached ∧
    handleCommitments cached (.ok (entriesOf (backend services system.found).tables)) =
      .ok entries
  texts : entries.map DepositClient.CommitmentEntry.commitment = listed.map Hex64.text

theorem texts_unique {listed other : List Hex64}
    (same : listed.map Hex64.text = other.map Hex64.text) : listed = other := by
  refine List.map_injective_iff.mpr ?_ same
  rintro ⟨text, _, _⟩ ⟨_, _, _⟩ rfl
  rfl

/-- It is the response that Redis keeps, or the rows of the table. -/
theorem lists_cases {system : System deployment} {listed : List Hex64}
    {entries : List DepositClient.CommitmentEntry} (lists : Lists services system listed entries) :
    system.cache = some listed ∧ entries = responseOf listed ∨
      listed = dbLeaves (backend services system.found).tables ∧
        entries = entriesOf (backend services system.found).tables := by
  obtain ⟨cached, answer, read⟩ := lists.answered
  have texts := lists.texts
  rcases redis_answer answer with ⟨response, held, rfl⟩ | missed
  · obtain ⟨leaves, there, rfl⟩ := Option.map_eq_some_iff.mp held
    obtain rfl : responseOf leaves = entries := Except.ok.inj read
    rw [response_texts] at texts
    exact Or.inl ⟨texts_unique texts ▸ there, by rw [texts_unique texts]⟩
  · rw [handle_commitments_missed missed] at read
    obtain rfl := Except.ok.inj read
    refine Or.inr ⟨texts_unique (texts.symm.trans ?_), rfl⟩
    rw [entriesOf, dbLeaves, List.map_map, List.map_map]
    rfl

/-- With nothing in Redis it is the rows of the table. -/
theorem lists_rows {system : System deployment} (missed : system.cache = none) :
    Lists services system (dbLeaves (backend services system.found).tables)
      (entriesOf (backend services system.found).tables) := by
  refine ⟨⟨.ok none, ?_, rfl⟩, ?_⟩
  · rw [missed]
    exact .reads
  · rw [entriesOf, dbLeaves, List.map_map, List.map_map]
    rfl

/-- What Redis keeps, or will be given to keep, are the first of the indexed leaves. -/
def Cached (system : System deployment) : Prop :=
  ∀ response, system.cache = some response ∨ response ∈ system.filling →
    response <+: leaves system.found

theorem step_cached {before after : System deployment} {action : Action deployment}
    (cached : Cached before) (sound : Sound launch poseidon2Permutation before)
    (step : Step services verifier before action after) : Cached after := by
  cases step with
  | listDatabase client commitment amount waits missed =>
      rintro response (held | filling)
      · exact cached response (Or.inl held)
      · rcases List.mem_cons.mp filling with rfl | earlier
        · rw [indexed_rows sound]
          exact List.prefix_refl _
        · exact cached response (Or.inr earlier)
  | fill response front back pending =>
      rintro other (held | filling)
      · obtain rfl : response = other := Option.some.inj held
        exact cached response (Or.inr (pending ▸ by simp))
      · refine cached other (Or.inr ?_)
        rw [pending, List.mem_append, List.mem_cons]
        exact (List.mem_append.mp filling).imp_right Or.inr
  | expire =>
      rintro response (held | filling)
      · cases held
      · exact cached response (Or.inr filling)
  | index txSignature event next =>
      -- the key is dropped, but not the fills under way: these may bring an older list back
      rintro response (held | filling)
      · cases held
      · refine (cached response (Or.inr filling)).trans ?_
        rw [leaves, leaves, List.map_append]
        exact List.prefix_append _ _
  | _ => exact cached

theorem reachable_cached {system : System deployment}
    (reached : Reachable services verifier launch UpToDate system) : Cached system := by
  induction reached with
  | start =>
      rintro response (held | filling)
      · cases held
      · cases filling
  | next earlier permitted taken ih => exact step_cached ih (reachable_sound earlier) taken

/-- The client reads the commitments off any response that lists them in leaf order. -/
theorem response_read (commitments : List Bytes32) :
    DepositClient.existingCommitments (responseOf (commitments.map hexEncode)) =
      some (commitments.map fun commitment => commitment.toList) := by
  have ordered : (responseOf (commitments.map hexEncode)).Pairwise
      fun a b => decide (a.leafIndex ≤ b.leafIndex) = true := by
    rw [responseOf, List.pairwise_iff_getElem]
    intro i j left right before
    simp only [List.getElem_mapIdx, decide_eq_true_eq]
    omega
  have read := List.mapM_map (m := Option) (g := hexToBytes)
    (f := DepositClient.CommitmentEntry.commitment) (l := responseOf (commitments.map hexEncode))
  rw [response_texts, List.map_map, List.mapM_map] at read
  rw [DepositClient.existingCommitments, List.mergeSort_of_pairwise ordered]
  refine read.symm.trans ?_
  simp only [Function.comp_def, hex_encode_text, hex_round_trip]
  exact List.mapM_pure

/-- Whatever is answered are the first of the indexed commitments, in leaf order. -/
theorem lists_indexed {system : System deployment}
    (reached : Reachable services verifier launch UpToDate system) {listed : List Hex64}
    {entries : List DepositClient.CommitmentEntry} (lists : Lists services system listed entries) :
    ∃ count, count ≤ system.found.length ∧ listed = (leaves system.found).take count ∧
      DepositClient.existingCommitments entries =
        some ((system.found.take count).map fun event => event.2.commitment.toList) := by
  have sound := reachable_sound reached
  rcases lists_cases lists with ⟨held, rfl⟩ | ⟨rfl, rfl⟩
  -- from Redis, the first so many; from the database, all
  · have front := List.prefix_iff_eq_take.mp (reachable_cached reached listed (Or.inl held))
    have length := congrArg List.length front
    rw [List.length_take, leaves, List.length_map] at length
    refine ⟨listed.length, by omega, front, ?_⟩
    have read := response_read ((system.found.take listed.length).map (·.2.commitment))
    rw [List.map_map, List.map_map] at read
    rw [leaves, ← List.map_take] at front
    exact (congrArg (fun leaves => DepositClient.existingCommitments (responseOf leaves))
      front).trans read
  · refine ⟨system.found.length, Nat.le_refl _, ?_, ?_⟩
    · rw [indexed_rows sound, List.take_of_length_le (by simp [leaves])]
    · rw [List.take_length]
      exact indexed_listed sound

end Listing

/-! The answers side by side. -/
section Answers

/-- A store that holds a tree serves the path of every position, unless its root is all
zeros. -/
theorem path_reply {compress : Hex64 → Hex64 → Hex64} {depth : Nat} {leaves : List Hex64}
    {store : RedisTree.Store} (represents : RedisTree.Represents compress depth leaves store)
    (rooted : MerkleTree.root compress emptyLeaf leaves depth ≠ emptyLeaf) (k : Nat) :
    ProofRoutes.reply compress depth store k =
      .ok ⟨(MerkleTree.pathFrom compress (MerkleTree.padded emptyLeaf leaves) 0 depth k).map
          Prod.fst,
        (MerkleTree.pathFrom compress (MerkleTree.padded emptyLeaf leaves) 0 depth k).map Prod.snd,
        MerkleTree.root compress emptyLeaf leaves depth⟩ := by
  have read := MerkleProofs.finish_get_proof represents k
  have caught : RedisTree.finish compress store
      (Script.attempt (RedisTree.getProof k depth)) =
        (.ok (.ok ((MerkleTree.pathFrom compress (MerkleTree.padded emptyLeaf leaves) 0 depth
            k).map Prod.fst,
          (MerkleTree.pathFrom compress (MerkleTree.padded emptyLeaf leaves) 0 depth k).map
            Prod.snd,
          MerkleTree.root compress emptyLeaf leaves depth)), store) := by
    rw [RedisTree.finish, Script.run_attempt, ← RedisTree.finish, read]
  rw [ProofRoutes.reply, ProofRoutes.handleProof, RedisTree.finish_bind _ _ caught]
  simp only [if_neg rooted, RedisTree.finish_pure]

/-- The rows as the client reads them. -/
def sent (response : CommitmentsCache.Response) : List DepositClient.CommitmentEntry :=
  response.map fun entry => ⟨entry.1.toInt, entry.2.text⟩

/-- Whatever a client asks for, it is answered about the tree of these leaves, which had these
roots as it grew. A response in Redis may stop at an earlier leaf, and a post to the merkle
service has room for 15,650. -/
structure SpeaksOf (compress : Hex64 → Hex64 → Hex64) (db : Db) (poolAddress : String)
    (cache : Option (List Hex64)) (store : RedisTree.Store) (leaves roots : List Hex64)
    (root : Hex64) : Prop where
  newest : roots.getLast? = some root
  commitments : ∀ cached, Redis (cache.map responseOf) cached → ∃ count,
    count ≤ leaves.length ∧ (Missed cached → count = leaves.length) ∧
      handleCommitments cached (.ok (sent (CommitmentsCache.respond db poolAddress))) =
        .ok (responseOf (leaves.take count))
  fromRedis : ∀ latest, handleRoot (.ok store.root) latest = .ok root
  fromDatabase : ∀ cached, Missed cached →
    handleRoot cached (.ok (getLatestRoot db poolAddress)) = .ok root
  rebuilt : ∀ count, 0 < count → count ≤ leaves.length →
    postRoot (answering compress) (leaves.take count) =
      if count ≤ 15_650 then .ok roots[count - 1]? else .error .tooLarge
  paths : root ≠ emptyLeaf → ∀ (k : Nat) (inside : k < leaves.length), ∃ answer,
    ProofRoutes.reply compress PoolState.treeDepth store k = .ok answer ∧ answer.root = root ∧
      MerkleTree.climb compress leaves[k] (answer.proof.zip answer.isEven) = root

/-- Every path that is served leads from its leaf to the root. -/
theorem paths_climb {compress : Hex64 → Hex64 → Hex64} {depth : Nat} {leaves : List Hex64}
    {store : RedisTree.Store} (represents : RedisTree.Represents compress depth leaves store)
    (few : leaves.length ≤ 2 ^ depth)
    (rooted : MerkleTree.root compress emptyLeaf leaves depth ≠ emptyLeaf) {k : Nat}
    (inside : k < leaves.length) :
    ∃ answer, ProofRoutes.reply compress depth store k = .ok answer ∧
      answer.root = MerkleTree.root compress emptyLeaf leaves depth ∧
      MerkleTree.climb compress leaves[k] (answer.proof.zip answer.isEven) =
        MerkleTree.root compress emptyLeaf leaves depth := by
  refine ⟨_, path_reply represents rooted k, rfl, ?_⟩
  have own : MerkleTree.padded emptyLeaf leaves k = leaves[k] := List.getD_eq_getElem _ _ inside
  rw [← List.zip_of_prod rfl rfl, ← own]
  exact MerkleTree.climb_leaf compress _ depth k (Nat.lt_of_lt_of_le inside few)

theorem root_route (compress : Hex64 → Hex64 → Hex64) (leaves : List Hex64) :
    rootRoute (answering compress) (some leaves) =
      .ok (some (MerkleTree.root compress emptyLeaf leaves PoolState.treeDepth)) := by
  have built := build_tree_nodes compress leaves (show ProofRoutes.treeDepth ≤ 30 by decide)
  rw [rootRoute, built]
  rfl

/-- A post with room gets the root of its commitments. -/
theorem post_root (compress : Hex64 → Hex64 → Hex64) {commitments : List Hex64}
    (some' : commitments ≠ []) :
    postRoot (answering compress) commitments =
      if commitments.length ≤ 15_650 then
        .ok (some (MerkleTree.root compress emptyLeaf commitments PoolState.treeDepth))
      else .error .tooLarge := by
  rw [postRoot, if_congr (root_body_fits some') rfl rfl, root_route]
  rfl

theorem responds {poolAddress : String} {found : List Found} (consecutive : Consecutive found)
    (few : found.length ≤ 2 ^ PoolState.treeDepth) :
    sent (CommitmentsCache.respond (database poolAddress found) poolAddress) =
      responseOf (leaves found) := by
  rw [CommitmentsCache.respond, database_lists poolAddress consecutive few]
  apply List.ext_getElem
  · simp [sent, responseOf, leaves]
  · intro k left right
    have inside : k < found.length := by simpa [sent] using left
    simp only [sent, responseOf, List.getElem_map, List.getElem_mapIdx, leaves, leafOf,
      fact_index consecutive few inside]

/-- The response in Redis is of the first leaves, and without one it is of all. -/
theorem commitments_answered {cache : Option (List Hex64)} {leaves : List Hex64}
    (earlier : ∀ response, cache = some response → response <+: leaves)
    {cached : Except RedisError (Option (List DepositClient.CommitmentEntry))}
    (answer : Redis (cache.map responseOf) cached) :
    ∃ count, count ≤ leaves.length ∧ (Missed cached → count = leaves.length) ∧
      handleCommitments cached (.ok (responseOf leaves)) =
        .ok (responseOf (leaves.take count)) := by
  rcases redis_answer answer with ⟨entries, held, rfl⟩ | missed
  · obtain ⟨response, there, rfl⟩ := Option.map_eq_some_iff.mp held
    have front := earlier response there
    refine ⟨response.length, front.length_le, nofun, ?_⟩
    rw [← List.prefix_iff_eq_take.mp front]
    rfl
  · refine ⟨leaves.length, Nat.le_refl _, fun _ => rfl, ?_⟩
    rw [handle_commitments_missed missed, List.take_length]

variable {poseidon2Permutation : Vector Field 4 → Vector Field 4} {verifier : List UInt8 → Bool}
  {deployment : Deployment}

/-- The root that was submitted with a leaf is the one that the commitments up to it give. -/
theorem indexed_roots {system : System deployment}
    (sound : Sound launch poseidon2Permutation system)
    (rooted : Rooted poseidon2Permutation system) {count : Nat} (some' : 0 < count)
    (enough : count ≤ system.found.length) :
    (((deposits system.history).map fun args => hexEncode args.newRoot).take
      system.found.length)[count - 1]? =
        some (MerkleTree.root (hashHex poseidon2Permutation) emptyLeaf
          ((leaves system.found).take count) PoolState.treeDepth) := by
  have size := congrArg List.length (indexed_facts sound)
  rw [List.length_map, List.length_take, List.length_map] at size
  have place : count - 1 < (deposits system.history).length := by omega
  rw [List.getElem?_take_of_lt (by omega), List.getElem?_map, List.getElem?_eq_getElem place,
    Option.map_some, rooted _ _ (List.getElem?_eq_getElem place), Nat.sub_add_cancel some',
    indexed_leaves sound, List.take_take, Nat.min_eq_left enough]

end Answers

end PrivateTransfer.ReadRoutes
