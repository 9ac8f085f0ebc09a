import PrivateTransfer.Database
import PrivateTransfer.Interleaving

/-!
`handle_commitments` of `backend/src/main.rs` beside the indexer: any number of
requests look into the cache, on a miss read the database and then fill the cache,
while the indexer saves a deposit and then invalidates. Every access to Redis or to
the database is a step of its own.
-/

namespace PrivateTransfer.CommitmentsCache

open Database MerkleService

/-- The entries of a `CommitmentsResponse`. -/
abbrev Response := List (Int64 × Hex64)

def respond (db : Db) (poolAddress : String) : Response :=
  (getCommitments db poolAddress).map fun row => (row.1, hexEncode row.2)

/-- How far a request is. `due` are the leaves that had been invalidated when it began,
which no step looks at. -/
inductive Stage where
  | absent
  | missed (due : List Int64)
  | read (due : List Int64) (response : Response)
  | answered (due : List Int64) (response : Response)
  | failed

/-- The database, the key `commitments:{pool}`, the requests and the indexer, which has saved
a leaf and not yet invalidated or is between two deposits. -/
structure System where
  db : Db
  cache : Option Response
  requests : Nat → Stage
  saved : Option Int64
  invalidated : List Int64

def System.setRequest (system : System) (request : Nat) (stage : Stage) : System :=
  { system with requests := Function.update system.requests request stage }

inductive Action where
  | get (request : Nat)
  | getFails (request : Nat)
  | query (request : Nat)
  | queryFails (request : Nat)
  | setEx (request : Nat)
  | setExFails (request : Nat)
  | expire
  | saveDeposit (deposit : Deposit)
  | invalidatePool
  | invalidateFails

/-- A request begins with its look into the cache. The indexer saves what
`commitment_exists` has not found. -/
inductive Step (poolAddress : String) (system : System) : Action → System → Prop
  | hit (request : Nat) (response : Response) (fresh : system.requests request = .absent)
      (cached : system.cache = some response) :
      Step poolAddress system (.get request)
        (system.setRequest request (.answered system.invalidated response))
  | miss (request : Nat) (fresh : system.requests request = .absent)
      (missing : system.cache = none) :
      Step poolAddress system (.get request)
        (system.setRequest request (.missed system.invalidated))
  -- an error of Redis, or text that does not parse, counts as a miss
  | getFails (request : Nat) (fresh : system.requests request = .absent) :
      Step poolAddress system (.getFails request)
        (system.setRequest request (.missed system.invalidated))
  | query (request : Nat) (due : List Int64) (waits : system.requests request = .missed due) :
      Step poolAddress system (.query request)
        (system.setRequest request (.read due (respond system.db poolAddress)))
  | queryFails (request : Nat) (due : List Int64) (waits : system.requests request = .missed due) :
      Step poolAddress system (.queryFails request) (system.setRequest request .failed)
  | setEx (request : Nat) (due : List Int64) (response : Response)
      (waits : system.requests request = .read due response) :
      Step poolAddress system (.setEx request)
        { system.setRequest request (.answered due response) with cache := some response }
  | setExFails (request : Nat) (due : List Int64) (response : Response)
      (waits : system.requests request = .read due response) :
      Step poolAddress system (.setExFails request)
        (system.setRequest request (.answered due response))
  | expire : Step poolAddress system .expire { system with cache := none }
  | saveDeposit (deposit : Deposit) (between : system.saved = none)
      (new : commitmentExists system.db deposit.leafIndex = false) :
      Step poolAddress system (.saveDeposit deposit)
        { system with
          db := save poolAddress system.db deposit
          saved := some deposit.leafIndex }
  | invalidatePool (leafIndex : Int64) (saved : system.saved = some leafIndex) :
      Step poolAddress system .invalidatePool
        { system with
          cache := none
          saved := none
          invalidated := leafIndex :: system.invalidated }
  | invalidateFails (leafIndex : Int64) (saved : system.saved = some leafIndex) :
      Step poolAddress system .invalidateFails { system with saved := none }

def initial (db : Db) (cache : Option Response) : System :=
  ⟨db, cache, fun _ => .absent, none, []⟩

def Lists (response : Response) (leaves : List Int64) : Prop :=
  ∀ leafIndex ∈ leaves, leafIndex ∈ response.map Prod.fst

/-- No request answers without a leaf that was invalidated before it began. -/
def Fresh (system : System) : Prop :=
  ∀ request due response, system.requests request = .answered due response → Lists response due

/-- What is put into the cache lists every leaf that has been invalidated by then. -/
def Current (system : System) (action : Action) : Prop :=
  ∀ request due response, action = .setEx request → system.requests request = .read due response →
    Lists response system.invalidated

/-! The database is always ahead of the invalidations; so is the cache while no list
older than one of them is put into it. -/
section Invariant
variable {poolAddress : String} {system : System}

def Stage.Good (known : List Int64) : Stage → Prop
  | absent => True
  | missed due => ∀ leafIndex ∈ due, leafIndex ∈ known
  | read due response => Lists response due
  | answered due response => Lists response due
  | failed => True

structure Good (poolAddress : String) (system : System) : Prop where
  database : Lists (respond system.db poolAddress) system.invalidated
  saved : ∀ leafIndex, system.saved = some leafIndex →
    Lists (respond system.db poolAddress) [leafIndex]
  cache : ∀ response, system.cache = some response → Lists response system.invalidated
  requests : ∀ request, (system.requests request).Good system.invalidated

theorem good_initial (db : Db) (cache : Option Response) : Good poolAddress (initial db cache) :=
  ⟨by simp [Lists, initial], nofun, by simp [Lists, initial], fun _ => trivial⟩

theorem good_request (good : Good poolAddress system) (request : Nat) {stage : Stage}
    (kept : stage.Good system.invalidated) :
    Good poolAddress (system.setRequest request stage) := by
  refine ⟨good.database, good.saved, good.cache, fun other => ?_⟩
  by_cases same : other = request
  · subst same
    simpa [System.setRequest] using kept
  · simpa [System.setRequest, same] using good.requests other

theorem listed_iff (db : Db) (poolAddress : String) (leafIndex : Int64) :
    leafIndex ∈ (respond db poolAddress).map Prod.fst ↔
      ∃ row ∈ db.commitments.rows, row.poolAddress = poolAddress ∧ row.leafIndex = leafIndex := by
  have same : (respond db poolAddress).map Prod.fst =
      (getCommitments db poolAddress).map Prod.fst := by
    rw [respond, List.map_map]
    rfl
  rw [same, List.mem_map]
  constructor
  · rintro ⟨entry, member, rfl⟩
    obtain ⟨row, held, pool, index, _⟩ := (mem_get_commitments _ _ _).mp member
    exact ⟨row, held, pool, index⟩
  · rintro ⟨row, held, pool, rfl⟩
    exact ⟨(row.leafIndex, row.commitment),
      (mem_get_commitments _ _ _).mpr ⟨row, held, pool, rfl, rfl⟩, rfl⟩

/-- A leaf that is listed stays listed. -/
theorem save_lists {db : Db} {leaves : List Int64} (deposit : Deposit)
    (listed : Lists (respond db poolAddress) leaves) :
    Lists (respond (save poolAddress db deposit) poolAddress) leaves := by
  intro leafIndex member
  obtain ⟨row, held, own⟩ := (listed_iff db poolAddress leafIndex).mp (listed leafIndex member)
  exact (listed_iff _ _ _).mpr ⟨row, (save_rows _ _ _ _).mpr (Or.inl held), own⟩

/-- A leaf that was not there is listed once it is saved. -/
theorem save_lists_own {db : Db} {deposit : Deposit}
    (new : commitmentExists db deposit.leafIndex = false) :
    Lists (respond (save poolAddress db deposit) poolAddress) [deposit.leafIndex] := by
  intro leafIndex member
  rw [List.mem_singleton.mp member]
  have held : deposit.row poolAddress ∈ (save poolAddress db deposit).commitments.rows :=
    (save_rows _ _ _ _).mpr (Or.inr ⟨rfl, by simp [new]⟩)
  exact (listed_iff _ _ _).mpr ⟨deposit.row poolAddress, held, rfl, rfl⟩

theorem stage_later {known : List Int64} (leafIndex : Int64) {stage : Stage}
    (good : stage.Good known) : stage.Good (leafIndex :: known) := by
  cases stage with
  | missed due => exact fun leaf member => List.mem_cons_of_mem _ (good leaf member)
  | _ => exact good

theorem step_good {action : Action} {after : System} (good : Good poolAddress system)
    (current : Current system action) (step : Step poolAddress system action after) :
    Good poolAddress after := by
  cases step with
  | hit request response _ cached => exact good_request good request (good.cache response cached)
  | miss request _ _ => exact good_request good request fun _ member => member
  | getFails request _ => exact good_request good request fun _ member => member
  | query request due waits =>
      have known := good.requests request
      rw [waits] at known
      exact good_request good request fun leaf member => good.database leaf (known leaf member)
  | queryFails request _ _ => exact good_request good request trivial
  | setEx request due response waits =>
      have known := good.requests request
      rw [waits] at known
      have answered := @good_request _ _ good request (.answered due response) known
      refine ⟨answered.database, answered.saved, ?_, answered.requests⟩
      rintro cached ⟨⟩
      exact current request due response rfl waits
  | setExFails request due response waits =>
      have known := good.requests request
      rw [waits] at known
      exact good_request good request known
  | expire => exact ⟨good.database, good.saved, nofun, good.requests⟩
  | saveDeposit deposit _ new =>
      refine ⟨save_lists deposit good.database, ?_, good.cache, good.requests⟩
      rintro leafIndex ⟨⟩
      exact save_lists_own new
  | invalidatePool leafIndex saved =>
      have own := good.saved leafIndex saved
      refine ⟨?_, nofun, nofun, fun request => stage_later leafIndex (good.requests request)⟩
      intro leaf member
      rcases List.mem_cons.mp member with rfl | earlier
      · exact own leaf (List.mem_singleton_self leaf)
      · exact good.database leaf earlier
  | invalidateFails leafIndex _ => exact ⟨good.database, nofun, good.cache, good.requests⟩

end Invariant

open Interleaving

/-- As long as every list that is cached lists what has been invalidated by then, no answer
lacks a leaf that was invalidated before its request began. -/
theorem current_fresh (poolAddress : String) (db : Db) (cache : Option Response) {system : System}
    (reached : Reachable (Step poolAddress) Current (initial db cache) system) : Fresh system := by
  have good : Good poolAddress system := by
    apply reachable_invariant (good_initial db cache) _ reached
    exact fun before action after good current step => step_good good current step
  intro request due response answered
  have stage := good.requests request
  rw [answered] at stage
  exact stage

/-! One deposit beside two requests. -/
section Sample

def sampleDeposit : Deposit := ⟨0, Bytes32.ofNat 1, Bytes32.ofNat 2, "transaction"⟩

/-- The database is read before the deposit is saved, and the cache filled after it has been
invalidated. -/
theorem late_filling_hides_leaf :
    ∃ system, Reachable (Step "pool") (fun _ _ => True) (initial Db.empty none) system ∧
      ¬ Fresh system := by
  have begun : Reachable (Step "pool") (fun _ _ => True) (initial Db.empty none)
      (initial Db.empty none) := .start
  have asked := begun.next trivial (.miss 0 rfl rfl)
  have read := asked.next trivial (.query 0 [] rfl)
  have saved := read.next trivial (.saveDeposit sampleDeposit rfl rfl)
  have invalidated := saved.next trivial (.invalidatePool 0 rfl)
  have filled := invalidated.next trivial (.setEx 0 [] (respond Db.empty "pool") rfl)
  have hit := filled.next trivial (.hit 1 (respond Db.empty "pool") rfl rfl)
  refine ⟨_, hit, fun fresh => ?_⟩
  have listed := fresh 1 [0] (respond Db.empty "pool") rfl 0 (List.mem_singleton_self 0)
  obtain ⟨row, held, _⟩ := (listed_iff _ _ _).mp listed
  exact absurd held List.not_mem_nil

/-- The cache is filled before the deposit is saved, and once more after it was invalidated. -/
theorem early_filling_fresh :
    ∃ system, Reachable (Step "pool") Current (initial Db.empty none) system ∧
      system.invalidated = [0] ∧ system.cache ≠ none ∧ Fresh system := by
  have idle : ∀ before action, (∀ request, action ≠ .setEx request) → Current before action :=
    fun before action other request due response same => absurd same (other request)
  have begun : Reachable (Step "pool") Current (initial Db.empty none) (initial Db.empty none) :=
    .start
  have asked := begun.next (idle _ (.get 0) nofun) (.miss 0 rfl rfl)
  have read := asked.next (idle _ (.query 0) nofun) (.query 0 [] rfl)
  have filled := read.next (by rintro request due response _ _ leaf ⟨⟩)
    (.setEx 0 [] (respond Db.empty "pool") rfl)
  have saved := filled.next (idle _ (.saveDeposit sampleDeposit) nofun)
    (.saveDeposit sampleDeposit rfl rfl)
  have invalidated := saved.next (idle _ .invalidatePool nofun) (.invalidatePool 0 rfl)
  have missed := invalidated.next (idle _ (.get 1) nofun) (.miss 1 rfl rfl)
  have again := missed.next (idle _ (.query 1) nofun) (.query 1 [0] rfl)
  have answered := again.next (by
      rintro request due response ⟨⟩ waits
      cases waits
      exact save_lists_own rfl)
    (.setEx 1 [0] (respond (save "pool" Db.empty sampleDeposit) "pool") rfl)
  exact ⟨_, answered, rfl, nofun, current_fresh "pool" Db.empty none answered⟩

end Sample

end PrivateTransfer.CommitmentsCache
