import PrivateTransfer.CommitmentsCache

/-!
How old a list from `handle_commitments` can be. A race or a lost invalidation may leave
an old list in Redis, but `set_ex` gives it thirty seconds; here the steps of the requests
and of the indexer are taken on a clock.
-/

namespace PrivateTransfer.CacheAge

open CommitmentsCache Database Interleaving

/-- The `30` of `set_ex`, in milliseconds. -/
def ttl : Nat := 30_000

/-- The system with the time, the deadline of what is cached, what the database held since
when (newest first), and when each request has read it and been answered. -/
structure Timed where
  system : System
  clock : Nat
  deadline : Nat
  versions : List (Nat × Db)
  readAt : Nat → Nat
  answeredAt : Nat → Nat

/-- What a step leaves behind beside its effect. -/
def Timed.record (timed : Timed) (action : Action) (after : System) : Timed :=
  match action with
  | .get request =>
      { timed with
        system := after
        answeredAt := Function.update timed.answeredAt request timed.clock }
  | .query request =>
      { timed with
        system := after
        readAt := Function.update timed.readAt request timed.clock }
  | .setEx request =>
      { timed with
        system := after
        deadline := timed.clock + ttl
        answeredAt := Function.update timed.answeredAt request timed.clock }
  | .setExFails request =>
      { timed with
        system := after
        answeredAt := Function.update timed.answeredAt request timed.clock }
  | .saveDeposit _ =>
      { timed with system := after, versions := (timed.clock, after.db) :: timed.versions }
  | .getFails _ | .queryFails _ | .expire | .invalidatePool | .invalidateFails =>
      { timed with system := after }

inductive Event where
  | wait (now : Nat)
  | act (action : Action)

/-- Redis forgets an entry at its deadline; under memory pressure it may do so before. -/
inductive Step (poolAddress : String) (timed : Timed) : Event → Timed → Prop
  | wait (now : Nat) (later : timed.clock ≤ now) :
      Step poolAddress timed (.wait now)
        { timed with
          clock := now
          system :=
            if timed.deadline ≤ now then { timed.system with cache := none } else timed.system }
  | act (action : Action) (after : System)
      (taken : CommitmentsCache.Step poolAddress timed.system action after) :
      Step poolAddress timed (.act action) (timed.record action after)

def started (db : Db) : Timed :=
  ⟨CommitmentsCache.initial db none, 0, 0, [(0, db)], fun _ => 0, fun _ => 0⟩

/-- A request that has read the database comes back from `set_ex` in time. -/
def Prompt (delay : Nat) (timed : Timed) : Event → Prop
  | .act (.setEx request) | .act (.setExFails request) =>
      timed.clock ≤ timed.readAt request + delay
  | _ => True

/-- What the database held at a moment. -/
def InForce (versions : List (Nat × Db)) (moment : Nat) (db : Db) : Prop :=
  ∃ later since earlier, versions = later ++ (since, db) :: earlier ∧ since ≤ moment ∧
    ∀ version ∈ later, moment ≤ version.1

def leaves (poolAddress : String) (db : Db) : List Int64 := (respond db poolAddress).map Prod.fst

/-- Nothing that was listed is missing later. -/
def Growing (poolAddress : String) (versions : List (Nat × Db)) : Prop :=
  versions.Pairwise fun newer older => leaves poolAddress older.2 ⊆ leaves poolAddress newer.2

/-- The list is the database's of a moment that is no further back than `age`. -/
def Dated (poolAddress : String) (timed : Timed) (response : Response) (time age : Nat) : Prop :=
  ∃ moment db, InForce timed.versions moment db ∧ response = respond db poolAddress ∧
    moment ≤ time ∧ time ≤ moment + age

section Versions
variable {versions : List (Nat × Db)} {moment : Nat} {db : Db}

theorem in_force_newest {since : Nat} {earlier : List (Nat × Db)} (past : since ≤ moment) :
    InForce ((since, db) :: earlier) moment db :=
  ⟨[], since, earlier, rfl, past, nofun⟩

theorem in_force_saved {now : Nat} {next : Db} (past : moment ≤ now)
    (held : InForce versions moment db) : InForce ((now, next) :: versions) moment db := by
  obtain ⟨later, since, earlier, rfl, before, after⟩ := held
  refine ⟨(now, next) :: later, since, earlier, rfl, before, ?_⟩
  intro version member
  rcases List.mem_cons.mp member with rfl | old
  · exact past
  · exact after version old

theorem growing_saved {poolAddress : String} {since now : Nat} {earlier : List (Nat × Db)}
    (growing : Growing poolAddress ((since, db) :: earlier)) (deposit : Deposit) :
    Growing poolAddress ((now, save poolAddress db deposit) :: (since, db) :: earlier) := by
  have more : leaves poolAddress db ⊆ leaves poolAddress (save poolAddress db deposit) :=
    save_lists deposit fun _ member => member
  refine List.pairwise_cons.mpr ⟨?_, growing⟩
  intro version member
  rcases List.mem_cons.mp member with rfl | old
  · exact more
  · exact List.Subset.trans ((List.pairwise_cons.mp growing).1 version old) more

/-- What the database held before the moment was still there at the moment. -/
theorem in_force_lists {poolAddress : String} (growing : Growing poolAddress versions)
    (held : InForce versions moment db) {version : Nat × Db} (member : version ∈ versions)
    (before : version.1 < moment) : leaves poolAddress version.2 ⊆ leaves poolAddress db := by
  obtain ⟨later, since, earlier, rfl, _, after⟩ := held
  rcases List.mem_append.mp member with late | rest
  · exact absurd (after version late) (Nat.not_le_of_lt before)
  · rcases List.mem_cons.mp rest with rfl | old
    · exact List.Subset.refl _
    · have behind := (List.pairwise_append.mp growing).2.1
      exact (List.pairwise_cons.mp behind).1 version old

end Versions

/-! What is cached, read and answered, with its date. -/
section Invariant
variable {poolAddress : String} {delay : Nat}

/-- How a request stands by the clock. -/
def StageDated (poolAddress : String) (delay : Nat) (timed : Timed) (request : Nat) :
    Stage → Prop
  | .read _ response =>
      Dated poolAddress timed response (timed.readAt request) 0 ∧
        timed.readAt request ≤ timed.clock
  | .answered _ response =>
      Dated poolAddress timed response (timed.answeredAt request) (ttl + delay) ∧
        timed.answeredAt request ≤ timed.clock
  | _ => True

structure Good (poolAddress : String) (delay : Nat) (timed : Timed) : Prop where
  newest : ∃ since earlier, timed.versions = (since, timed.system.db) :: earlier ∧
    since ≤ timed.clock
  growing : Growing poolAddress timed.versions
  cache : ∀ response, timed.system.cache = some response →
    timed.clock < timed.deadline ∧ ∃ filled, filled + ttl = timed.deadline ∧
      filled ≤ timed.clock ∧ Dated poolAddress timed response filled delay
  requests : ∀ request, StageDated poolAddress delay timed request (timed.system.requests request)

theorem dated_saved {timed after : Timed} {response : Response} {time age now : Nat} {next : Db}
    (saved : after.versions = (now, next) :: timed.versions) (past : time ≤ now)
    (dated : Dated poolAddress timed response time age) :
    Dated poolAddress after response time age := by
  obtain ⟨moment, db, held, answer, early, young⟩ := dated
  refine ⟨moment, db, ?_, answer, early, young⟩
  rw [saved]
  exact in_force_saved (Nat.le_trans early past) held

/-- How a request stands is a matter of its own times and of the versions. -/
theorem stage_same {timed after : Timed} {request : Nat} {stage : Stage}
    (dated : StageDated poolAddress delay timed request stage)
    (versions : after.versions = timed.versions) (clock : timed.clock ≤ after.clock)
    (read : after.readAt request = timed.readAt request)
    (answered : after.answeredAt request = timed.answeredAt request) :
    StageDated poolAddress delay after request stage := by
  cases stage with
  | read due response =>
      obtain ⟨held, past⟩ := dated
      simp only [StageDated, Dated, versions, read]
      exact ⟨held, Nat.le_trans past clock⟩
  | answered due response =>
      obtain ⟨held, past⟩ := dated
      simp only [StageDated, Dated, versions, answered]
      exact ⟨held, Nat.le_trans past clock⟩
  | absent | missed | failed => trivial

theorem stage_saved {timed after : Timed} {request : Nat} {stage : Stage} {next : Db}
    (dated : StageDated poolAddress delay timed request stage)
    (saved : after.versions = (timed.clock, next) :: timed.versions)
    (clock : after.clock = timed.clock) (read : after.readAt = timed.readAt)
    (answered : after.answeredAt = timed.answeredAt) :
    StageDated poolAddress delay after request stage := by
  cases stage with
  | read due response =>
      obtain ⟨held, past⟩ := dated
      simp only [StageDated, read, clock]
      exact ⟨dated_saved saved past held, past⟩
  | answered due response =>
      obtain ⟨held, past⟩ := dated
      simp only [StageDated, answered, clock]
      exact ⟨dated_saved saved past held, past⟩
  | absent | missed | failed => trivial

/-- A step of one request leaves the others as they stand. -/
theorem requests_set {timed after : Timed} (good : Good poolAddress delay timed) (request : Nat)
    {stage : Stage}
    (requests : after.system.requests = Function.update timed.system.requests request stage)
    (versions : after.versions = timed.versions) (clock : after.clock = timed.clock)
    (others : ∀ other, other ≠ request → after.readAt other = timed.readAt other ∧
      after.answeredAt other = timed.answeredAt other)
    (own : StageDated poolAddress delay after request stage) (other : Nat) :
    StageDated poolAddress delay after other (after.system.requests other) := by
  rw [requests]
  by_cases same : other = request
  · subst same
    rwa [Function.update_self]
  · rw [Function.update_of_ne same]
    obtain ⟨read, answered⟩ := others other same
    exact stage_same (good.requests other) versions (Nat.le_of_eq clock.symm) read answered

theorem wait_good {timed : Timed} (good : Good poolAddress delay timed) {now : Nat}
    (later : timed.clock ≤ now) :
    Good poolAddress delay
      { timed with
        clock := now
        system :=
          if timed.deadline ≤ now then { timed.system with cache := none } else timed.system } := by
  obtain ⟨since, earlier, newest, past⟩ := good.newest
  by_cases due : timed.deadline ≤ now
  · simp only [if_pos due]
    refine ⟨⟨since, earlier, newest, Nat.le_trans past later⟩, good.growing, nofun, ?_⟩
    intro request
    exact stage_same (good.requests request) rfl later rfl rfl
  · simp only [if_neg due]
    refine ⟨⟨since, earlier, newest, Nat.le_trans past later⟩, good.growing, ?_, fun request => ?_⟩
    · intro response cached
      obtain ⟨_, filled, deadline, begun, dated⟩ := good.cache response cached
      exact ⟨Nat.lt_of_not_le due, filled, deadline, Nat.le_trans begun later, dated⟩
    · exact stage_same (good.requests request) rfl later rfl rfl

theorem act_good {timed : Timed} (good : Good poolAddress delay timed) {action : Action}
    {after : System} (prompt : Prompt delay timed (.act action))
    (taken : CommitmentsCache.Step poolAddress timed.system action after) :
    Good poolAddress delay (timed.record action after) := by
  have apart : ∀ (times : Nat → Nat) (request other : Nat), other ≠ request →
      Function.update times request timed.clock other = times other :=
    fun times request other different => Function.update_of_ne different _ _
  cases taken with
  | hit request response fresh cached =>
      obtain ⟨live, filled, deadline, begun, dated⟩ := good.cache response cached
      refine ⟨good.newest, good.growing, good.cache, requests_set good request rfl rfl rfl
        (fun other different => ⟨rfl, apart _ _ _ different⟩) ?_⟩
      simp only [StageDated, Timed.record, Function.update_self, Nat.le_refl, and_true]
      obtain ⟨moment, db, held, answer, past, young⟩ := dated
      exact ⟨moment, db, held, answer, by omega, by omega⟩
  | miss request fresh missing =>
      exact ⟨good.newest, good.growing, good.cache, requests_set good request rfl rfl rfl
        (fun other different => ⟨rfl, apart _ _ _ different⟩) trivial⟩
  | getFails request fresh =>
      exact ⟨good.newest, good.growing, good.cache, requests_set good request rfl rfl rfl
        (fun _ _ => ⟨rfl, rfl⟩) trivial⟩
  | query request due waits =>
      obtain ⟨since, earlier, newest, past⟩ := good.newest
      refine ⟨good.newest, good.growing, good.cache, requests_set good request rfl rfl rfl
        (fun other different => ⟨apart _ _ _ different, rfl⟩) ?_⟩
      simp only [StageDated, Timed.record, Function.update_self, Nat.le_refl, and_true]
      refine ⟨timed.clock, timed.system.db, ?_, rfl, Nat.le_refl _, Nat.le_refl _⟩
      rw [newest]
      exact in_force_newest past
  | queryFails request due waits =>
      exact ⟨good.newest, good.growing, good.cache, requests_set good request rfl rfl rfl
        (fun _ _ => ⟨rfl, rfl⟩) trivial⟩
  | setEx request due response waits =>
      have stands := good.requests request
      rw [waits] at stands
      obtain ⟨⟨moment, db, held, answer, early, young⟩, past⟩ := stands
      have quick : timed.clock ≤ timed.readAt request + delay := prompt
      refine ⟨good.newest, good.growing, ?_, requests_set good request rfl rfl rfl
        (fun other different => ⟨rfl, apart _ _ _ different⟩) ?_⟩
      · rintro cached ⟨⟩
        refine ⟨Nat.lt_add_of_pos_right (by decide), timed.clock, rfl, Nat.le_refl _, moment, db,
          held, answer, ?_, ?_⟩ <;> omega
      · simp only [StageDated, Timed.record, Function.update_self, Nat.le_refl, and_true]
        exact ⟨moment, db, held, answer, by omega, by omega⟩
  | setExFails request due response waits =>
      have stands := good.requests request
      rw [waits] at stands
      obtain ⟨⟨moment, db, held, answer, early, young⟩, past⟩ := stands
      have quick : timed.clock ≤ timed.readAt request + delay := prompt
      refine ⟨good.newest, good.growing, good.cache, requests_set good request rfl rfl rfl
        (fun other different => ⟨rfl, apart _ _ _ different⟩) ?_⟩
      simp only [StageDated, Timed.record, Function.update_self, Nat.le_refl, and_true]
      exact ⟨moment, db, held, answer, by omega, by omega⟩
  | expire =>
      exact ⟨good.newest, good.growing, nofun, fun request =>
        stage_same (good.requests request) rfl (Nat.le_refl _) rfl rfl⟩
  | saveDeposit deposit between new =>
      obtain ⟨since, earlier, newest, _⟩ := good.newest
      refine ⟨⟨timed.clock, timed.versions, rfl, Nat.le_refl _⟩, ?_, ?_, fun request =>
        stage_saved (good.requests request) rfl rfl rfl rfl⟩
      · have growing := good.growing
        rw [newest] at growing
        simp only [Timed.record, newest]
        exact growing_saved growing deposit
      intro response cached
      obtain ⟨live, filled, deadline, begun, dated⟩ := good.cache response cached
      exact ⟨live, filled, deadline, begun, dated_saved rfl begun dated⟩
  | invalidatePool leafIndex saved =>
      exact ⟨good.newest, good.growing, nofun, fun request =>
        stage_same (good.requests request) rfl (Nat.le_refl _) rfl rfl⟩
  | invalidateFails leafIndex saved =>
      exact ⟨good.newest, good.growing, good.cache, fun request =>
        stage_same (good.requests request) rfl (Nat.le_refl _) rfl rfl⟩

end Invariant

/-- Whatever races, is lost or fails: an answer is the list the database had at a moment,
and that was no longer ago than the thirty seconds and what the slowest request took from
the database to the end of its `set_ex`. What the database held before is in the answer. -/
theorem answers_dated (poolAddress : String) (db : Db) (delay : Nat) {timed : Timed}
    (reached : Reachable (Step poolAddress) (Prompt delay) (started db) timed) :
    ∀ request due response, timed.system.requests request = .answered due response →
      Dated poolAddress timed response (timed.answeredAt request) (ttl + delay) ∧
        ∀ version ∈ timed.versions,
          version.1 + (ttl + delay) < timed.answeredAt request →
            leaves poolAddress version.2 ⊆ response.map Prod.fst := by
  have good : Good poolAddress delay timed := by
    refine reachable_invariant ?_ ?_ reached
    · exact ⟨⟨0, [], rfl, Nat.le_refl 0⟩, List.pairwise_singleton _ _, nofun, fun _ => trivial⟩
    · intro before event after good prompt step
      cases step with
      | wait now later => exact wait_good good later
      | act action after taken => exact act_good good prompt taken
  intro request due response answered
  have stands := good.requests request
  rw [answered] at stands
  refine ⟨stands.1, ?_⟩
  obtain ⟨moment, held, inForce, rfl, _, young⟩ := stands.1
  intro version member old
  exact in_force_lists good.growing inForce member (by omega)

/-! A list that is read before a deposit is saved, cached ten milliseconds later and still
handed out in the last millisecond. -/
section Sample

theorem oldest_answer :
    ∃ timed, Reachable (Step "pool") (Prompt 10) (started Db.empty) timed ∧
      timed.system.requests 1 = .answered [0] (respond Db.empty "pool") ∧
      timed.answeredAt 1 = 30_009 ∧ (1, save "pool" Db.empty sampleDeposit) ∈ timed.versions ∧
      Dated "pool" timed (respond Db.empty "pool") 30_009 (ttl + 10) := by
  have begun : Reachable (Step "pool") (Prompt 10) (started Db.empty) (started Db.empty) := .start
  have asked := begun.next (by exact trivial) (.act (.get 0) _ (.miss 0 rfl rfl))
  have read := asked.next (by exact trivial) (.act (.query 0) _ (.query 0 [] rfl))
  have waited := read.next (by exact trivial) (.wait 1 (by decide))
  have saved := waited.next (by exact trivial)
    (.act (.saveDeposit sampleDeposit) _ (.saveDeposit sampleDeposit rfl rfl))
  have invalidated := saved.next (by exact trivial) (.act .invalidatePool _ (.invalidatePool 0 rfl))
  have slow := invalidated.next (by exact trivial) (.wait 10 (by decide))
  have filled := slow.next (by exact Nat.le_refl 10)
    (.act (.setEx 0) _ (.setEx 0 [] (respond Db.empty "pool") rfl))
  have late := filled.next (by exact trivial) (.wait 30_009 (by decide))
  have hit := late.next (by exact trivial)
    (.act (.get 1) _ (.hit 1 (respond Db.empty "pool") rfl rfl))
  have dated := answers_dated "pool" Db.empty 10 hit 1 [0] (respond Db.empty "pool") rfl
  exact ⟨_, hit, rfl, rfl, List.mem_cons_self, dated.1⟩

end Sample

end PrivateTransfer.CacheAge
