import Mathlib.Data.Finset.Card
import Mathlib.Order.Interval.Finset.Nat
import PrivateTransfer.Interleaving
import PrivateTransfer.Interruption

/-!
`backend/src/rate_limit.rs` over `incr_rate_limit` of `cache.rs`. The counter and its
time to live are two commands of Redis, and the second one is given by the request that
created the counter. Requests overlap, commands fail, and a request may be dropped
between its two.
-/

namespace PrivateTransfer.RateLimit

open Interleaving Script

/-! Redis, with times in milliseconds. -/
section Redis

structure Counter where
  count : Nat
  expiresAt : Option Nat
  deriving DecidableEq

abbrev Redis := String → Option Counter

/-- A key is gone from its expiry on. -/
def live (now : Nat) : Option Counter → Option Counter
  | some ⟨count, some expiry⟩ => if expiry ≤ now then none else some ⟨count, some expiry⟩
  | counter => counter

/-- `INCR` keeps the expiry of a key and gives none to a new one. -/
def incremented (now : Nat) (counter : Option Counter) : Counter :=
  match live now counter with
  | none => ⟨1, none⟩
  | some held => { held with count := held.count + 1 }

def expiring (now ttlSecs : Nat) (counter : Option Counter) : Option Counter :=
  (live now counter).map fun held => { held with expiresAt := some (now + 1000 * ttlSecs) }

inductive Request where
  | incr (key : String)
  | expire (key : String) (ttlSecs : Nat)

@[reducible] def Answer : Request → Type
  | .incr _ => Nat
  | .expire _ _ => Unit

abbrev RedisError := String

def serve (now : Nat) :
    (request : Request) → Redis → Except RedisError (Answer request) × Redis
  | .incr key, redis =>
      (.ok (incremented now (redis key)).count,
        Function.update redis key (some (incremented now (redis key))))
  | .expire key ttlSecs, redis =>
      (.ok (), Function.update redis key (expiring now ttlSecs (redis key)))

end Redis

section Middleware

abbrev Work (Result : Type) := Program Request Answer RedisError Result

def incrRateLimit (key : String) (ttlSecs : Nat) : Work Nat := do
  let count ← perform (Request.incr key)
  if count = 1 then do
    perform (Request.expire key ttlSecs)
    pure count
  else pure count

/-- `passed` stands for `next.run(request)`. -/
inductive Reply where
  | passed
  | tooManyRequests
  | internalServerError
  deriving DecidableEq

def verdict (limit count : Nat) : Reply := if count > limit then .tooManyRequests else .passed

/-- The body of both middlewares, from the key on. -/
def rateLimit (key : String) (limit : Nat) : Work Reply := do
  let outcome ← attempt (incrRateLimit key 60)
  match outcome with
  | .ok count => pure (verdict limit count)
  | .error _ => pure .internalServerError

structure Config where
  rateLimitWithdrawPerMin : Nat
  rateLimitReadPerMin : Nat

def rateLimitWithdraw (config : Config) (ip : String) : Work Reply :=
  rateLimit ("ratelimit:withdraw:" ++ ip) config.rateLimitWithdrawPerMin

def rateLimitRead (config : Config) (ip : String) : Work Reply :=
  rateLimit ("ratelimit:read:" ++ ip) config.rateLimitReadPerMin

def afterExpire (limit : Nat) : Except RedisError Unit → Work Reply
  | .ok _ => .done (.ok (verdict limit 1))
  | .error _ => .done (.ok .internalServerError)

/-- What is left of a request whose `INCR` answered one. -/
def expirePending (key : String) (limit : Nat) : Work Reply :=
  .ask (.expire key 60) (afterExpire limit)

/-- What is left of a request behind its `INCR`. -/
def afterIncr (key : String) (limit : Nat) : Except RedisError Nat → Work Reply
  | .ok count => if count = 1 then expirePending key limit else .done (.ok (verdict limit count))
  | .error _ => .done (.ok .internalServerError)

theorem rate_limit_asks (key : String) (limit : Nat) :
    rateLimit key limit = .ask (.incr key) (afterIncr key limit) := by
  change Program.ask _ _ = Program.ask _ _
  congr 1
  funext answer
  cases answer with
  | error failure => rfl
  | ok count =>
      by_cases one : count = 1
      · subst one
        change Program.ask _ _ = Program.ask _ _
        congr 1
        funext expired
        cases expired <;> rfl
      · simp only [afterIncr, if_neg one]
        change andThen (attempt (if count = 1 then _ else _)) _ = _
        rw [if_neg one]
        rfl

end Middleware

/-! The requests of one address to one route, which share a key. A key belongs to one
route and one address. -/
section System

/-- A request before it comes, with what is left of its middleware, and cut off. -/
inductive Party where
  | absent
  | running (rest : Work Reply)
  | dropped

/-- The answer of `INCR` to a request: how many keys had been created by then, and the count. -/
structure Ticket where
  life : Nat
  count : Nat
  deriving DecidableEq

/-- `lives`, `tickets` and `lastActive` are kept to speak about the run; nothing reads them. -/
structure System where
  now : Nat
  redis : Redis
  parties : Nat → Party
  lives : Nat
  tickets : Nat → Option Ticket
  lastActive : Nat

inductive Fate where
  | served
  | refused (error : RedisError)
  | lost (error : RedisError)

inductive Action where
  | arrive (request : Nat)
  | command (request : Nat) (fate : Fate)
  | drop (request : Nat)
  | wait (milliseconds : Nat)

def System.setParty (system : System) (request : Nat) (party : Party) : System :=
  { system with
    parties := Function.update system.parties request party
    lastActive := system.now }

/-- What `INCR` would answer now, and of which key. -/
def System.ticket (system : System) (key : String) : Ticket where
  life := if live system.now (system.redis key) = none then system.lives + 1 else system.lives
  count := (incremented system.now (system.redis key)).count

/-- Redis executes a command of a request, whether or not its answer gets back. -/
def System.execute (system : System) (request : Nat) : Request → System
  | .incr key =>
      { system with
        redis := (serve system.now (.incr key) system.redis).2
        lives := (system.ticket key).life
        tickets := Function.update system.tickets request (some (system.ticket key)) }
  | .expire key ttlSecs =>
      { system with redis := (serve system.now (.expire key ttlSecs) system.redis).2 }

/-- One command, one arrival, one request dropped, or time going by. -/
inductive Step (key : String) (limit : Nat) (system : System) : Action → System → Prop
  | arrive (request : Nat) (absent : system.parties request = .absent) :
      Step key limit system (.arrive request)
        (system.setParty request (.running (rateLimit key limit)))
  | served (request : Nat) (asked : Request)
      (next : Except RedisError (Answer asked) → Work Reply)
      (running : system.parties request = .running (.ask asked next)) :
      Step key limit system (.command request .served)
        ((system.execute request asked).setParty request
          (.running (next (serve system.now asked system.redis).1)))
  | refused (request : Nat) (asked : Request) (error : RedisError)
      (next : Except RedisError (Answer asked) → Work Reply)
      (running : system.parties request = .running (.ask asked next)) :
      Step key limit system (.command request (.refused error))
        (system.setParty request (.running (next (.error error))))
  | lost (request : Nat) (asked : Request) (error : RedisError)
      (next : Except RedisError (Answer asked) → Work Reply)
      (running : system.parties request = .running (.ask asked next)) :
      Step key limit system (.command request (.lost error))
        ((system.execute request asked).setParty request (.running (next (.error error))))
  | drop (request : Nat) (asked : Request)
      (next : Except RedisError (Answer asked) → Work Reply)
      (running : system.parties request = .running (.ask asked next)) :
      Step key limit system (.drop request) (system.setParty request .dropped)
  | wait (milliseconds : Nat) :
      Step key limit system (.wait milliseconds)
        { system with now := system.now + milliseconds }

def initial : System where
  now := 0
  redis := fun _ => none
  parties := fun _ => .absent
  lives := 0
  tickets := fun _ => none
  lastActive := 0

def Reachable (key : String) (limit : Nat) (allowed : System → Action → Prop) : System → Prop :=
  Interleaving.Reachable (Step key limit) allowed initial

def Admitted (system : System) (life request : Nat) : Prop :=
  system.parties request = .running (.done (.ok .passed)) ∧
    ∃ count, system.tickets request = some ⟨life, count⟩

/-- At most `limit` requests are let through during the life of one key. -/
def Capped (limit : Nat) (system : System) : Prop :=
  ∀ (life : Nat) (requests : Finset Nat), (∀ request ∈ requests, Admitted system life request) →
    requests.card ≤ limit

/-- No request is between its arrival and its end. -/
def Idle (system : System) : Prop :=
  ∀ request asked next, system.parties request ≠ .running (.ask asked next)

/-- The cap, no key without an expiry, and the release of a client that was silent for
60 seconds. -/
structure Releases (key : String) (limit : Nat) (system : System) : Prop where
  capped : Capped limit system
  expires : Idle system → ∀ counter, system.redis key = some counter →
    ∃ expiry, counter.expiresAt = some expiry ∧ expiry ≤ system.lastActive + 60000
  admits : Idle system → system.lastActive + 60000 ≤ system.now →
    (Script.run (serve system.now) (rateLimit key limit) system.redis).1 = .ok .passed

/-- The request that creates the key gets as far as its `EXPIRE`: the answer of its `INCR`
is not lost, and neither is it dropped nor the command refused before the expiry is set. -/
def Uncut (key : String) (limit : Nat) (system : System) : Action → Prop
  | .command request (.refused _) =>
      system.parties request ≠ .running (expirePending key limit)
  | .command request (.lost _) => system.parties request = .running (rateLimit key limit) →
      live system.now (system.redis key) ≠ none
  | .drop request => system.parties request ≠ .running (expirePending key limit)
  | .arrive _ | .command _ .served | .wait _ => True

end System

section Commands

theorem live_some {now : Nat} {counter : Option Counter} {held : Counter}
    (found : live now counter = some held) : counter = some held := by
  rcases counter with _ | ⟨count, _ | expiry⟩
  · exact found
  · exact found
  · rw [live] at found
    split at found
    · cases found
    · exact found

theorem incremented_new {now : Nat} {counter : Option Counter} (gone : live now counter = none) :
    incremented now counter = ⟨1, none⟩ := by
  rw [incremented, gone]

theorem incremented_held {now : Nat} {counter : Option Counter} {held : Counter}
    (found : live now counter = some held) :
    incremented now counter = { held with count := held.count + 1 } := by
  rw [incremented, found]

theorem expiring_some {now ttlSecs : Nat} {counter : Option Counter} {renewed : Counter}
    (found : expiring now ttlSecs counter = some renewed) :
    ∃ held, counter = some held ∧ renewed.count = held.count ∧
      renewed.expiresAt = some (now + 1000 * ttlSecs) := by
  obtain ⟨held, present, rfl⟩ := Option.map_eq_some_iff.mp found
  exact ⟨held, live_some present, rfl, rfl⟩

end Commands

/-! What every step keeps, cut or not: requests of one life have counts of their own. -/
section Invariant
variable {key : String} {limit : Nat}

/-- What is left of a request against the answer its `INCR` had. -/
inductive Shape (key : String) (limit : Nat) : Party → Option Ticket → Prop
  | absent : Shape key limit .absent none
  | asking : Shape key limit (.running (.ask (.incr key) (afterIncr key limit))) none
  | pending (life : Nat) : Shape key limit (.running (expirePending key limit)) (some ⟨life, 1⟩)
  | passed (life count : Nat) (within : count ≤ limit) :
      Shape key limit (.running (.done (.ok .passed))) (some ⟨life, count⟩)
  | turned (reply : Reply) (ticket : Option Ticket) (turned : reply ≠ .passed) :
      Shape key limit (.running (.done (.ok reply))) ticket
  | dropped (ticket : Option Ticket) : Shape key limit .dropped ticket

/-- The two commands a request can be at. -/
inductive At (key : String) (limit : Nat) (system : System) (request : Nat) :
    (asked : Request) → (Except RedisError (Answer asked) → Work Reply) → Prop
  | incr (asking : system.parties request = .running (.ask (.incr key) (afterIncr key limit))) :
      At key limit system request (.incr key) (afterIncr key limit)
  | expire (life : Nat) (pending : system.parties request = .running (expirePending key limit))
      (told : system.tickets request = some ⟨life, 1⟩) :
      At key limit system request (.expire key 60) (afterExpire limit)

theorem shape_verdict (life count : Nat) :
    Shape key limit (.running (.done (.ok (verdict limit count)))) (some ⟨life, count⟩) := by
  rw [verdict]
  split
  · exact .turned _ _ nofun
  · rename_i within
    exact .passed life count (Nat.le_of_not_lt within)

theorem shape_after_incr (life count : Nat) :
    Shape key limit (.running (afterIncr key limit (.ok count))) (some ⟨life, count⟩) := by
  rw [afterIncr]
  split
  · rename_i one
    rw [one]
    exact .pending life
  · exact shape_verdict life count

structure Sound (key : String) (limit : Nat) (system : System) : Prop where
  shaped : ∀ request, Shape key limit (system.parties request) (system.tickets request)
  clock : system.lastActive ≤ system.now
  older : ∀ request ticket, system.tickets request = some ticket → ticket.life ≤ system.lives
  newest : ∀ counter, system.redis key = some counter → ∀ request ticket,
    system.tickets request = some ticket → ticket.life = system.lives →
      ticket.count ≤ counter.count
  unique : ∀ first second ticket, system.tickets first = some ticket →
    system.tickets second = some ticket → first = second
  positive : ∀ request ticket, system.tickets request = some ticket → 1 ≤ ticket.count

theorem initial_sound : Sound key limit initial :=
  ⟨fun _ => .absent, Nat.le_refl 0, nofun, nofun, nofun, nofun⟩

/-- A step that leaves the counter and the answers as they are. -/
theorem sound_party {system : System} (sound : Sound key limit system) (request : Nat)
    {party : Party} (shape : Shape key limit party (system.tickets request)) :
    Sound key limit (system.setParty request party) := by
  refine ⟨?_, Nat.le_refl _, sound.older, sound.newest, sound.unique, sound.positive⟩
  intro other
  by_cases same : other = request
  · subst same
    simpa [System.setParty] using shape
  · simpa [System.setParty, Function.update_of_ne same] using sound.shaped other

/-- `EXPIRE` leaves the counts as they are. -/
theorem sound_expire {system : System} (sound : Sound key limit system) (request ttlSecs : Nat)
    {party : Party} (shape : Shape key limit party (system.tickets request)) :
    Sound key limit ((system.execute request (.expire key ttlSecs)).setParty request party) := by
  have moved := sound_party sound request shape
  refine ⟨moved.shaped, Nat.le_refl _, sound.older, ?_, sound.unique, sound.positive⟩
  intro counter present other ticket held newest
  have renewed : expiring system.now ttlSecs (system.redis key) = some counter := by
    simpa [System.setParty, System.execute, serve] using present
  obtain ⟨before, stored, count, _⟩ := expiring_some renewed
  rw [count]
  exact sound.newest before stored other ticket held newest

theorem ticket_created {system : System} (gone : live system.now (system.redis key) = none) :
    system.ticket key = ⟨system.lives + 1, 1⟩ := by
  rw [System.ticket, if_pos gone, incremented_new gone]

theorem ticket_held {system : System} {held : Counter}
    (found : live system.now (system.redis key) = some held) :
    system.ticket key = ⟨system.lives, held.count + 1⟩ := by
  rw [System.ticket, if_neg (by rw [found]; exact nofun), incremented_held found]

/-- The next answer is of a new key, or past all answers the present key has given. -/
theorem ticket_fresh {system : System} (sound : Sound key limit system) {request : Nat}
    {ticket : Ticket} (given : system.tickets request = some ticket) :
    ticket.life ≤ (system.ticket key).life ∧
      (ticket.life = (system.ticket key).life → ticket.count < (system.ticket key).count) := by
  have older := sound.older request ticket given
  cases found : live system.now (system.redis key) with
  | none =>
      rw [ticket_created found]
      have below : ticket.life < system.lives + 1 := Nat.lt_succ_of_le older
      exact ⟨Nat.le_of_lt below, fun same => absurd same (Nat.ne_of_lt below)⟩
  | some held =>
      rw [ticket_held found]
      refine ⟨older, fun same => ?_⟩
      exact Nat.lt_succ_of_le (sound.newest held (live_some found) request ticket given same)

theorem ticket_positive (system : System) : 1 ≤ (system.ticket key).count := by
  cases found : live system.now (system.redis key) with
  | none => rw [ticket_created found]
  | some held =>
      rw [ticket_held found]
      exact Nat.le_add_left 1 held.count

theorem sound_incr {system : System} (sound : Sound key limit system) (request : Nat)
    {party : Party} (shape : Shape key limit party (some (system.ticket key))) :
    Sound key limit ((system.execute request (.incr key)).setParty request party) := by
  have given : ∀ other ticket,
      Function.update system.tickets request (some (system.ticket key)) other = some ticket →
        other = request ∧ ticket = system.ticket key ∨
          other ≠ request ∧ system.tickets other = some ticket := by
    intro other ticket held
    by_cases same : other = request
    · subst same
      rw [Function.update_self] at held
      exact Or.inl ⟨rfl, (Option.some.inj held).symm⟩
    · rw [Function.update_of_ne same] at held
      exact Or.inr ⟨same, held⟩
  constructor
  · intro other
    by_cases same : other = request
    · subst same
      simpa [System.setParty, System.execute] using shape
    · simpa [System.setParty, System.execute, Function.update_of_ne same] using
        sound.shaped other
  · exact Nat.le_refl _
  · intro other ticket held
    rcases given other ticket held with ⟨_, rfl⟩ | ⟨_, before⟩
    · exact Nat.le_refl _
    · exact (ticket_fresh sound before).1
  · intro counter present other ticket held newest
    have stored : counter = incremented system.now (system.redis key) := by
      simpa [System.setParty, System.execute, serve] using present.symm
    have count : counter.count = (system.ticket key).count := by rw [stored, System.ticket]
    rw [count]
    rcases given other ticket held with ⟨_, rfl⟩ | ⟨_, before⟩
    · exact Nat.le_refl _
    · exact Nat.le_of_lt ((ticket_fresh sound before).2 newest)
  · intro first second ticket firstHeld secondHeld
    -- an answer given before is not the one given now
    have apart : ∀ {other : Nat}, system.tickets other = some (system.ticket key) → False :=
      fun before => absurd ((ticket_fresh sound before).2 rfl) (Nat.lt_irrefl _)
    rcases given first ticket firstHeld with ⟨rfl, rfl⟩ | ⟨_, firstBefore⟩
    · rcases given second _ secondHeld with ⟨rfl, _⟩ | ⟨_, secondBefore⟩
      · rfl
      · exact (apart secondBefore).elim
    · rcases given second ticket secondHeld with ⟨_, rfl⟩ | ⟨_, secondBefore⟩
      · exact (apart firstBefore).elim
      · exact sound.unique first second ticket firstBefore secondBefore
  · intro other ticket held
    rcases given other ticket held with ⟨_, rfl⟩ | ⟨_, before⟩
    · exact ticket_positive system
    · exact sound.positive other ticket before

/-- Where a request stands when it gives a command. -/
theorem shape_asking {system : System} (sound : Sound key limit system) {request : Nat}
    {asked : Request} {next : Except RedisError (Answer asked) → Work Reply}
    (running : system.parties request = .running (.ask asked next)) :
    At key limit system request asked next := by
  have shape := sound.shaped request
  generalize told : system.tickets request = ticket at shape
  rw [running] at shape
  cases shape with
  | asking => exact .incr running
  | pending life => exact .expire life running told

theorem step_sound {before after : System} {action : Action} (sound : Sound key limit before)
    (step : Step key limit before action after) : Sound key limit after := by
  cases step with
  | arrive request absent =>
      have untouched := sound.shaped request
      rw [absent] at untouched
      apply sound_party sound request
      rw [rate_limit_asks]
      cases ticket : before.tickets request with
      | none => exact .asking
      | some given =>
          rw [ticket] at untouched
          cases untouched
  | served request asked next running =>
      cases shape_asking sound running with
      | incr asking => exact sound_incr sound request (shape_after_incr _ _)
      | expire life pending told =>
          exact sound_expire sound request 60 (told ▸ shape_verdict life 1)
  | refused request asked error next running =>
      cases shape_asking sound running with
      | incr asking => exact sound_party sound request (.turned _ _ nofun)
      | expire life pending told => exact sound_party sound request (.turned _ _ nofun)
  | lost request asked error next running =>
      cases shape_asking sound running with
      | incr asking => exact sound_incr sound request (.turned _ _ nofun)
      | expire life pending told => exact sound_expire sound request 60 (.turned _ _ nofun)
  | drop request asked next running => exact sound_party sound request (.dropped _)
  | wait milliseconds =>
      exact ⟨sound.shaped, Nat.le_add_right_of_le sound.clock, sound.older, sound.newest,
        sound.unique, sound.positive⟩

theorem reached_sound {allowed : System → Action → Prop} {system : System}
    (reached : Reachable key limit allowed system) : Sound key limit system :=
  reachable_invariant initial_sound (fun _ _ _ sound _ step => step_sound sound step) reached

/-- The answers of one life that let a request through are numbers from one to the limit. -/
theorem sound_capped {system : System} (sound : Sound key limit system) : Capped limit system := by
  intro life requests admitted
  have numbered : ∀ request ∈ requests, ∃ count, system.tickets request = some ⟨life, count⟩ ∧
      count ∈ Finset.Icc 1 limit := by
    intro request member
    obtain ⟨through, count, ticket⟩ := admitted request member
    have shape := sound.shaped request
    have positive := sound.positive request _ ticket
    rw [through, ticket] at shape
    cases shape with
    | passed _ _ within => exact ⟨count, ticket, Finset.mem_Icc.mpr ⟨positive, within⟩⟩
    | turned _ _ turned => exact absurd rfl turned
  choose! count ticket inside using numbered
  have injective : Set.InjOn count requests := by
    intro first member second other same
    have firstTicket := ticket first member
    rw [same] at firstTicket
    exact sound.unique first second _ firstTicket (ticket second other)
  have bounded := Finset.card_le_card_of_injOn count inside injective
  rwa [Nat.card_Icc, Nat.add_sub_cancel] at bounded

end Invariant

/-! What is lost with the step between the two commands. -/
section Expiry
variable {key : String} {limit : Nat}

/-- A key expires within 60 seconds of the last step, or a request is about to see to it. -/
def Covered (key : String) (limit : Nat) (system : System) : Prop :=
  ∀ counter, system.redis key = some counter →
    (∃ expiry, counter.expiresAt = some expiry ∧ expiry ≤ system.lastActive + 60000) ∨
      ∃ request, system.parties request = .running (expirePending key limit)

theorem covered_later {system : System} (sound : Sound key limit system)
    (covered : Covered key limit system) {request : Nat} {party : Party}
    (other : system.parties request ≠ .running (expirePending key limit)) {counter : Counter}
    (present : system.redis key = some counter) :
    (∃ expiry, counter.expiresAt = some expiry ∧ expiry ≤ system.now + 60000) ∨
      ∃ waiting, (system.setParty request party).parties waiting =
        .running (expirePending key limit) := by
  rcases covered counter present with ⟨expiry, set, soon⟩ | ⟨waiting, pending⟩
  · exact Or.inl ⟨expiry, set, Nat.le_trans soon (Nat.add_le_add_right sound.clock _)⟩
  · have apart : waiting ≠ request := by
      rintro rfl
      exact other pending
    exact Or.inr ⟨waiting, (Function.update_of_ne apart _ _).trans pending⟩

theorem covered_party {system : System} (sound : Sound key limit system)
    (covered : Covered key limit system) {request : Nat} (party : Party)
    (other : system.parties request ≠ .running (expirePending key limit)) :
    Covered key limit (system.setParty request party) :=
  fun _ present => covered_later sound covered other present

theorem covered_expire (system : System) (request : Nat) (party : Party) :
    Covered key limit ((system.execute request (.expire key 60)).setParty request party) := by
  intro counter present
  have renewed : expiring system.now 60 (system.redis key) = some counter := by
    simpa [System.setParty, System.execute, serve] using present
  obtain ⟨_, _, _, expiry⟩ := expiring_some renewed
  exact Or.inl ⟨_, expiry, Nat.le_refl _⟩

theorem covered_incr {system : System} (sound : Sound key limit system)
    (covered : Covered key limit system) {request : Nat} {party : Party}
    (other : system.parties request ≠ .running (expirePending key limit))
    (created : live system.now (system.redis key) = none →
      party = .running (expirePending key limit)) :
    Covered key limit ((system.execute request (.incr key)).setParty request party) := by
  intro counter present
  have stored : counter = incremented system.now (system.redis key) := by
    simpa [System.setParty, System.execute, serve] using present.symm
  cases found : live system.now (system.redis key) with
  | none =>
      right
      refine ⟨request, ?_⟩
      rw [created found]
      exact Function.update_self ..
  | some held =>
      rw [incremented_held found] at stored
      subst stored
      exact @covered_later _ _ system sound covered request party other held (live_some found)

theorem asking_not_pending {system : System} {request : Nat}
    {next : Except RedisError Nat → Work Reply}
    (running : system.parties request = .running (.ask (.incr key) next)) :
    system.parties request ≠ .running (expirePending key limit) := by
  rw [running, expirePending]
  intro same
  cases same

theorem step_covered {before after : System} {action : Action} (sound : Sound key limit before)
    (covered : Covered key limit before) (uncut : Uncut key limit before action)
    (step : Step key limit before action after) : Covered key limit after := by
  cases step with
  | arrive request absent =>
      apply covered_party sound covered
      rw [absent]
      exact nofun
  | served request asked next running =>
      cases shape_asking sound running with
      | incr asking =>
          apply covered_incr sound covered (asking_not_pending asking)
          intro gone
          change Party.running (afterIncr key limit (.ok _)) = _
          rw [incremented_new gone, afterIncr, if_pos rfl]
      | expire life pending told => exact covered_expire before request _
  | refused request asked error next running => exact covered_party sound covered _ uncut
  | lost request asked error next running =>
      cases shape_asking sound running with
      | incr asking =>
          apply covered_incr sound covered (asking_not_pending asking)
          intro gone
          rw [← rate_limit_asks] at asking
          exact absurd gone (uncut asking)
      | expire life pending told => exact covered_expire before request _
  | drop request asked next running => exact covered_party sound covered _ uncut
  | wait milliseconds => exact covered

structure Timed (key : String) (limit : Nat) (system : System) : Prop where
  sound : Sound key limit system
  covered : Covered key limit system

theorem initial_timed : Timed key limit initial := by
  refine ⟨initial_sound, ?_⟩
  intro counter present
  cases present

theorem step_timed {before after : System} {action : Action} (timed : Timed key limit before)
    (uncut : Uncut key limit before action) (step : Step key limit before action after) :
    Timed key limit after :=
  ⟨step_sound timed.sound step, step_covered timed.sound timed.covered uncut step⟩

/-- Where every created key gets its expiry, an idle key is gone 60 seconds on. -/
theorem covered_releases {system : System} (positive : 1 ≤ limit)
    (sound : Sound key limit system) (covered : Covered key limit system) :
    Releases key limit system := by
  have expires : Idle system → ∀ counter, system.redis key = some counter →
      ∃ expiry, counter.expiresAt = some expiry ∧ expiry ≤ system.lastActive + 60000 := by
    intro idle counter present
    rcases covered counter present with set | ⟨request, pending⟩
    · exact set
    · exact absurd pending (idle request _ _)
  refine ⟨sound_capped sound, expires, ?_⟩
  intro idle silent
  have gone : live system.now (system.redis key) = none := by
    rcases present : system.redis key with _ | ⟨count, expiresAt⟩
    · rfl
    · obtain ⟨expiry, rfl, soon⟩ := expires idle _ present
      exact if_pos (Nat.le_trans soon silent)
  have within : verdict limit 1 = .passed := if_neg (Nat.not_lt.mpr positive)
  rw [rate_limit_asks, Script.run, serve, incremented_new gone, afterIncr, if_pos rfl,
    expirePending, Script.run, serve, afterExpire, within]
  rfl

/-- The cap holds in every run; a run in which no request is cut between the two commands
also releases its client. -/
theorem uncut_releases (key : String) (limit : Nat) (positive : 1 ≤ limit) :
    (∀ system, Reachable key limit (fun _ _ => True) system → Capped limit system) ∧
      ∀ system, Reachable key limit (Uncut key limit) system → Releases key limit system := by
  constructor
  · intro system reached
    exact sound_capped (reached_sound reached)
  · intro system reached
    have timed := reachable_invariant initial_timed
      (fun _ _ _ timed uncut step => step_timed timed uncut step) reached
    exact covered_releases positive timed.sound timed.covered

end Expiry

/-! A key without an expiry that no request will give one. -/
section Lockout
variable {key : String} {limit least : Nat}

structure Stuck (key : String) (limit least : Nat) (system : System) : Prop where
  kept : ∃ count, system.redis key = some ⟨count, none⟩ ∧ least ≤ count
  unwatched : ∀ request, system.parties request ≠ .running (expirePending key limit)

/-- Without an expiry the key never goes. -/
theorem stuck_live {system : System} (stuck : Stuck key limit least system) :
    ∃ count, live system.now (system.redis key) = some ⟨count, none⟩ ∧ least ≤ count := by
  obtain ⟨count, present, enough⟩ := stuck.kept
  exact ⟨count, by rw [present]; rfl, enough⟩

theorem stuck_party {system : System} (stuck : Stuck key limit least system) (request : Nat)
    {party : Party} (other : party ≠ .running (expirePending key limit)) :
    Stuck key limit least (system.setParty request party) := by
  refine ⟨stuck.kept, ?_⟩
  exact (Function.forall_update_iff system.parties fun _ (party : Party) =>
    party ≠ .running (expirePending key limit)).mpr ⟨other, fun asked _ => stuck.unwatched asked⟩

theorem stuck_incr {system : System} (stuck : Stuck key limit least system) (request : Nat)
    {party : Party} (other : party ≠ .running (expirePending key limit)) :
    Stuck key limit least ((system.execute request (.incr key)).setParty request party) := by
  obtain ⟨count, found, enough⟩ := stuck_live stuck
  refine ⟨⟨count + 1, ?_, Nat.le_succ_of_le enough⟩, (stuck_party stuck request other).unwatched⟩
  simp [System.setParty, System.execute, serve, incremented_held found]

theorem failed_not_pending (error : RedisError) :
    Party.running (afterIncr key limit (.error error)) ≠ .running (expirePending key limit) := by
  rw [afterIncr, expirePending]
  intro same
  cases same

/-- Nothing a request does frees the key: every further `INCR` answers more than one. -/
theorem step_stuck {before after : System} {action : Action} (sound : Sound key limit before)
    (positive : 1 ≤ least) (stuck : Stuck key limit least before)
    (step : Step key limit before action after) : Stuck key limit least after := by
  cases step with
  | arrive request absent =>
      apply stuck_party stuck
      rw [rate_limit_asks, expirePending]
      intro same
      cases same
  | served request asked next running =>
      cases shape_asking sound running with
      | incr asking =>
          obtain ⟨count, found, enough⟩ := stuck_live stuck
          have more : count + 1 ≠ 1 := by omega
          apply stuck_incr stuck
          rw [serve, incremented_held found, afterIncr, if_neg more, expirePending]
          intro same
          cases same
      | expire life pending told => exact absurd pending (stuck.unwatched request)
  | refused request asked error next running =>
      cases shape_asking sound running with
      | incr asking => exact stuck_party stuck request (failed_not_pending error)
      | expire life pending told => exact absurd pending (stuck.unwatched request)
  | lost request asked error next running =>
      cases shape_asking sound running with
      | incr asking => exact stuck_incr stuck request (failed_not_pending error)
      | expire life pending told => exact absurd pending (stuck.unwatched request)
  | drop request asked next running =>
      apply stuck_party stuck
      intro same
      cases same
  | wait milliseconds => exact ⟨stuck.kept, stuck.unwatched⟩

theorem stuck_refuses {system : System} (stuck : Stuck key limit least system)
    (full : limit ≤ least) (positive : 1 ≤ least) :
    (Script.run (serve system.now) (rateLimit key limit) system.redis).1 =
      .ok .tooManyRequests := by
  obtain ⟨count, found, enough⟩ := stuck_live stuck
  have more : count + 1 ≠ 1 := by omega
  have refused : verdict limit (count + 1) = .tooManyRequests := if_pos (by omega)
  rw [rate_limit_asks, Script.run, serve, incremented_held found, afterIncr, if_neg more, refused]
  rfl

/-- From a stuck key on, every request of every continuation is refused. -/
theorem stuck_forever {system later : System} (sound : Sound key limit system)
    (stuck : Stuck key limit least system) (full : limit ≤ least) (positive : 1 ≤ least)
    (reached : Interleaving.Reachable (Step key limit) (fun _ _ => True) system later) :
    (Script.run (serve later.now) (rateLimit key limit) later.redis).1 =
      .ok .tooManyRequests := by
  have kept : Sound key limit later ∧ Stuck key limit least later := by
    induction reached with
    | start => exact ⟨sound, stuck⟩
    | next earlier permitted taken ih =>
        exact ⟨step_sound ih.1 taken, step_stuck ih.1 positive ih.2 taken⟩
  exact stuck_refuses kept.2 full positive

end Lockout

/-! One address at `/api/withdraw`. -/
section Samples

def sampleKey : String := "ratelimit:withdraw:" ++ "203.0.113.7"

def counted (limit : Nat) : System :=
  ((initial.setParty 0 (.running (rateLimit sampleKey limit))).execute 0
    (.incr sampleKey)).setParty 0 (.running (expirePending sampleKey limit))

/-- Steps that no condition holds back. -/
theorem counted_reached (limit : Nat) {allowed : System → Action → Prop}
    (arrives : ∀ system, allowed system (.arrive 0))
    (served : ∀ system, allowed system (.command 0 .served)) :
    Reachable sampleKey limit allowed (counted limit) := by
  have begun : Reachable sampleKey limit allowed initial := .start
  have arrived := begun.next (arrives _) (Step.arrive 0 rfl)
  have running : (initial.setParty 0 (.running (rateLimit sampleKey limit))).parties 0 =
      .running (.ask (.incr sampleKey) (afterIncr sampleKey limit)) := by
    rw [← rate_limit_asks]
    rfl
  exact arrived.next (served _) (Step.served 0 (.incr sampleKey) _ running)

theorem released_after_minute :
    ∃ system, system.parties 0 = .running (.done (.ok .passed)) ∧ Releases sampleKey 5 system := by
  have begun : Reachable sampleKey 5 (Uncut sampleKey 5) (counted 5) :=
    counted_reached 5 (fun _ => trivial) fun _ => trivial
  have answered := begun.next (show Uncut _ _ _ (.command 0 .served) from trivial)
    (Step.served 0 (.expire sampleKey 60) (afterExpire 5) rfl)
  exact ⟨_, rfl, (uncut_releases sampleKey 5 (by decide)).2 _ answered⟩

def cutOff : System := (counted 1).setParty 0 .dropped

theorem cut_off_reached : Reachable sampleKey 1 (fun _ _ => True) cutOff := by
  have begun : Reachable sampleKey 1 (fun _ _ => True) (counted 1) :=
    counted_reached 1 (fun _ => trivial) fun _ => trivial
  exact begun.next trivial (Step.drop 0 (.expire sampleKey 60) (afterExpire 1) rfl)

theorem cut_off_stuck : Stuck sampleKey 1 1 cutOff := by
  refine ⟨⟨1, ?_, Nat.le_refl 1⟩, ?_⟩
  · decide +kernel
  · intro request
    by_cases first : request = 0
    · subst first
      intro same
      cases same
    · simp [cutOff, counted, System.setParty, System.execute, initial, Function.update_of_ne first]

/-- The first request is dropped between its two commands. A minute later, and at any time
after whatever anyone does, the next one is refused. -/
theorem dropped_locks_out :
    ∃ system, Reachable sampleKey 1 (fun _ _ => True) system ∧ ¬ Releases sampleKey 1 system ∧
      ∀ later, Interleaving.Reachable (Step sampleKey 1) (fun _ _ => True) system later →
        (Script.run (serve later.now) (rateLimitWithdraw ⟨1, 60⟩ "203.0.113.7") later.redis).1 =
          .ok .tooManyRequests := by
  have refused : ∀ later, Interleaving.Reachable (Step sampleKey 1) (fun _ _ => True) cutOff later →
      (Script.run (serve later.now) (rateLimit sampleKey 1) later.redis).1 =
        .ok .tooManyRequests := fun _ reached =>
    stuck_forever (reached_sound cut_off_reached) cut_off_stuck (Nat.le_refl 1) (Nat.le_refl 1)
      reached
  refine ⟨cutOff, cut_off_reached, ?_, refused⟩
  intro releases
  have idle : Idle cutOff := by
    intro request asked next
    by_cases first : request = 0
    · subst first
      exact nofun
    · simp [cutOff, counted, System.setParty, System.execute, initial, Function.update_of_ne first]
  -- not even its own key has an expiry
  obtain ⟨expiry, set, _⟩ := releases.expires idle ⟨1, none⟩ (by decide +kernel)
  cases set

end Samples

end PrivateTransfer.RateLimit
