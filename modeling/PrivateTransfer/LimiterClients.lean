import PrivateTransfer.Cache

/-!
All the clients of `backend/src/rate_limit.rs` at once: any number of addresses on both
routes, whose requests overlap on one clock and one Redis. What a client sees of it is a
run of its own, so nothing that happens to the requests of the others keeps it out.
-/

namespace PrivateTransfer.LimiterClients

open Cache (Route Key limiterKey text_injective)
open RateLimit hiding Step Reachable initial
open Interleaving (reachable_invariant)

structure Client where
  route : Route
  ip : String
  deriving DecidableEq

def Client.key (client : Client) : String := limiterKey client.route client.ip

def Client.limit (config : Config) (client : Client) : Nat :=
  match client.route with
  | .withdraw => config.rateLimitWithdrawPerMin
  | .read => config.rateLimitReadPerMin

theorem key_apart {client other : Client} (apart : other ≠ client) : other.key ≠ client.key := by
  intro same
  have keys : Key.limiter other.route other.ip = .limiter client.route client.ip :=
    text_injective same
  obtain ⟨routes, ips⟩ := Key.limiter.inj keys
  apply apart
  cases client
  cases other
  cases routes
  cases ips
  rfl

/-- What is kept for one client besides the clock and Redis. -/
structure Lane where
  parties : Nat → Party
  lives : Nat
  tickets : Nat → Option Ticket
  lastActive : Nat

structure Service where
  now : Nat
  redis : Redis
  lanes : Client → Lane

def Service.view (service : Service) (client : Client) : System where
  now := service.now
  redis := service.redis
  parties := (service.lanes client).parties
  lives := (service.lanes client).lives
  tickets := (service.lanes client).tickets
  lastActive := (service.lanes client).lastActive

def laneOf (system : System) : Lane :=
  ⟨system.parties, system.lives, system.tickets, system.lastActive⟩

def Service.put (service : Service) (client : Client) (system : System) : Service where
  now := system.now
  redis := system.redis
  lanes := Function.update service.lanes client (laneOf system)

def initial : Service := ⟨0, fun _ => none, fun _ => laneOf RateLimit.initial⟩

/-- One step of one client; if it waits, time goes by for everyone. -/
inductive Step (config : Config) (service : Service) : Client × Action → Service → Prop
  | move (client : Client) (action : Action) (after : System)
      (moves : RateLimit.Step client.key (client.limit config) (service.view client) action
        after) :
      Step config service (client, action) (service.put client after)

/-- What a client can see: its own counter and no other. -/
def mask (key : String) (system : System) : System :=
  { system with redis := fun other => if other = key then system.redis key else none }

def Service.alone (service : Service) (client : Client) : System :=
  mask client.key (service.view client)

/-! A step of a client is one it could take on its own. -/
section Alone
variable {key : String} {limit : Nat} {system : System}

theorem mask_redis (key : String) (system : System) :
    (mask key system).redis key = system.redis key := if_pos rfl

theorem mask_update (key : String) (redis : Redis) (counter : Option Counter) :
    (fun other => if other = key then Function.update redis key counter key else none) =
      Function.update (fun other => if other = key then redis key else none) key counter := by
  funext other
  by_cases same : other = key
  · rw [same, if_pos rfl, Function.update_self, Function.update_self]
  · rw [if_neg same, Function.update_of_ne same, if_neg same]

theorem mask_ticket (key : String) (system : System) :
    (mask key system).ticket key = system.ticket key := by
  rw [System.ticket, System.ticket, mask_redis]
  rfl

theorem mask_incr (request : Nat) :
    mask key (system.execute request (.incr key)) =
      (mask key system).execute request (.incr key) := by
  rw [System.execute, System.execute, mask_ticket]
  simp only [mask, serve, if_pos, mask_update]

theorem mask_expire (request ttlSecs : Nat) :
    mask key (system.execute request (.expire key ttlSecs)) =
      (mask key system).execute request (.expire key ttlSecs) := by
  simp only [System.execute, mask, serve, if_pos, mask_update]

theorem mask_serve :
    (serve (mask key system).now (.incr key) (mask key system).redis).1 =
      (serve system.now (.incr key) system.redis).1 := by
  rw [serve, serve, mask_redis]
  rfl

theorem mask_step {action : Action} {after : System} (sound : Sound key limit (mask key system))
    (step : RateLimit.Step key limit system action after) :
    RateLimit.Step key limit (mask key system) action (mask key after) := by
  cases step with
  | arrive request absent => exact .arrive request absent
  | served request asked next running =>
      have step : RateLimit.Step key limit (mask key system) _ _ :=
        .served request asked next running
      cases shape_asking sound running with
      | incr asking =>
          rw [mask_serve, ← mask_incr] at step
          exact step
      | expire life pending told =>
          rw [← mask_expire] at step
          exact step
  | refused request asked error next running => exact .refused request asked error next running
  | lost request asked error next running =>
      have step : RateLimit.Step key limit (mask key system) _ _ :=
        .lost request asked error next running
      cases shape_asking sound running with
      | incr asking =>
          rw [← mask_incr] at step
          exact step
      | expire life pending told =>
          rw [← mask_expire] at step
          exact step
  | drop request asked next running => exact .drop request asked next running
  | wait milliseconds => exact .wait milliseconds

/-- No step touches the counter of another key. -/
theorem step_frame {action : Action} {after : System} (sound : Sound key limit (mask key system))
    (step : RateLimit.Step key limit system action after) {other : String} (apart : other ≠ key) :
    after.redis other = system.redis other := by
  cases step with
  | served request asked next running =>
      cases shape_asking sound running with
      | incr asking => exact Function.update_of_ne apart _ _
      | expire life pending told => exact Function.update_of_ne apart _ _
  | lost request asked error next running =>
      cases shape_asking sound running with
      | incr asking => exact Function.update_of_ne apart _ _
      | expire life pending told => exact Function.update_of_ne apart _ _
  | _ => rfl

theorem step_clock {action : Action} {after : System}
    (step : RateLimit.Step key limit system action after) :
    ∃ milliseconds, after.now = system.now + milliseconds := by
  cases step with
  | served request asked next running => cases asked <;> exact ⟨0, rfl⟩
  | lost request asked error next running => cases asked <;> exact ⟨0, rfl⟩
  | wait milliseconds => exact ⟨milliseconds, rfl⟩
  | _ => exact ⟨0, rfl⟩

/-- The invariants of one client speak of its own counter only. -/
theorem sound_unmasked (sound : Sound key limit (mask key system)) : Sound key limit system :=
  ⟨sound.shaped, sound.clock, sound.older,
    fun counter present => sound.newest counter ((mask_redis key system).trans present),
    sound.unique, sound.positive⟩

theorem covered_unmasked (covered : Covered key limit (mask key system)) :
    Covered key limit system :=
  fun counter present => covered counter ((mask_redis key system).trans present)

theorem uncut_masked {action : Action} (uncut : Uncut key limit system action) :
    Uncut key limit (mask key system) action := by
  cases action with
  | command request fate =>
      cases fate with
      | lost error =>
          intro asking
          rw [mask_redis]
          exact uncut asking
      | served => trivial
      | refused error => exact uncut
  | drop request => exact uncut
  | arrive request => trivial
  | wait milliseconds => trivial

end Alone

section Clients
variable {config : Config}

def Reachable (config : Config) (allowed : Service → Client × Action → Prop) : Service → Prop :=
  Interleaving.Reachable (Step config) allowed initial

/-- What holds of a client alone holds of every one of them. -/
def Sounds (config : Config) (service : Service) : Prop :=
  ∀ client : Client, Sound client.key (client.limit config) (service.alone client)

theorem put_self (service : Service) (client : Client) (system : System) :
    (service.put client system).alone client = mask client.key system := by
  simp only [Service.alone, Service.view, Service.put, Function.update_self, laneOf]

theorem put_other (service : Service) {client other : Client} (apart : other ≠ client)
    (system : System) (framed : system.redis other.key = service.redis other.key) :
    (service.put client system).alone other =
      { service.alone other with now := system.now } := by
  simp only [Service.alone, Service.view, Service.put, mask, Function.update_of_ne apart, framed]

/-- A client moves on its own, or has time go by while another one moves. -/
theorem step_alone {before after : Service} (sounds : Sounds config before) {mover : Client}
    {action : Action} (step : Step config before (mover, action) after) (client : Client) :
    mover = client ∧ RateLimit.Step client.key (client.limit config) (before.alone client) action
        (after.alone client) ∨
      ∃ milliseconds, RateLimit.Step client.key (client.limit config) (before.alone client)
        (.wait milliseconds) (after.alone client) := by
  cases step with
  | move _ _ system moves =>
      have sound := sounds mover
      by_cases same : mover = client
      · subst same
        rw [put_self]
        exact Or.inl ⟨rfl, mask_step sound moves⟩
      · have framed := step_frame sound moves (key_apart (Ne.symm same))
        obtain ⟨milliseconds, later⟩ := step_clock moves
        rw [put_other before (Ne.symm same) system framed, later]
        exact Or.inr ⟨milliseconds, .wait milliseconds⟩

theorem step_sounds {before after : Service} (sounds : Sounds config before)
    {moved : Client × Action} (step : Step config before moved after) : Sounds config after := by
  intro client
  rcases step_alone sounds step client with ⟨_, own⟩ | ⟨milliseconds, later⟩
  · exact step_sound (sounds client) own
  · exact step_sound (sounds client) later

theorem initial_alone (client : Client) : initial.alone client = RateLimit.initial := by
  simp only [Service.alone, Service.view, initial, mask, laneOf, ite_self]
  rfl

theorem reachable_sounds {allowed : Service → Client × Action → Prop} {service : Service}
    (reached : Reachable config allowed service) : Sounds config service := by
  refine reachable_invariant ?_ (fun _ _ _ sounds _ step => step_sounds sounds step) reached
  intro client
  rw [initial_alone]
  exact initial_sound

/-- What a client sees of a run of all is a run of its own, under a condition that only its
own steps have to meet. -/
theorem reachable_alone {client : Client} {allowed : System → Action → Prop}
    (waits : ∀ system milliseconds, allowed system (.wait milliseconds)) {service : Service}
    (reached : Reachable config (fun service moved => moved.1 = client →
      allowed (service.alone client) moved.2) service) :
    RateLimit.Reachable client.key (client.limit config) allowed (service.alone client) := by
  induction reached with
  | start => exact initial_alone client ▸ .start
  | @next before after moved earlier permitted taken ih =>
      rcases step_alone (reachable_sounds earlier) taken client with
        ⟨mine, own⟩ | ⟨milliseconds, later⟩
      · exact ih.next (permitted mine) own
      · exact ih.next (waits _ _) later

/-- No request of this client is cut off between its two commands; the others may be. -/
def OwnUncut (config : Config) (client : Client) (service : Service)
    (moved : Client × Action) : Prop :=
  moved.1 = client → Uncut client.key (client.limit config) (service.view client) moved.2

/-- However the requests of all clients overlap and fail, each client is capped by the limit
of its route; and as long as none of its own requests is cut between the two commands, it is
released after 60 seconds of its own silence, whatever the others do and whatever happens to
them. -/
theorem clients_released (config : Config) (client : Client) :
    (∀ service, Reachable config (fun _ _ => True) service →
        Capped (client.limit config) (service.view client)) ∧
      (1 ≤ client.limit config → ∀ service, Reachable config (OwnUncut config client) service →
        Releases client.key (client.limit config) (service.view client)) := by
  constructor
  · intro service reached
    exact sound_capped (sound_unmasked (reachable_sounds reached client))
  · intro positive service reached
    have own : Reachable config (fun service moved => moved.1 = client →
        Uncut client.key (client.limit config) (service.alone client) moved.2) service :=
      Interleaving.reachable_mono (fun _ _ permitted mine => uncut_masked (permitted mine)) reached
    have timed := reachable_invariant initial_timed
      (fun _ _ _ timed uncut step => step_timed timed uncut step)
      (reachable_alone (fun _ _ => trivial) own)
    exact covered_releases positive (sound_unmasked timed.sound) (covered_unmasked timed.covered)

end Clients

/-! An address that was locked out beside one that was not. -/
section Sample

theorem put_view (service : Service) (client : Client) :
    service.put client (service.view client) = service := by
  simp only [Service.put, Service.view, laneOf, Function.update_eq_self]

theorem view_put_self (service : Service) (client : Client) (system : System) :
    (service.put client system).view client = system := by
  simp only [Service.put, Service.view, Function.update_self, laneOf]

theorem put_put (service : Service) (client : Client) (system last : System) :
    (service.put client system).put client last = service.put client last := by
  simp only [Service.put, Function.update_idem]

/-- Whatever a client could do on its own it can do among the others. -/
theorem replay {config : Config} (client : Client) {service : Service}
    {allowed : Service → Client × Action → Prop} (reached : Reachable config allowed service)
    (free : ∀ before action, allowed before (client, action)) {system : System}
    (alone : Interleaving.Reachable (RateLimit.Step client.key (client.limit config))
      (fun _ _ => True) (service.view client) system) :
    Reachable config allowed (service.put client system) := by
  induction alone with
  | start => exact (put_view service client).symm ▸ reached
  | @next before after action earlier _ taken ih =>
      rw [← put_put service client before after]
      exact ih.next (free _ _) (.move client action after
        ((view_put_self service client before).symm ▸ taken))

def neighbour : Client := ⟨.withdraw, "203.0.113.7"⟩

def sampleClient : Client := ⟨.withdraw, "198.51.100.9"⟩

theorem view_put_other (service : Service) {client other : Client} (apart : other ≠ client)
    (system : System) :
    (service.put client system).view other =
      { service.view other with now := system.now, redis := system.redis } := by
  simp only [Service.put, Service.view, Function.update_of_ne apart]

def cutService : Service := initial.put neighbour cutOff

/-- A minute after the first request of the neighbour was dropped between its two commands. -/
def laterService : Service :=
  cutService.put sampleClient { cutService.view sampleClient with now := 60000 }

theorem later_reached :
    Reachable ⟨1, 60⟩ (OwnUncut ⟨1, 60⟩ sampleClient) laterService := by
  have apart : neighbour ≠ sampleClient := by decide
  have begun : Reachable ⟨1, 60⟩ (OwnUncut ⟨1, 60⟩ sampleClient) initial := .start
  have cut := replay neighbour begun (fun _ _ mine => absurd mine apart) cut_off_reached
  exact cut.next (show OwnUncut _ _ _ (sampleClient, .wait 60000) from fun _ => trivial)
    (.move sampleClient (.wait 60000) _ (.wait 60000))

/-- The neighbour is refused from then on, and nobody else is. -/
theorem neighbour_cut_off :
    (laterService.view neighbour).parties 0 = .dropped ∧
      (Script.run (serve laterService.now) (rateLimitWithdraw ⟨1, 60⟩ sampleClient.ip)
        laterService.redis).1 = .ok .passed := by
  have apart : neighbour ≠ sampleClient := by decide
  have seen : laterService.view sampleClient =
      { cutService.view sampleClient with now := 60000 } := view_put_self ..
  have releases := (clients_released ⟨1, 60⟩ sampleClient).2 (by decide) _ later_reached
  have idle : Idle (laterService.view sampleClient) := by
    intro request asked next
    rw [seen, cutService, view_put_other initial (Ne.symm apart)]
    exact nofun
  have silent : (laterService.view sampleClient).lastActive + 60000 ≤
      (laterService.view sampleClient).now := by
    rw [seen, cutService, view_put_other initial (Ne.symm apart)]
    exact Nat.le_refl 60000
  refine ⟨?_, releases.admits idle silent⟩
  rw [laterService, view_put_other cutService apart, cutService, view_put_self]
  rfl

end Sample

end PrivateTransfer.LimiterClients
