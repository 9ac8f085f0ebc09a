import PrivateTransfer.Script

/-!
Scripts whose process may end half-way. `stopped` is the state left behind by
the first requests of a script; `Through` says what holds at each of its
requests and what its end adds. It is proved of a script along its binds, so a
loop is an induction over the rounds, and it answers for the run to the end and
for every cut at once.
-/

namespace PrivateTransfer.Script

variable {Request : Type} {Answer : Request → Type} {Failure Result After State : Type}

section Cuts
variable (serve : (request : Request) → State → Except Failure (Answer request) × State)

/-- The state a script leaves when its process ends after `count` requests. -/
def stopped : (count : Nat) → Program Request Answer Failure Result → State → State
  | 0, _, state => state
  | _ + 1, .done _, state => state
  | count + 1, .ask request next, state =>
      stopped count (next (serve request state).1) (serve request state).2

/-- How many requests a script makes on its way to the end. -/
def asked : Program Request Answer Failure Result → State → Nat
  | .done _, _ => 0
  | .ask request next, state => asked (next (serve request state).1) (serve request state).2 + 1

/-- A cut falls into the first script, or into what follows the first one's end. -/
theorem stopped_bind (script : Program Request Answer Failure Result)
    (next : Result → Program Request Answer Failure After) (state : State) (count : Nat) :
    stopped serve count (script >>= next) state =
      if count < asked serve script state then stopped serve count script state
      else match run serve script state with
        | (.ok value, reached) =>
            stopped serve (count - asked serve script state) (next value) reached
        | (.error _, reached) => reached := by
  change stopped serve count (andThen script next) state = _
  induction script generalizing state count with
  | done result =>
      cases result with
      | ok value => rfl
      | error failure => cases count <;> rfl
  | ask request continue' ih =>
      cases count with
      | zero => rfl
      | succ count =>
          rw [andThen, stopped, ih, asked, stopped, run]
          simp only [Nat.add_lt_add_iff_right, Nat.add_sub_add_right]

theorem asked_bind (script : Program Request Answer Failure Result)
    (next : Result → Program Request Answer Failure After) (state : State) :
    asked serve (script >>= next) state =
      (match run serve script state with
        | (.ok value, reached) => asked serve (next value) reached
        | (.error _, _) => 0) + asked serve script state := by
  change asked serve (andThen script next) state = _
  induction script generalizing state with
  | done result => cases result <;> rfl
  | ask request continue' ih =>
      rw [andThen, asked, ih, asked, run, Nat.add_assoc]

/-- A cut behind the last request leaves what the whole run leaves. -/
theorem stopped_end (script : Program Request Answer Failure Result) (state : State) (count : Nat)
    (late : asked serve script state ≤ count) :
    stopped serve count script state = (run serve script state).2 := by
  induction script generalizing state count with
  | done result => cases count <;> rfl
  | ask request next ih =>
      cases count with
      | zero => exact absurd late (Nat.not_succ_le_zero _)
      | succ count => exact ih _ _ count (Nat.le_of_succ_le_succ late)

/-- An answered request is behind the cut. -/
theorem stopped_perform {request : Request} {answer : Answer request} {state reached : State}
    (answered : serve request state = (.ok answer, reached))
    (next : Answer request → Program Request Answer Failure After) (count : Nat) :
    stopped serve (count + 1) (perform request >>= next) state =
      stopped serve count (next answer) reached := by
  change stopped serve count (andThen (.done (serve request state).1) next)
    (serve request state).2 = _
  rw [answered]
  rfl

theorem stopped_refused {request : Request} {failure : Failure} {state reached : State}
    (refused : serve request state = (.error failure, reached))
    (next : Answer request → Program Request Answer Failure After) (count : Nat) :
    stopped serve (count + 1) (perform request >>= next) state = reached := by
  change stopped serve count (andThen (.done (serve request state).1) next)
    (serve request state).2 = _
  rw [refused]
  cases count <;> rfl

/-- A caller that notes a failure and goes on. -/
def attempt : Program Request Answer Failure Result →
    Program Request Answer Failure (Except Failure Result)
  | .done result => .done (.ok result)
  | .ask request next => .ask request fun answer => attempt (next answer)

/-- An attempt answers with the result of its script. -/
theorem run_attempt (script : Program Request Answer Failure Result) (state : State) :
    run serve (attempt script) state =
      (.ok (run serve script state).1, (run serve script state).2) := by
  induction script generalizing state with
  | done result => rfl
  | ask request next ih => exact ih _ _

/-- A script that ends well after exactly `count` answers. -/
structure Leads (script : Program Request Answer Failure Result) (state : State) (count : Nat)
    (value : Result) (reached : State) : Prop where
  run : run serve script state = (.ok value, reached)
  asked : asked serve script state = count

def Through (always : State → Prop) (ending : Except Failure Result → State → Prop) :
    Program Request Answer Failure Result → State → Prop
  | .done result, state => always state ∧ ending result state
  | .ask request next, state =>
      always state ∧ Through always ending (next (serve request state).1) (serve request state).2

end Cuts

section Rules
variable {serve : (request : Request) → State → Except Failure (Answer request) × State}
  {always : State → Prop} {ending : Except Failure Result → State → Prop}
  {script : Program Request Answer Failure Result} {state : State}

theorem leads_pure (value : Result) (state : State) :
    Leads serve (pure value : Program Request Answer Failure Result) state 0 value state :=
  ⟨rfl, rfl⟩

theorem leads_perform {request : Request} {answer : Answer request} {reached : State}
    (answered : serve request state = (.ok answer, reached)) :
    Leads serve (perform request : Program Request Answer Failure (Answer request)) state 1
      answer reached := by
  constructor
  · exact answered
  · rfl

/-- A request whose failure is noted is answered in any case. -/
theorem leads_noted (request : Request) (state : State) :
    Leads serve
      (attempt (perform request) : Program Request Answer Failure (Except Failure (Answer request)))
      state 1 (serve request state).1 (serve request state).2 := ⟨rfl, rfl⟩

theorem leads_bind {next : Result → Program Request Answer Failure After} {before later : Nat}
    {value : Result} {last : After} {middle reached : State}
    (leads : Leads serve script state before value middle)
    (rest : Leads serve (next value) middle later last reached) :
    Leads serve (script >>= next) state (later + before) last reached := by
  constructor
  · rw [run_bind_ok serve leads.run, rest.run]
  · rw [asked_bind, leads.run, leads.asked]
    exact congrArg (· + before) rest.asked

/-- A cut either falls into a script that ends well or follows its end. -/
theorem leads_stopped {count : Nat} {value : Result} {reached : State}
    (leads : Leads serve script state count value reached)
    (next : Result → Program Request Answer Failure After) (cut : Nat) :
    stopped serve cut (script >>= next) state =
      if cut < count then stopped serve cut script state
      else stopped serve (cut - count) (next value) reached := by
  rw [stopped_bind, leads.asked, leads.run]

theorem through_start (through : Through serve always ending script state) : always state := by
  cases script with
  | done result => exact through.1
  | ask request next => exact through.1

theorem through_run (through : Through serve always ending script state) :
    ending (run serve script state).1 (run serve script state).2 := by
  induction script generalizing state with
  | done result => exact through.2
  | ask request next ih => exact ih _ through.2

/-- Wherever the process ends, it leaves a state that holds throughout. -/
theorem through_stopped (through : Through serve always ending script state) (count : Nat) :
    always (stopped serve count script state) := by
  induction count generalizing script state with
  | zero => exact through_start through
  | succ count ih =>
      cases script with
      | done result => exact through.1
      | ask request next => exact ih through.2

theorem through_weaken {wider : State → Prop} {looser : Except Failure Result → State → Prop}
    (through : Through serve always ending script state) (widen : ∀ s, always s → wider s)
    (close : ∀ result s, always s → ending result s → looser result s) :
    Through serve wider looser script state := by
  induction script generalizing state with
  | done result => exact ⟨widen _ through.1, close _ _ through.1 through.2⟩
  | ask request next ih => exact ⟨widen _ through.1, ih _ through.2⟩

/-- A script hands its value on, or its failure ends the whole. -/
theorem through_bind {next : Result → Program Request Answer Failure After}
    {last : Except Failure After → State → Prop}
    (through : Through serve always ending script state)
    (goesOn : ∀ value s, always s → ending (.ok value) s →
      Through serve always last (next value) s)
    (fails : ∀ failure s, always s → ending (.error failure) s → last (.error failure) s) :
    Through serve always last (script >>= next) state := by
  change Through serve always last (andThen script next) state
  induction script generalizing state with
  | done result =>
      cases result with
      | ok value => exact goesOn value state through.1 through.2
      | error failure => exact ⟨through.1, fails failure state through.1 through.2⟩
  | ask request continue' ih => exact ⟨through.1, ih _ through.2⟩

theorem through_pure {value : Result} (now : always state) (ends : ending (.ok value) state) :
    Through serve always ending (pure value) state := ⟨now, ends⟩

/-- A request the service answers. -/
theorem through_perform (request : Request) {answer : Answer request} {reached : State}
    {next : Answer request → Program Request Answer Failure Result}
    (answered : serve request state = (.ok answer, reached)) (now : always state)
    (goesOn : Through serve always ending (next answer) reached) :
    Through serve always ending (perform request >>= next) state := by
  change always state ∧ Through serve always ending
    (andThen (.done (serve request state).1) next) (serve request state).2
  rw [answered]
  exact ⟨now, goesOn⟩

/-- A request the service refuses ends the script. -/
theorem through_refused (request : Request) {failure : Failure} {reached : State}
    {next : Answer request → Program Request Answer Failure Result}
    (refused : serve request state = (.error failure, reached)) (now : always state)
    (kept : always reached) (ends : ending (.error failure) reached) :
    Through serve always ending (perform request >>= next) state := by
  change always state ∧ Through serve always ending
    (andThen (.done (serve request state).1) next) (serve request state).2
  rw [refused]
  exact ⟨now, kept, ends⟩

theorem through_attempt {noted : Except Failure (Except Failure Result) → State → Prop}
    (through : Through serve always ending script state)
    (close : ∀ result s, always s → ending result s → noted (.ok result) s) :
    Through serve always noted (attempt script) state := by
  induction script generalizing state with
  | done result => exact ⟨through.1, close _ _ through.1 through.2⟩
  | ask request next ih => exact ⟨through.1, ih _ through.2⟩

end Rules

end PrivateTransfer.Script
