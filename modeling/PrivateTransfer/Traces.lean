import PrivateTransfer.Interruption

/-!
What a script asks for. `trace` lists the requests of a run in order, a failing one
included; whoever is asked sees the part of it that is addressed to it.
-/

namespace PrivateTransfer.Script

variable {Request : Type} {Answer : Request → Type} {Failure Result After State : Type}

section Traces
variable (serve : (request : Request) → State → Except Failure (Answer request) × State)

def trace : Program Request Answer Failure Result → State → List Request
  | .done _, _ => []
  | .ask request next, state =>
      request :: trace (next (serve request state).1) (serve request state).2

@[simp] theorem trace_pure (value : Result) (state : State) :
    trace serve (pure value : Program Request Answer Failure Result) state = [] := rfl

@[simp] theorem trace_fail (failure : Failure) (state : State) :
    trace serve (fail failure : Program Request Answer Failure Result) state = [] := rfl

@[simp] theorem trace_perform (request : Request) (state : State) :
    trace serve (perform request : Program Request Answer Failure (Answer request)) state =
      [request] := rfl

/-- What follows a script is asked after it, if it succeeds. -/
theorem trace_bind (script : Program Request Answer Failure Result)
    (next : Result → Program Request Answer Failure After) (state : State) :
    trace serve (script >>= next) state = trace serve script state ++
      match run serve script state with
      | (.ok value, reached) => trace serve (next value) reached
      | (.error _, _) => [] := by
  change trace serve (andThen script next) state = _
  induction script generalizing state with
  | done result => cases result <;> rfl
  | ask request continue' ih =>
      rw [andThen, trace, ih, trace, run, List.cons_append]

theorem trace_bind_ok {script : Program Request Answer Failure Result} {state reached : State}
    {value : Result} (finished : run serve script state = (.ok value, reached))
    (next : Result → Program Request Answer Failure After) :
    trace serve (script >>= next) state =
      trace serve script state ++ trace serve (next value) reached := by
  rw [trace_bind, finished]

/-- A request is made by the script, or by what follows its success. -/
theorem mem_trace_bind (script : Program Request Answer Failure Result)
    (next : Result → Program Request Answer Failure After) (state : State) (request : Request) :
    request ∈ trace serve (script >>= next) state ↔
      request ∈ trace serve script state ∨ ∃ value reached,
        run serve script state = (.ok value, reached) ∧
          request ∈ trace serve (next value) reached := by
  rw [trace_bind, List.mem_append]
  apply or_congr_right
  rcases run serve script state with ⟨result, reached⟩
  cases result with
  | ok value =>
      constructor
      · exact fun asked => ⟨value, reached, rfl, asked⟩
      · rintro ⟨_, _, ⟨⟩, asked⟩
        exact asked
  | error failure => simp

/-- An attempt asks what its script does. -/
@[simp] theorem trace_attempt (script : Program Request Answer Failure Result) (state : State) :
    trace serve (attempt script) state = trace serve script state := by
  induction script generalizing state with
  | done result => rfl
  | ask request next ih => rw [attempt, trace, trace, ih]

end Traces

end PrivateTransfer.Script
