/-!
Programs that talk to services outside themselves. A script is a result or one
request with a continuation for every answer, failures included, so the same
text can be run to the end, cut after any request, interleaved with another
script or driven by a service that fails when it likes. Monadic composition
stops at the first failure, as the `?` operator does.
-/

namespace PrivateTransfer.Script

inductive Program (Request : Type) (Answer : Request → Type) (Failure Result : Type) where
  | done (result : Except Failure Result)
  | ask (request : Request)
      (next : Except Failure (Answer request) → Program Request Answer Failure Result)

variable {Request : Type} {Answer : Request → Type} {Failure Result After State : Type}

def andThen (script : Program Request Answer Failure Result)
    (next : Result → Program Request Answer Failure After) :
    Program Request Answer Failure After :=
  match script with
  | .done (.ok value) => next value
  | .done (.error failure) => .done (.error failure)
  | .ask request continue' => .ask request fun answer => andThen (continue' answer) next

instance : Monad (Program Request Answer Failure) where
  pure value := .done (.ok value)
  bind := andThen

def fail (failure : Failure) : Program Request Answer Failure Result := .done (.error failure)

/-- One request whose failure ends the script. -/
def perform (request : Request) : Program Request Answer Failure (Answer request) :=
  .ask request .done

/-- Run to the end against a service that answers from its state. -/
def run (serve : (request : Request) → State → Except Failure (Answer request) × State) :
    Program Request Answer Failure Result → State → Except Failure Result × State
  | .done result, state => (result, state)
  | .ask request next, state =>
      let reply := serve request state
      run serve (next reply.1) reply.2

theorem bind_assoc {Last : Type} (script : Program Request Answer Failure Result)
    (next : Result → Program Request Answer Failure After)
    (last : After → Program Request Answer Failure Last) :
    (script >>= next >>= last) = (script >>= fun value => next value >>= last) := by
  change andThen (andThen script next) last = andThen script fun value => andThen (next value) last
  induction script with
  | done result => cases result <;> rfl
  | ask request continue' ih =>
      rw [andThen, andThen, andThen]
      congr
      funext answer
      exact ih answer

section Laws
variable (serve : (request : Request) → State → Except Failure (Answer request) × State)

@[simp] theorem run_pure (value : Result) (state : State) :
    run serve (pure value : Program Request Answer Failure Result) state = (.ok value, state) := rfl

theorem run_bind (script : Program Request Answer Failure Result)
    (next : Result → Program Request Answer Failure After) (state : State) :
    run serve (script >>= next) state =
      match run serve script state with
      | (.ok value, reached) => run serve (next value) reached
      | (.error failure, reached) => (.error failure, reached) := by
  change run serve (andThen script next) state = _
  induction script generalizing state with
  | done result => cases result <;> rfl
  | ask request continue' ih => exact ih (serve request state).1 (serve request state).2

/-- A script that succeeds hands its value and state to what follows. -/
theorem run_bind_ok {script : Program Request Answer Failure Result} {state reached : State}
    {value : Result} (finished : run serve script state = (.ok value, reached))
    (next : Result → Program Request Answer Failure After) :
    run serve (script >>= next) state = run serve (next value) reached := by
  rw [run_bind, finished]

/-- A script that fails ends the whole with its failure. -/
theorem run_bind_error {script : Program Request Answer Failure Result} {state reached : State}
    {failure : Failure} (failed : run serve script state = (.error failure, reached))
    (next : Result → Program Request Answer Failure After) :
    run serve (script >>= next) state = (.error failure, reached) := by
  rw [run_bind, failed]

/-- A request the service answers hands its answer on. -/
theorem run_perform_bind {request : Request} {state reached : State} {answer : Answer request}
    (answered : serve request state = (.ok answer, reached))
    (next : Answer request → Program Request Answer Failure After) :
    run serve (perform request >>= next) state = run serve (next answer) reached := by
  have finished : run serve (perform request) state = (.ok answer, reached) := answered
  exact run_bind_ok serve finished next

end Laws

end PrivateTransfer.Script
