import PrivateTransfer.Interruption
import PrivateTransfer.Traces

/-!
A service that fails at one of its requests, whichever it is. A script that ends at its first
failure is cut there, and the failed request may have taken effect all the same: what is left
behind is a cut before that request or right behind it.
-/

namespace PrivateTransfer.Script

variable {Request : Type} {Answer : Request → Type} {Failure Result After State : Type}

/-- A failed request ends the script with its failure. -/
def Strict : Program Request Answer Failure Result → Prop
  | .done _ => True
  | .ask _ next => (∀ failure, next (.error failure) = .done (.error failure)) ∧
      ∀ answer, Strict (next (.ok answer))

section Strictness

theorem strict_pure (value : Result) :
    Strict (pure value : Program Request Answer Failure Result) := trivial

theorem strict_perform (request : Request) :
    Strict (perform request : Program Request Answer Failure (Answer request)) :=
  ⟨fun _ => rfl, fun _ => trivial⟩

theorem strict_bind {script : Program Request Answer Failure Result}
    {next : Result → Program Request Answer Failure After} (first : Strict script)
    (second : ∀ value, Strict (next value)) : Strict (script >>= next) := by
  change Strict (andThen script next)
  induction script with
  | done result =>
      cases result with
      | ok value => exact second value
      | error failure => trivial
  | ask request continue' ih =>
      constructor
      · intro failure
        change andThen (continue' (.error failure)) next = .done (.error failure)
        rw [first.1 failure]
        rfl
      · exact fun answer => ih _ (first.2 answer)

end Strictness

section Failing
variable (serve : (request : Request) → State → Except Failure (Answer request) × State)
  (failure : Request → Failure) (point : Nat) (landed : Bool)

/-- Request number `point` fails, with its effect if it has landed. -/
def failing (request : Request) (service : State × Nat) :
    Except Failure (Answer request) × State × Nat :=
  let reply := serve request service.1
  if service.2 = point then
    (.error (failure request), if landed then reply.2 else service.1, service.2 + 1)
  else (reply.1, reply.2, service.2 + 1)

variable {serve failure landed}

/-- A strict script that comes to the failure is cut there. -/
theorem failing_cut {script : Program Request Answer Failure Result} (strict : Strict script)
    {count remaining : Nat} {state : State} (comes : remaining < asked serve script state) :
    ∃ problem, run (failing serve failure (count + remaining) landed) script (state, count) =
      (.error problem, stopped serve (remaining + landed.toNat) script state,
        count + remaining + 1) := by
  induction script generalizing count remaining state with
  | done result => exact absurd comes (Nat.not_lt_zero _)
  | ask request next ih =>
      cases remaining with
      | zero =>
          refine ⟨failure request, ?_⟩
          rw [run, failing, Nat.add_zero, if_pos rfl, strict.1]
          cases landed <;> rfl
      | succ remaining =>
          have later : count ≠ count + (remaining + 1) := by omega
          have point : count + (remaining + 1) = count + 1 + remaining := by omega
          have behind := Nat.lt_of_succ_lt_succ comes
          rw [run, failing, if_neg later, point]
          -- only an answer leads on to further requests
          cases answered : (serve request state).1 with
          | ok answer =>
              rw [answered] at behind
              obtain ⟨problem, ended⟩ := @ih (.ok answer) (strict.2 answer) (count + 1) remaining _
                behind
              refine ⟨problem, ended.trans ?_⟩
              rw [Nat.add_right_comm remaining 1, stopped, answered]
          | error problem =>
              rw [answered, strict.1] at behind
              exact absurd behind (Nat.not_lt_zero _)

/-- A script that ends before the failure ends as if there were none. -/
theorem failing_late {script : Program Request Answer Failure Result} {count remaining : Nat}
    {state : State} (ends : asked serve script state ≤ remaining) :
    run (failing serve failure (count + remaining) landed) script (state, count) =
      ((run serve script state).1, (run serve script state).2,
        count + asked serve script state) := by
  induction script generalizing count remaining state with
  | done result => rfl
  | ask request next ih =>
      cases remaining with
      | zero => exact absurd ends (Nat.not_succ_le_zero _)
      | succ remaining =>
          have later : count ≠ count + (remaining + 1) := by omega
          have point : count + (remaining + 1) = count + 1 + remaining := by omega
          have shift : count + 1 + asked serve (next (serve request state).1)
              (serve request state).2 = count + asked serve (.ask request next) state := by
            rw [asked]
            omega
          rw [run, failing, if_neg later, point, ih _ (Nat.le_of_succ_le_succ ends), shift]
          rfl

end Failing

section Effects
variable {serve : (request : Request) → State → Except Failure (Answer request) × State}

theorem trace_length (script : Program Request Answer Failure Result) (state : State) :
    (trace serve script state).length = asked serve script state := by
  induction script generalizing state with
  | done result => rfl
  | ask request next ih => rw [trace, List.length_cons, ih, asked]

/-- A cut leaves a state that is good for the requests before it. -/
theorem stopped_good {Good : List Request → State → Prop} {Allowed : Request → Prop}
    (kept : ∀ made state request, Good made state → Allowed request →
      Good (made ++ [request]) (serve request state).2)
    {script : Program Request Answer Failure Result} {made : List Request} {state : State}
    (good : Good made state) (allowed : ∀ request ∈ trace serve script state, Allowed request)
    (count : Nat) :
    Good (made ++ (trace serve script state).take count) (stopped serve count script state) := by
  induction script generalizing made state count with
  | done result => cases count <;> simpa [trace, stopped] using good
  | ask request next ih =>
      cases count with
      | zero => simpa [stopped] using good
      | succ count =>
          have first := kept made state request good (allowed request List.mem_cons_self)
          have rest := ih _ first
            (fun later asked => allowed later (List.mem_cons_of_mem request asked)) count
          rw [List.append_assoc] at rest
          exact rest

end Effects

end PrivateTransfer.Script
