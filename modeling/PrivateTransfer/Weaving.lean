import PrivateTransfer.Traces

/-!
Two scripts whose requests are served in any order. The first one only reads; each of its
requests is logged with what the second one has asked for by then. `Answered` is what is
left of such a run when the order is forgotten: every answer comes from a state that is
good for the requests made before it.
-/

namespace PrivateTransfer.Script

variable {Request : Type} {Answer : Request → Type} {Failure Result After Other State : Type}

section Orders
variable (serve : (request : Request) → State → Except Failure (Answer request) × State)

/-- One way to serve both to their ends, from the requests already made of the second. -/
inductive Woven : List Request → Program Request Answer Failure Result →
    Program Request Answer Failure Other → State → List (Request × List Request) →
    Except Failure Result → Except Failure Other → State → Prop
  | done (made : List Request) (read : Except Failure Result) (wrote : Except Failure Other)
      (state : State) : Woven made (.done read) (.done wrote) state [] read wrote state
  | read {made : List Request} {request : Request}
      {next : Except Failure (Answer request) → Program Request Answer Failure Result}
      {writer : Program Request Answer Failure Other} {state reached : State}
      {log : List (Request × List Request)} {read : Except Failure Result}
      {wrote : Except Failure Other}
      (rest : Woven made (next (serve request state).1) writer (serve request state).2 log read
        wrote reached) :
      Woven made (.ask request next) writer state ((request, made) :: log) read wrote reached
  | write {made : List Request} {request : Request}
      {next : Except Failure (Answer request) → Program Request Answer Failure Other}
      {reader : Program Request Answer Failure Result} {state reached : State}
      {log : List (Request × List Request)} {read : Except Failure Result}
      {wrote : Except Failure Other}
      (rest : Woven (made ++ [request]) reader (next (serve request state).1)
        (serve request state).2 log read wrote reached) :
      Woven made reader (.ask request next) state log read wrote reached

/-- No request of the script moves the state. -/
def ReadOnly : Program Request Answer Failure Result → Prop
  | .done _ => True
  | .ask request next => (∀ state, (serve request state).2 = state) ∧
      ∀ answer, ReadOnly (next answer)

/-- Every request is answered from some state that is good for what had been made. -/
inductive Answered (Good : List Request → State → Prop) :
    Program Request Answer Failure Result → List (Request × List Request) →
    Except Failure Result → Prop
  | done (result : Except Failure Result) : Answered Good (.done result) [] result
  | ask {made : List Request} {request : Request}
      {next : Except Failure (Answer request) → Program Request Answer Failure Result}
      {state : State} {log : List (Request × List Request)} {result : Except Failure Result}
      (good : Good made state)
      (rest : Answered Good (next (serve request state).1) log result) :
      Answered Good (.ask request next) ((request, made) :: log) result

end Orders

section Reading
variable {serve : (request : Request) → State → Except Failure (Answer request) × State}

theorem read_only_perform {request : Request} (still : ∀ state, (serve request state).2 = state) :
    ReadOnly serve (perform request : Program Request Answer Failure (Answer request)) :=
  ⟨still, fun _ => trivial⟩

theorem read_only_bind {script : Program Request Answer Failure Result}
    {next : Result → Program Request Answer Failure After} (first : ReadOnly serve script)
    (second : ∀ value, ReadOnly serve (next value)) : ReadOnly serve (script >>= next) := by
  change ReadOnly serve (andThen script next)
  induction script with
  | done result =>
      cases result with
      | ok value => exact second value
      | error failure => trivial
  | ask request continue' ih => exact ⟨first.1, fun answer => ih answer (first.2 answer)⟩

/-- The writer keeps the state good for what it has made, whoever reads in between. -/
theorem woven_answered {Good : List Request → State → Prop} {Allowed : Request → Prop}
    (kept : ∀ made state request, Good made state → Allowed request →
      Good (made ++ [request]) (serve request state).2)
    {made : List Request} {reader : Program Request Answer Failure Result}
    {writer : Program Request Answer Failure Other} {state reached : State}
    {log : List (Request × List Request)} {read : Except Failure Result}
    {wrote : Except Failure Other} (woven : Woven serve made reader writer state log read wrote
      reached) (reads : ReadOnly serve reader) (good : Good made state)
    (allowed : ∀ request ∈ trace serve writer state, Allowed request) :
    Answered serve Good reader log read := by
  induction woven with
  | done made read wrote state => exact Answered.done read
  | read rest ih =>
      rw [reads.1] at ih
      exact Answered.ask good (ih (reads.2 _) good allowed)
  | write rest ih =>
      have first := allowed _ List.mem_cons_self
      exact ih reads (kept _ _ _ good first) fun request later =>
        allowed request (List.mem_cons_of_mem _ later)

/-- Alone, a script is answered from one state all along. -/
theorem run_answered {Good : List Request → State → Prop} {made : List Request} {state : State}
    (good : Good made state) {script : Program Request Answer Failure Result}
    (reads : ReadOnly serve script) :
    ∃ log, Answered serve Good script log (run serve script state).1 ∧
      (run serve script state).2 = state ∧ ∀ entry ∈ log, entry.2 = made := by
  induction script with
  | done result => exact ⟨[], Answered.done result, rfl, fun _ => nofun⟩
  | ask request next ih =>
      obtain ⟨log, answered, still, alike⟩ := ih (serve request state).1 (reads.2 _)
      rw [run, reads.1]
      refine ⟨(request, made) :: log, Answered.ask good answered, still, ?_⟩
      intro entry member
      rcases List.mem_cons.mp member with rfl | later
      · rfl
      · exact alike entry later

variable {Good : List Request → State → Prop}

theorem answered_perform {request : Request} {log : List (Request × List Request)}
    {result : Except Failure (Answer request)}
    (answered : Answered serve Good (perform request) log result) :
    ∃ made state, Good made state ∧ log = [(request, made)] ∧
      result = (serve request state).1 := by
  cases answered with
  | ask good rest =>
      cases rest
      exact ⟨_, _, good, rfl, rfl⟩

theorem answered_bind {script : Program Request Answer Failure Result}
    {next : Result → Program Request Answer Failure After} {log : List (Request × List Request)}
    {result : Except Failure After} (answered : Answered serve Good (script >>= next) log result) :
    ∃ front back first, log = front ++ back ∧ Answered serve Good script front first ∧
      match first with
      | .ok value => Answered serve Good (next value) back result
      | .error failure => back = [] ∧ result = .error failure := by
  change Answered serve Good (andThen script next) log result at answered
  induction script generalizing log with
  | done first =>
      refine ⟨[], log, first, rfl, Answered.done first, ?_⟩
      cases first with
      | ok value => exact answered
      | error failure =>
          cases answered
          exact ⟨rfl, rfl⟩
  | ask request continue' ih =>
      cases answered with
      | ask good rest =>
          obtain ⟨front, back, first, rfl, before, behind⟩ := ih _ rest
          exact ⟨_ :: front, back, first, rfl, Answered.ask good before, behind⟩

/-- A request whose answer is good goes on with it. -/
theorem answered_request {request : Request} {next : Answer request →
      Program Request Answer Failure After} {log : List (Request × List Request)}
    {result : Except Failure After}
    (ok : ∀ state, ∃ answer, (serve request state).1 = .ok answer)
    (answered : Answered serve Good (perform request >>= next) log result) :
    ∃ made state answer rest, Good made state ∧ (serve request state).1 = .ok answer ∧
      log = (request, made) :: rest ∧ Answered serve Good (next answer) rest result := by
  obtain ⟨front, back, first, rfl, before, behind⟩ := answered_bind answered
  obtain ⟨made, state, good, rfl, rfl⟩ := answered_perform before
  obtain ⟨answer, served⟩ := ok state
  rw [served] at behind
  exact ⟨made, state, answer, back, good, served, rfl, behind⟩

end Reading

/-! Orders in which one of the two is served for a while alone. -/
section Stretches
variable {serve : (request : Request) → State → Except Failure (Answer request) × State}

theorem woven_writes {made : List Request} {reader : Program Request Answer Failure Result}
    {writer : Program Request Answer Failure Other} {state middle reached : State}
    {log : List (Request × List Request)} {read : Except Failure Result}
    {wrote : Except Failure Other} (finished : run serve writer state = (wrote, middle))
    (rest : Woven serve (made ++ trace serve writer state) reader (.done wrote) middle log read
      wrote reached) : Woven serve made reader writer state log read wrote reached := by
  induction writer generalizing made state with
  | done result =>
      cases finished
      rw [trace, List.append_nil] at rest
      exact rest
  | ask request next ih =>
      refine Woven.write (ih _ finished ?_)
      rw [List.append_assoc]
      exact rest

theorem woven_reads {made : List Request} {script : Program Request Answer Failure Result}
    {next : Result → Program Request Answer Failure After}
    {writer : Program Request Answer Failure Other} {state middle reached : State}
    {log : List (Request × List Request)} {read : Except Failure After}
    {wrote : Except Failure Other} {value : Result}
    (finished : run serve script state = (.ok value, middle))
    (rest : Woven serve made (next value) writer middle log read wrote reached) :
    Woven serve made (script >>= next) writer state
      ((trace serve script state).map (fun request => (request, made)) ++ log) read wrote
      reached := by
  change Woven serve made (andThen script next) writer state _ read wrote reached
  induction script generalizing state with
  | done result =>
      cases finished
      exact rest
  | ask request continue' ih => exact Woven.read (ih _ finished)

theorem woven_alone {made : List Request} {reader : Program Request Answer Failure Result}
    {state reached : State} {read : Except Failure Result} (wrote : Except Failure Other)
    (finished : run serve reader state = (read, reached)) :
    Woven serve made reader (.done wrote) state
      ((trace serve reader state).map fun request => (request, made)) read wrote reached := by
  induction reader generalizing state with
  | done result =>
      cases finished
      exact Woven.done made _ wrote _
  | ask request next ih => exact Woven.read (ih _ finished)

end Stretches

end PrivateTransfer.Script
