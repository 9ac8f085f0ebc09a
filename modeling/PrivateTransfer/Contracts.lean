import PrivateTransfer.Interleaving
import PrivateTransfer.Traces

/-!
What a script keeps to, whoever answers it. A contract says which answers are possible,
what is known after each, and what may be asked knowing so much. `Keeps` is proved of a
script along its binds; it then holds of whatever is left of the script behind every answer,
so also where any number of scripts are answered from one state that others change as well.
-/

namespace PrivateTransfer.Script

structure Contract (Request : Type) (Answer : Request → Type) (Failure Known : Type) where
  can : (request : Request) → Except Failure (Answer request) → Prop
  told : Known → (request : Request) → Except Failure (Answer request) → Known
  may : Known → Request → Prop

section Contracts
variable {Request : Type} {Answer : Request → Type} {Failure Result After Known : Type}
variable (contract : Contract Request Answer Failure Known)

/-- Everything asked may be asked, and `ends` holds at the end; a script that fails has
nothing more to keep to. -/
def Keeps (ends : Known → Result → Prop) :
    Known → Program Request Answer Failure Result → Prop
  | known, .done (.ok result) => ends known result
  | _, .done (.error _) => True
  | known, .ask request next => contract.may known request ∧
      ∀ answer, contract.can request answer →
        Keeps ends (contract.told known request answer) (next answer)

variable {contract} {ends : Known → Result → Prop} {known : Known}

theorem keeps_pure {result : Result} (holds : ends known result) :
    Keeps contract ends known (pure result) := holds

theorem keeps_fail {failure : Failure} : Keeps contract ends known (fail failure) := trivial

/-- The rest keeps to it from wherever the first part ends. -/
theorem keeps_bind {last : Known → After → Prop}
    {script : Program Request Answer Failure Result}
    {next : Result → Program Request Answer Failure After}
    (first : Keeps contract ends known script)
    (rest : ∀ known result, ends known result → Keeps contract last known (next result)) :
    Keeps contract last known (script >>= next) := by
  change Keeps contract last known (andThen script next)
  induction script generalizing known with
  | done result =>
      cases result with
      | ok value => exact rest known value first
      | error failure => trivial
  | ask request continue' ih =>
      obtain ⟨may, goesOn⟩ := first
      exact ⟨may, fun answer can => ih answer (goesOn answer can)⟩

/-- One request: what is done with each answer it can have. -/
theorem keeps_perform {request : Request}
    {next : Answer request → Program Request Answer Failure Result}
    (may : contract.may known request)
    (rest : ∀ answer, contract.can request (.ok answer) →
      Keeps contract ends (contract.told known request (.ok answer)) (next answer)) :
    Keeps contract ends known (perform request >>= next) := by
  refine ⟨may, fun answer can => ?_⟩
  cases answer with
  | ok value => exact rest value can
  | error failure => trivial

/-- A request whose failure is looked at like an answer. -/
theorem keeps_noted {request : Request}
    {next : Except Failure (Answer request) → Program Request Answer Failure Result}
    (may : contract.may known request)
    (rest : ∀ answer, contract.can request answer →
      Keeps contract ends (contract.told known request answer) (next answer)) :
    Keeps contract ends known (attempt (perform request) >>= next) :=
  ⟨may, rest⟩

end Contracts

/-! Any number of scripts on one state. A session has a number, and a kind that says which
script it runs and on whose behalf. -/
section Sessions
variable {State Kind Move Request : Type} {Answer : Request → Type} {Failure Result Known : Type}

structure Setting (State Kind Move Request : Type) (Answer : Request → Type)
    (Failure Result : Type) where
  script : Kind → Program Request Answer Failure Result
  answers : State → Kind → (request : Request) → Except Failure (Answer request) → State → Prop
  moves : State → Move → State → Prop

structure Shared (State Kind Request : Type) (Answer : Request → Type)
    (Failure Result : Type) where
  state : State
  sessions : Nat → Option (Kind × Program Request Answer Failure Result)

inductive Event (Kind Move : Type) where
  | begin (number : Nat) (kind : Kind)
  | reply (number : Nat)
  | close (number : Nat)
  | move (move : Move)

/-- `close` is a session that is never heard of again. -/
inductive Step (setting : Setting State Kind Move Request Answer Failure Result)
    (shared : Shared State Kind Request Answer Failure Result) :
    Event Kind Move → Shared State Kind Request Answer Failure Result → Prop
  | begin (number : Nat) (kind : Kind) (free : shared.sessions number = none) :
      Step setting shared (.begin number kind)
        ⟨shared.state,
          Function.update shared.sessions number (some (kind, setting.script kind))⟩
  | reply (number : Nat) (kind : Kind) (request : Request)
      (next : Except Failure (Answer request) → Program Request Answer Failure Result)
      (answer : Except Failure (Answer request)) (after : State)
      (running : shared.sessions number = some (kind, .ask request next))
      (answered : setting.answers shared.state kind request answer after) :
      Step setting shared (.reply number)
        ⟨after, Function.update shared.sessions number (some (kind, next answer))⟩
  | close (number : Nat) :
      Step setting shared (.close number)
        ⟨shared.state, Function.update shared.sessions number none⟩
  | move (move : Move) (after : State) (moved : setting.moves shared.state move after) :
      Step setting shared (.move move) ⟨after, shared.sessions⟩

def rested (state : State) : Shared State Kind Request Answer Failure Result :=
  ⟨state, fun _ => none⟩

/-- What has to be shown of one script, one answer and one move. A kind of session has its own
contract. `knows` says when what a session was told is so; it must stay so whatever the others
do. -/
structure Upholds (setting : Setting State Kind Move Request Answer Failure Result)
    (contract : Kind → Contract Request Answer Failure Known) (good : State → Prop)
    (knows : State → Known → Prop) (start : Known) (ends : Kind → Known → Result → Prop) :
    Prop where
  begins : ∀ state, knows state start
  keeps : ∀ kind, Keeps (contract kind) (ends kind) start (setting.script kind)
  moves : ∀ state move after, good state → setting.moves state move after →
    good after ∧ ∀ known, knows state known → knows after known
  answers : ∀ state kind request answer after known, good state → knows state known →
    (contract kind).may known request → setting.answers state kind request answer after →
      (contract kind).can request answer ∧ good after ∧
        knows after ((contract kind).told known request answer) ∧
        ∀ other, knows state other → knows after other

variable {setting : Setting State Kind Move Request Answer Failure Result}
  {contract : Kind → Contract Request Answer Failure Known} {good : State → Prop}
  {knows : State → Known → Prop} {start : Known} {ends : Kind → Known → Result → Prop}

/-- The state is good, and every session keeps to its contract from what it rightly knows. -/
structure Sound (contract : Kind → Contract Request Answer Failure Known) (good : State → Prop)
    (knows : State → Known → Prop) (ends : Kind → Known → Result → Prop)
    (shared : Shared State Kind Request Answer Failure Result) : Prop where
  good : good shared.state
  sessions : ∀ number kind left, shared.sessions number = some (kind, left) →
    ∃ known, knows shared.state known ∧ Keeps (contract kind) (ends kind) known left

theorem sound_update {shared : Shared State Kind Request Answer Failure Result}
    (sound : Sound contract good knows ends shared) {after : State} (fine : good after)
    (still : ∀ known, knows shared.state known → knows after known) (number : Nat)
    (session : Option (Kind × Program Request Answer Failure Result))
    (keeps : ∀ kind left, session = some (kind, left) →
      ∃ known, knows after known ∧ Keeps (contract kind) (ends kind) known left) :
    Sound contract good knows ends
      ⟨after, Function.update shared.sessions number session⟩ := by
  refine ⟨fine, ?_⟩
  intro other kind left held
  change Function.update shared.sessions number session other = _ at held
  by_cases own : other = number
  · subst own
    rw [Function.update_self] at held
    exact keeps kind left held
  · rw [Function.update_of_ne own] at held
    obtain ⟨known, so, kept⟩ := sound.sessions other kind left held
    exact ⟨known, still known so, kept⟩

theorem step_sound (upholds : Upholds setting contract good knows start ends)
    {before after : Shared State Kind Request Answer Failure Result} {event : Event Kind Move}
    (sound : Sound contract good knows ends before) (step : Step setting before event after) :
    Sound contract good knows ends after := by
  cases step with
  | begin number kind free =>
      apply sound_update sound sound.good fun _ so => so
      intro begun left held
      obtain ⟨rfl, rfl⟩ := Prod.mk.inj (Option.some.inj held)
      exact ⟨start, upholds.begins _, upholds.keeps kind⟩
  | reply number kind request next answer reached running answered =>
      obtain ⟨known, so, may, goesOn⟩ := sound.sessions number kind _ running
      obtain ⟨can, fine, told, still⟩ :=
        upholds.answers _ _ _ _ _ _ sound.good so may answered
      apply sound_update sound fine still
      intro own left held
      obtain ⟨rfl, rfl⟩ := Prod.mk.inj (Option.some.inj held)
      exact ⟨_, told, goesOn answer can⟩
  | close number => exact sound_update sound sound.good (fun _ so => so) number none nofun
  | move move reached moved =>
      obtain ⟨fine, still⟩ := upholds.moves _ _ _ sound.good moved
      refine ⟨fine, ?_⟩
      intro number kind left held
      obtain ⟨known, so, kept⟩ := sound.sessions number kind left held
      exact ⟨known, still known so, kept⟩

/-- In every run the state is good, and a session that came to its end ended as it should. -/
theorem reachable_upheld (upholds : Upholds setting contract good knows start ends) {state : State}
    (fine : good state) {shared : Shared State Kind Request Answer Failure Result}
    (reached : Interleaving.Reachable (Step setting) (fun _ _ => True) (rested state) shared) :
    good shared.state ∧ ∀ number kind result,
      shared.sessions number = some (kind, .done (.ok result)) →
        ∃ known, knows shared.state known ∧ ends kind known result := by
  have begun : Sound contract good knows ends
      (rested state : Shared State Kind Request Answer Failure Result) := by
    refine ⟨fine, ?_⟩
    intro number kind left held
    cases held
  have sound := Interleaving.reachable_invariant begun
    (fun _ _ _ sound _ step => step_sound upholds sound step) reached
  refine ⟨sound.good, ?_⟩
  intro number kind result ended
  exact sound.sessions number kind _ ended

/-- The first part of a script comes to its end while all else rests, if whoever it asks
answers as in a run of its own and stays as it is. -/
theorem script_goes_on {Value Aside : Type}
    {serve : (request : Request) → Aside → Except Failure (Answer request) × Aside}
    {flow : Program Request Answer Failure Value} {value : Value} {aside reached : Aside}
    (ended : run serve flow aside = (.ok value, reached)) {state : State} {kind : Kind}
    (answered : ∀ request ∈ trace serve flow aside, ∀ aside,
      setting.answers state kind request (serve request aside).1 state)
    (rest : Value → Program Request Answer Failure Result) (number : Nat)
    (sessions : Nat → Option (Kind × Program Request Answer Failure Result)) :
    Interleaving.Reachable (Step setting) (fun _ _ => True)
      ⟨state, Function.update sessions number (some (kind, flow >>= rest))⟩
      ⟨state, Function.update sessions number (some (kind, rest value))⟩ := by
  induction flow generalizing aside with
  | done result =>
      cases result with
      | error failure => cases ended
      | ok held =>
          obtain rfl : held = value := by
            simp only [run, Prod.mk.injEq, Except.ok.injEq] at ended
            exact ended.1
          exact .start
  | ask request next ih =>
      have later := ih (serve request aside).1 ended fun other asked =>
        answered other (List.mem_cons_of_mem _ asked)
      let waiting : Shared State Kind Request Answer Failure Result :=
        ⟨state, Function.update sessions number (some (kind, .ask request next >>= rest))⟩
      have step : Step setting waiting (.reply number) _ :=
        Step.reply number kind request _ _ _ (Function.update_self ..)
          (answered request List.mem_cons_self aside)
      rw [Function.update_idem] at step
      exact Interleaving.reachable_trans (Interleaving.Reachable.start.next trivial step) later

end Sessions

end PrivateTransfer.Script
