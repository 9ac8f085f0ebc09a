import Mathlib.Logic.Function.Basic

/-!
One map whose keys have owners. An access is local to some keys when it depends on
nothing else and changes nothing else. If every access is local to the keys of its
owner, an owner is answered as if the others did nothing.
-/

namespace PrivateTransfer.Keyspace

variable {Key Value Access Owner : Type} {Answer : Access → Type}

def Agree (keys : Key → Prop) (left right : Key → Value) : Prop :=
  ∀ key, keys key → left key = right key

theorem agree_trans {keys : Key → Prop} {first second third : Key → Value}
    (front : Agree keys first second) (back : Agree keys second third) :
    Agree keys first third :=
  fun key own => (front key own).trans (back key own)

section Runs
variable (serve : (access : Access) → (Key → Value) → Answer access × (Key → Value))

structure Local (keys : Key → Prop) (access : Access) : Prop where
  answer : ∀ left right, Agree keys left right → (serve access left).1 = (serve access right).1
  writes : ∀ left right, Agree keys left right →
    Agree keys (serve access left).2 (serve access right).2
  frame : ∀ state key, ¬ keys key → (serve access state).2 key = state key

end Runs

section Answers
variable {State : Type} (serve : (access : Access) → State → Answer access × State)

/-- A list of accesses with what each of them is answered. -/
def answers : List Access → State → List ((access : Access) × Answer access)
  | [], _ => []
  | access :: rest, state =>
      ⟨access, (serve access state).1⟩ :: answers rest (serve access state).2

/-- What the accesses leave behind. -/
def after : List Access → State → State
  | [], state => state
  | access :: rest, state => after rest (serve access state).2

/-- Two services that stay related while there are accesses left give the same answers. -/
theorem answers_related {Other : Type} {other : (access : Access) → Other → Answer access × Other}
    {Related : Nat → State → Other → Prop} {Allowed : Access → Prop}
    (step : ∀ left access state abstract, Allowed access → Related (left + 1) state abstract →
      (serve access state).1 = (other access abstract).1 ∧
        Related left (serve access state).2 (other access abstract).2)
    {accesses : List Access} (allowed : ∀ access ∈ accesses, Allowed access) {state : State}
    {abstract : Other} (related : Related accesses.length state abstract) :
    answers serve accesses state = answers other accesses abstract ∧
      Related 0 (after serve accesses state) (after other accesses abstract) := by
  induction accesses generalizing state abstract with
  | nil => exact ⟨rfl, related⟩
  | cons access rest ih =>
      obtain ⟨same, next⟩ := step rest.length access state abstract
        (allowed access List.mem_cons_self) related
      obtain ⟨answered, left⟩ :=
        ih (fun later member => allowed later (List.mem_cons_of_mem _ member)) next
      refine ⟨?_, left⟩
      rw [answers, answers, same, answered]

end Answers

section Owners
variable [DecidableEq Owner]
  {serve : (access : Access) → (Key → Value) → Answer access × (Key → Value)}
  {owner : Access → Owner} {keys : Owner → Key → Prop}

/-- The accesses of one owner among all, and the answers to them. -/
def own (owner : Access → Owner) (mine : Owner) (accesses : List Access) : List Access :=
  accesses.filter fun access => owner access = mine

theorem answers_own (apart : ∀ mine other key, keys mine key → keys other key → mine = other)
    (access_local : ∀ access, Local serve (keys (owner access)) access) (mine : Owner)
    (accesses : List Access) {state alone : Key → Value} (agree : Agree (keys mine) state alone) :
    (answers serve accesses state).filter (fun answered => owner answered.1 = mine) =
        answers serve (own owner mine accesses) alone ∧
      Agree (keys mine) (after serve accesses state)
        (after serve (own owner mine accesses) alone) := by
  induction accesses generalizing state alone with
  | nil => exact ⟨rfl, agree⟩
  | cons access rest ih =>
      by_cases same : owner access = mine
      · have here := access_local access
        rw [same] at here
        obtain ⟨answered, left⟩ := ih (here.writes _ _ agree)
        rw [own, List.filter_cons_of_pos (by simpa using same), answers, answers,
          List.filter_cons_of_pos (by simpa using same), here.answer _ _ agree, answered]
        exact ⟨rfl, left⟩
      · -- what another owner writes is none of these keys
        have kept : Agree (keys mine) (serve access state).2 state := fun key mineKey =>
          (access_local access).frame state key fun others => same (apart _ _ key others mineKey)
        rw [own, List.filter_cons_of_neg (by simpa using same), answers,
          List.filter_cons_of_neg (by simpa using same)]
        exact ih (agree_trans kept agree)

end Owners

end PrivateTransfer.Keyspace
