import Mathlib.Logic.Function.Basic

/-!
Several parties whose steps come in any order. `Reachable` collects what steps
lead to that were allowed in the state before them. A shared slot is a place that
each party overwrites and later reads back: `Holds` says that whoever still has to
read finds what it wrote.
-/

namespace PrivateTransfer.Interleaving

section Steps
variable {State Action : Type}

inductive Reachable (step : State → Action → State → Prop) (allowed : State → Action → Prop)
    (initial : State) : State → Prop
  | start : Reachable step allowed initial initial
  | next {before after : State} {action : Action}
      (earlier : Reachable step allowed initial before) (permitted : allowed before action)
      (taken : step before action after) : Reachable step allowed initial after

variable {step : State → Action → State → Prop} {allowed : State → Action → Prop}
  {initial state : State}

theorem reachable_invariant {Good : State → Prop} (initially : Good initial)
    (kept : ∀ before action after, Good before → allowed before action →
      step before action after → Good after)
    (reached : Reachable step allowed initial state) : Good state := by
  induction reached with
  | start => exact initially
  | next earlier permitted taken ih => exact kept _ _ _ ih permitted taken

theorem reachable_trans {middle : State} (first : Reachable step allowed initial middle)
    (second : Reachable step allowed middle state) : Reachable step allowed initial state := by
  induction second with
  | start => exact first
  | next earlier permitted taken ih => exact ih.next permitted taken

theorem reachable_mono {permitted : State → Action → Prop}
    (weaker : ∀ before action, allowed before action → permitted before action)
    (reached : Reachable step allowed initial state) : Reachable step permitted initial state := by
  induction reached with
  | start => exact .start
  | next earlier permit taken ih => exact ih.next (weaker _ _ permit) taken

end Steps

section Slots
variable {Party State Content : Type} [DecidableEq Party]

/-- `awaited` says what a party in some state still has to read. -/
def Holds (slot : Option Content) (awaited : State → Option Content) (states : Party → State) :
    Prop :=
  ∀ party content, awaited (states party) = some content → slot = some content

variable {slot : Option Content} {awaited : State → Option Content} {states : Party → State}
  {party : Party} {state : State}

/-- A party that awaits nothing new leaves the slot to the others. -/
theorem holds_update (held : Holds slot awaited states)
    (own : ∀ content, awaited state = some content → awaited (states party) = some content) :
    Holds slot awaited (Function.update states party state) := by
  refine (Function.forall_update_iff _ fun _ state => ∀ content, awaited state = some content →
    slot = some content).mpr ⟨?_, fun other _ => held other⟩
  intro content waiting
  exact held party content (own content waiting)

/-- Whoever overwrites a slot finds its own; so do those who wrote the same. -/
theorem holds_write {content : Content} (own : awaited state = some content)
    (alone : ∀ other, other ≠ party → ∀ left, awaited (states other) = some left →
      left = content) :
    Holds (some content) awaited (Function.update states party state) := by
  refine (Function.forall_update_iff _ fun _ state => ∀ left, awaited state = some left →
    some content = some left).mpr ⟨fun left waiting => own.symm.trans waiting, ?_⟩
  intro other apart left waiting
  rw [alone other apart left waiting]

end Slots

end PrivateTransfer.Interleaving
