import Mathlib.Data.List.Basic
import Mathlib.Data.Nat.ModEq

/-!
A fixed array used as a window over an append-only history. The entry appended
at history position `t` is written to slot `(t + 1) % size`, so a buffer that
starts full of one filler and whose first write goes to slot one is covered too.
The slots then hold exactly the last `size` entries, in whatever rotation.
-/

namespace PrivateTransfer.RingBuffer

variable {Entry : Type} {size : Nat}

structure Holds (slots : Vector Entry size) (history : List Entry) : Prop where
  filled : size ≤ history.length
  recent : ∀ (t : Nat) (inside : t < history.length), history.length ≤ t + size →
    slots[(t + 1) % size]? = some history[t]

theorem holds_fill (filler : Entry) :
    Holds (Vector.replicate size filler) (List.replicate size filler) where
  filled := by simp
  recent := by
    intro t inside _
    have wraps : (t + 1) % size < size := Nat.mod_lt _ (by simp at inside; omega)
    simp [wraps]

/-- Two positions less than `size` apart never share a slot. -/
theorem slots_apart {t newest : Nat} (old : t < newest) (recent : newest < t + size) :
    t % size ≠ newest % size := by
  intro same
  have apart : (newest - t) % size = 0 := Nat.sub_mod_eq_zero_of_mod_eq same.symm
  rw [Nat.mod_eq_of_lt (by omega)] at apart
  omega

theorem holds_push {slots : Vector Entry size} {history : List Entry} (positive : 0 < size)
    (held : Holds slots history) (entry : Entry) :
    Holds (slots.set ((history.length + 1) % size) entry (Nat.mod_lt _ positive))
      (history ++ [entry]) where
  filled := by
    have filled := held.filled
    rw [List.length_append]
    omega
  recent := by
    intro t inside near
    rw [List.length_append, List.length_singleton] at inside near
    by_cases newest : t = history.length
    · -- the slot just written
      subst newest
      simp [Nat.mod_lt _ positive]
    · -- still within the window, so in another slot
      have old : t < history.length := by omega
      have kept := held.recent t old (by omega)
      have apart : (t + 1) % size ≠ (history.length + 1) % size :=
        slots_apart (by omega) (by omega)
      rw [Vector.getElem?_set_ne _ (Ne.symm apart), kept, List.getElem_append_left old]

/-- Every slot is the slot of one of any `size` consecutive positions. -/
theorem slot_reached (start : Nat) {slot : Nat} (inside : slot < size) :
    ∃ t, start ≤ t ∧ t < start + size ∧ (t + 1) % size = slot := by
  have positive : 0 < size := Nat.lt_of_le_of_lt (Nat.zero_le _) inside
  refine ⟨start + (slot + (size - (start + 1) % size)) % size, Nat.le_add_right _ _,
    Nat.add_lt_add_left (Nat.mod_lt _ positive) _, ?_⟩
  have small : (start + 1) % size < size := Nat.mod_lt _ positive
  have split := Nat.div_add_mod (start + 1) size
  have total : start + 1 + (slot + (size - (start + 1) % size)) =
      slot + size * ((start + 1) / size + 1) := by
    rw [Nat.mul_add, Nat.mul_one]
    omega
  calc (start + (slot + (size - (start + 1) % size)) % size + 1) % size
      = (start + 1 + (slot + (size - (start + 1) % size))) % size := by
        rw [Nat.add_right_comm, Nat.add_mod_mod]
    _ = slot := by rw [total, Nat.add_mul_mod_self_left, Nat.mod_eq_of_lt inside]

variable {slots : Vector Entry size} {history : List Entry}

theorem holds_newest (positive : 0 < size) (held : Holds slots history) (nonempty : history ≠ []) :
    slots[history.length % size]? = some (history.getLast nonempty) := by
  have some_entry : 0 < history.length := List.length_pos_iff.mpr nonempty
  have last := held.recent (history.length - 1) (by omega) (by omega)
  rwa [Nat.sub_add_cancel some_entry, ← List.getLast_eq_getElem nonempty] at last

/-- The buffer contains an entry exactly when it is among the last `size` of the history. -/
theorem holds_mem_iff (held : Holds slots history) (entry : Entry) :
    entry ∈ slots ↔ entry ∈ history.drop (history.length - size) := by
  have filled := held.filled
  constructor
  · intro member
    obtain ⟨slot, inside, rfl⟩ := Vector.getElem_of_mem member
    obtain ⟨t, low, high, reached⟩ := slot_reached (history.length - size) inside
    have stored := held.recent t (by omega) (by omega)
    rw [reached, Vector.getElem?_eq_getElem inside, Option.some.injEq] at stored
    have offset : history.length - size + (t - (history.length - size)) = t := by omega
    rw [stored, List.mem_drop_iff_getElem]
    exact ⟨t - (history.length - size), by omega, by simp only [offset]⟩
  · intro member
    obtain ⟨k, inside, rfl⟩ := List.mem_drop_iff_getElem.mp member
    exact Vector.mem_of_getElem? (held.recent _ (by omega) (by omega))

end PrivateTransfer.RingBuffer
