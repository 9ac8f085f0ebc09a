import Mathlib.Data.List.Induction
import Mathlib.Tactic.Ring

/-!
Byte strings read as big-endian numbers. A string of fixed length is a number
below a power of 256 and is determined by it; comparing two strings of one
length byte by byte compares the numbers. Nothing here knows which field or
program the bytes belong to.
-/

namespace PrivateTransfer.BigEndian

def value (bytes : List UInt8) : Nat :=
  bytes.foldl (fun total byte => total * 256 + byte.toNat) 0

/-- The `n` low bytes of a number, most significant byte first. -/
def digits : Nat → Nat → List UInt8
  | 0, _ => []
  | n + 1, number => digits n (number / 256) ++ [UInt8.ofNat number]

@[simp] theorem value_nil : value [] = 0 := rfl

@[simp] theorem value_append_singleton (bytes : List UInt8) (byte : UInt8) :
    value (bytes ++ [byte]) = value bytes * 256 + byte.toNat := by
  simp [value, List.foldl_append]

theorem value_append (front back : List UInt8) :
    value (front ++ back) = value front * 256 ^ back.length + value back := by
  induction back using List.reverseRecOn with
  | nil => simp
  | append_singleton back byte ih =>
      rw [← List.append_assoc, value_append_singleton, ih, value_append_singleton,
        List.length_append, List.length_singleton, pow_succ]
      ring

@[simp] theorem value_cons (byte : UInt8) (bytes : List UInt8) :
    value (byte :: bytes) = byte.toNat * 256 ^ bytes.length + value bytes := by
  have split := value_append [byte] bytes
  simpa [value] using split

theorem value_lt (bytes : List UInt8) : value bytes < 256 ^ bytes.length := by
  induction bytes with
  | nil => simp
  | cons byte bytes ih =>
      have small : byte.toNat + 1 ≤ 256 := byte.toNat_lt
      have room := Nat.mul_le_mul_right (256 ^ bytes.length) small
      rw [value_cons, List.length_cons, pow_succ, Nat.mul_comm (256 ^ bytes.length) 256]
      rw [Nat.add_mul, Nat.one_mul] at room
      omega

@[simp] theorem value_replicate_zero (n : Nat) : value (List.replicate n 0) = 0 := by
  induction n with
  | zero => rfl
  | succ n ih => simp [List.replicate_succ, ih]

@[simp] theorem digits_length (n number : Nat) : (digits n number).length = n := by
  induction n generalizing number with
  | zero => rfl
  | succ n ih => simp [digits, ih]

@[simp] theorem value_digits (n number : Nat) :
    value (digits n number) = number % 256 ^ n := by
  induction n generalizing number with
  | zero => simp [digits, Nat.mod_one]
  | succ n ih =>
      have low : (UInt8.ofNat number).toNat = number % 256 := by simp
      rw [digits, value_append_singleton, ih, low, pow_succ', Nat.mod_mul]
      ring

/-- Two strings of one length that denote one number are one string. -/
theorem value_injective {left right : List UInt8} (sameLength : left.length = right.length)
    (sameValue : value left = value right) : left = right := by
  induction left generalizing right with
  | nil => exact (List.length_eq_zero_iff.mp sameLength.symm).symm
  | cons x xs ih =>
      cases right with
      | nil => simp at sameLength
      | cons y ys =>
          have tailLength : xs.length = ys.length := by simpa using sameLength
          rw [value_cons, value_cons, tailLength] at sameValue
          have xsBound := value_lt xs
          have ysBound := value_lt ys
          rw [tailLength] at xsBound
          -- The two tails are remainders of one number, so the heads are its quotients.
          have heads : x.toNat = y.toNat := by
            have quotient := congrArg (· / 256 ^ ys.length) sameValue
            simpa [Nat.mul_comm, Nat.mul_add_div (Nat.pow_pos (by decide : 0 < 256)),
              Nat.div_eq_of_lt xsBound, Nat.div_eq_of_lt ysBound] using quotient
          have tails : value xs = value ys := by
            rw [heads] at sameValue
            omega
          rw [UInt8.toNat_inj.mp heads, ih tailLength tails]

/-- Byte-wise lexicographic order on strings of one length is the order of the numbers. -/
theorem lt_iff_value_lt {left right : List UInt8} (sameLength : left.length = right.length) :
    left < right ↔ value left < value right := by
  induction left generalizing right with
  | nil =>
      have empty : right = [] := List.length_eq_zero_iff.mp sameLength.symm
      simp [empty]
  | cons x xs ih =>
      cases right with
      | nil => simp at sameLength
      | cons y ys =>
          have tailLength : xs.length = ys.length := by simpa using sameLength
          have xsBound := value_lt xs
          have ysBound := value_lt ys
          rw [List.cons_lt_cons_iff, ih tailLength, value_cons, value_cons, tailLength,
            UInt8.lt_iff_toNat_lt, ← UInt8.toNat_inj]
          rw [tailLength] at xsBound
          generalize 256 ^ ys.length = base at xsBound ysBound ⊢
          rcases Nat.lt_trichotomy x.toNat y.toNat with less | same | more
          · have room := Nat.mul_le_mul_right base (Nat.succ_le_of_lt less)
            rw [Nat.succ_mul] at room
            omega
          · rw [same]
            omega
          · have room := Nat.mul_le_mul_right base (Nat.succ_le_of_lt more)
            rw [Nat.succ_mul] at room
            omega

end PrivateTransfer.BigEndian
