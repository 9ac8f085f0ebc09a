import Mathlib.Data.Fin.Basic
import PrivateTransfer.BigEndian

/-!
The scalar field of BN254 as the program, the circuits and the client meet it:
32-byte big-endian strings on one side, residues modulo `bn254Modulus` on the
other. Reading bytes as a field element forgets which multiple of the modulus
was added, so `fieldOf` is not injective on strings; `bytesOf` is the section
that picks the canonical string.
-/

namespace PrivateTransfer

abbrev Bytes32 := Vector UInt8 32

/-- A Solana address is 32 bytes. -/
abbrev Pubkey := Bytes32

def bn254Modulus : Nat :=
  21888242871839275222246405745257275088548364400416034343698204186575808495617

instance : NeZero bn254Modulus := ⟨by decide⟩

abbrev Field := Fin bn254Modulus

namespace Bytes32

def value (bytes : Bytes32) : Nat := BigEndian.value bytes.toList

/-- The 32 low bytes of a number, big-endian. -/
def ofNat (number : Nat) : Bytes32 := ⟨(BigEndian.digits 32 number).toArray, by simp⟩

def zero : Bytes32 := Vector.replicate 32 0

theorem value_lt (bytes : Bytes32) : bytes.value < 2 ^ 256 := by
  have bound := BigEndian.value_lt bytes.toList
  rw [Vector.length_toList] at bound
  exact bound

theorem value_injective {left right : Bytes32} (same : left.value = right.value) :
    left = right :=
  Vector.toList_inj.mp (BigEndian.value_injective (by simp) same)

@[simp] theorem toList_ofNat (number : Nat) :
    (ofNat number).toList = BigEndian.digits 32 number := by
  simp [ofNat, Vector.toList]

@[simp] theorem value_ofNat (number : Nat) : (ofNat number).value = number % 2 ^ 256 := by
  rw [value, toList_ofNat, BigEndian.value_digits]
  rfl

/-- Rust compares byte arrays lexicographically, which is how their values compare. -/
theorem toList_lt_iff (left right : Bytes32) :
    left.toList < right.toList ↔ left.value < right.value :=
  BigEndian.lt_iff_value_lt (by simp)

end Bytes32

/-- A big-endian string read as a residue. -/
def fieldOf (bytes : Bytes32) : Field := Fin.ofNat bn254Modulus bytes.value

def bytesOf (element : Field) : Bytes32 := Bytes32.ofNat element.val

@[simp] theorem fieldOf_val (bytes : Bytes32) :
    (fieldOf bytes).val = bytes.value % bn254Modulus := rfl

theorem fieldOf_eq_iff (left right : Bytes32) :
    fieldOf left = fieldOf right ↔ left.value % bn254Modulus = right.value % bn254Modulus := by
  rw [Fin.ext_iff, fieldOf_val, fieldOf_val]

def Canonical (bytes : Bytes32) : Prop := bytes.value < bn254Modulus

instance (bytes : Bytes32) : Decidable (Canonical bytes) :=
  inferInstanceAs (Decidable (bytes.value < bn254Modulus))

/-- Among canonical strings a field element has one spelling. -/
theorem canonical_injective {left right : Bytes32} (leftCanonical : Canonical left)
    (rightCanonical : Canonical right) (same : fieldOf left = fieldOf right) : left = right := by
  rw [fieldOf_eq_iff, Nat.mod_eq_of_lt leftCanonical, Nat.mod_eq_of_lt rightCanonical] at same
  exact Bytes32.value_injective same

theorem field_lt_word (element : Field) : element.val < 2 ^ 256 :=
  Nat.lt_trans element.isLt (by decide)

@[simp] theorem fieldOf_bytesOf (element : Field) : fieldOf (bytesOf element) = element := by
  apply Fin.ext
  rw [fieldOf_val, bytesOf, Bytes32.value_ofNat, Nat.mod_eq_of_lt (field_lt_word element),
    Nat.mod_eq_of_lt element.isLt]

theorem bytes_of_canonical (element : Field) : Canonical (bytesOf element) := by
  rw [Canonical, bytesOf, Bytes32.value_ofNat, Nat.mod_eq_of_lt (field_lt_word element)]
  exact element.isLt

end PrivateTransfer
