import Mathlib.Tactic.Linarith
import Mathlib.Tactic.LinearCombination
import PrivateTransfer.Field

/-!
`programs/ptrans/src/instructions.rs`: the bytes the program hands to the
verifier. `sub256` and `reduceToField` follow the Rust loops byte by byte; the
theorems read them back as numbers. The array called `BN254_FR_MODULUS` there
spells the base field modulus of the curve, not the scalar field modulus its
comment announces, so the reduction is stated against its own value.
-/

namespace PrivateTransfer.PublicInputs

def nrPublicInputs : Nat := 4

/-- `BN254_FR_MODULUS`, big-endian. -/
def bn254FrModulus : Bytes32 :=
  #v[0x30, 0x64, 0x4e, 0x72, 0xe1, 0x31, 0xa0, 0x29, 0xb8, 0x50, 0x45, 0xb6, 0x81, 0x81, 0x58, 0x5d,
     0x97, 0x81, 0x6a, 0x91, 0x68, 0x71, 0xca, 0x8d, 0x3c, 0x20, 0x8c, 0x16, 0xd8, 0x7c, 0xfd, 0x47]

/-- `as u8`: the cast keeps the low eight bits. -/
def asU8 (number : Int) : UInt8 := UInt8.ofNat (number % 256).toNat

/-- The body of `for i in (0..32).rev()`, from index `i - 1` down. The `i16`
arithmetic stays within -256..255, so it is exact over `Int`. -/
def sub256Loop (a b : Bytes32) : (i : Nat) → i ≤ 32 → Bytes32 → Int → Bytes32
  | 0, _, result, _ => result
  | i + 1, inside, result, borrow =>
      let diff := (a[i].toNat : Int) - b[i].toNat - borrow
      if diff < 0 then
        sub256Loop a b i (by omega) (result.set i (asU8 (diff + 256))) 1
      else
        sub256Loop a b i (by omega) (result.set i (asU8 diff)) 0

def sub256 (a b : Bytes32) : Bytes32 := sub256Loop a b 32 (by omega) Bytes32.zero 0

/-- `for _ in 0..n { if result < MODULUS { break } result = sub_256(..) }`. -/
def reduceLoop : Nat → Bytes32 → Bytes32
  | 0, result => result
  | n + 1, result =>
      if result.toList < bn254FrModulus.toList then result
      else reduceLoop n (sub256 result bn254FrModulus)

def reduceToField (bytes : Bytes32) : Bytes32 :=
  if bytes.toList < bn254FrModulus.toList then bytes else reduceLoop 4 bytes

/-- Gnark witness format: 12-byte header, then four 32-byte public inputs. -/
def encodePublicInputs (root nullifierHash : Bytes32) (recipient : Pubkey) (amount : UInt64) :
    List UInt8 :=
  BigEndian.digits 4 nrPublicInputs ++ BigEndian.digits 4 0 ++ BigEndian.digits 4 nrPublicInputs ++
    root.toList ++ nullifierHash.toList ++ (reduceToField recipient).toList ++
    (List.replicate 24 0 ++ BigEndian.digits 8 amount.toNat)

/-- The number `bn254FrModulus` spells. -/
def programModulus : Nat :=
  21888242871839275222246405745257275088696311157297823662689037894645226208583

theorem modulus_value : bn254FrModulus.value = programModulus := by decide

theorem modulus_exceeds : bn254Modulus < programModulus := by decide

/-! Subtraction with a borrow. Below index `i` the result is untouched; from `i`
up it is the difference of the two tails, up to a borrow worth one unit of the
next byte. -/
section Subtraction

def tailValue (bytes : Bytes32) (i : Nat) : Nat := BigEndian.value (bytes.toList.drop i)

theorem tail_value_step (bytes : Bytes32) {i : Nat} (inside : i < 32) :
    tailValue bytes i = bytes[i].toNat * 256 ^ (31 - i) + tailValue bytes (i + 1) := by
  have short : i < bytes.toList.length := by simpa using inside
  rw [tailValue, List.drop_eq_getElem_cons short, BigEndian.value_cons, List.length_drop,
    Vector.length_toList, Vector.getElem_toList, tailValue]
  congr 3
  omega

theorem tail_value_set (bytes : Bytes32) {i : Nat} (inside : i < 32) (byte : UInt8) :
    tailValue (bytes.set i byte) (i + 1) = tailValue bytes (i + 1) := by
  simp [tailValue, Vector.toList_set, List.drop_set]

theorem asU8_exact (number : Int) (low : 0 ≤ number) (high : number < 256) :
    ((asU8 number).toNat : Int) = number := by
  rw [asU8, UInt8.toNat_ofNat', Int.emod_eq_of_lt low high, Int.natCast_emod,
    Int.toNat_of_nonneg low]
  exact Int.emod_eq_of_lt low high

/-- One byte of the difference. A borrow taken adds 256 here and costs one unit of the byte
above, which is what `taken` counts. -/
theorem tail_value_difference {a b result : Bytes32} {i : Nat} (inside : i < 32)
    {borrow taken : Int} {byte : UInt8}
    (difference : (byte.toNat : Int) = (a[i].toNat : Int) - b[i].toNat - borrow + 256 * taken)
    (tail : (tailValue result (i + 1) : Int) + tailValue b (i + 1) =
      tailValue a (i + 1) + borrow * 256 ^ (31 - i)) :
    (tailValue (result.set i byte) i : Int) + tailValue b i =
      tailValue a i + taken * 256 ^ (32 - i) := by
  have width : (256 : Int) ^ (32 - i) = 256 * 256 ^ (31 - i) := by
    rw [← pow_succ']
    congr 1
    omega
  rw [tail_value_step _ inside, tail_value_step a inside, tail_value_step b inside,
    tail_value_set _ inside, Vector.getElem_set_self, width]
  push_cast
  rw [difference]
  linear_combination tail

theorem sub_loop_value (a b : Bytes32) (i : Nat) (inside : i ≤ 32) (result : Bytes32) (borrow : Int)
    (digit : borrow = 0 ∨ borrow = 1)
    (tail : (tailValue result i : Int) + tailValue b i =
      tailValue a i + borrow * 256 ^ (32 - i)) :
    ∃ final : Int, (final = 0 ∨ final = 1) ∧
      ((sub256Loop a b i inside result borrow).value : Int) + b.value =
        a.value + final * 2 ^ 256 := by
  induction i generalizing result borrow with
  | zero => exact ⟨borrow, digit, by simpa [sub256Loop, tailValue, Bytes32.value] using tail⟩
  | succ i ih =>
      have small : i < 32 := inside
      have above : 32 - (i + 1) = 31 - i := by omega
      rw [above] at tail
      have aByte := a[i].toNat_lt
      have bByte := b[i].toNat_lt
      have digitBound : 0 ≤ borrow ∧ borrow ≤ 1 := by omega
      rw [sub256Loop]
      split
      · rename_i negative
        have byte := asU8_exact ((a[i].toNat : Int) - b[i].toNat - borrow + 256)
          (by omega) (by omega)
        refine ih _ _ _ (Or.inr rfl) (tail_value_difference small ?_ tail)
        rw [byte, mul_one]
      · rename_i nonneg
        have byte := asU8_exact ((a[i].toNat : Int) - b[i].toNat - borrow)
          (by omega) (by omega)
        refine ih _ _ _ (Or.inl rfl) (tail_value_difference small ?_ tail)
        rw [byte, mul_zero, add_zero]

theorem tail_value_end (bytes : Bytes32) : tailValue bytes 32 = 0 := by
  rw [tailValue, List.drop_of_length_le (by simp), BigEndian.value_nil]

/-- `sub256` is subtraction modulo `2 ^ 256`. -/
theorem sub256_value_mod (a b : Bytes32) :
    (sub256 a b).value = (a.value + (2 ^ 256 - b.value)) % 2 ^ 256 := by
  obtain ⟨final, digit, total⟩ := sub_loop_value a b 32 (by omega) Bytes32.zero 0 (Or.inl rfl)
    (by simp [tail_value_end])
  have aBound := a.value_lt
  have bBound := b.value_lt
  have bound := (sub256 a b).value_lt
  rw [sub256] at bound ⊢
  rcases digit with rfl | rfl <;> omega

/-- Where nothing has to be borrowed at the top, it is subtraction. -/
theorem sub256_value {a b : Bytes32} (ordered : b.value ≤ a.value) :
    (sub256 a b).value = a.value - b.value := by
  have aBound := a.value_lt
  rw [sub256_value_mod]
  omega

end Subtraction

/-! The loop of `reduceToField` subtracts at most its count of moduli. -/
section Reduction

theorem below_modulus_iff (bytes : Bytes32) :
    bytes.toList < bn254FrModulus.toList ↔ bytes.value < programModulus := by
  rw [Bytes32.toList_lt_iff, modulus_value]

theorem reduce_loop_value (n : Nat) (bytes : Bytes32) :
    (reduceLoop n bytes).value =
      if bytes.value < (n + 1) * programModulus then bytes.value % programModulus
      else bytes.value - n * programModulus := by
  induction n generalizing bytes with
  | zero =>
      rw [reduceLoop]
      split
      · rename_i small
        rw [Nat.mod_eq_of_lt (by simpa using small)]
      · simp
  | succ n ih =>
      rw [reduceLoop]
      by_cases small : bytes.value < programModulus
      · have fits : bytes.value < (n + 1 + 1) * programModulus := by
          linarith [Nat.zero_le (n * programModulus)]
        rw [if_pos ((below_modulus_iff bytes).mpr small), if_pos fits, Nat.mod_eq_of_lt small]
      · have large : programModulus ≤ bytes.value := Nat.le_of_not_lt small
        have subtracted : (sub256 bytes bn254FrModulus).value = bytes.value - programModulus := by
          rw [sub256_value (by rwa [modulus_value]), modulus_value]
        rw [if_neg (mt (below_modulus_iff bytes).mp small), ih, subtracted,
          ← Nat.mod_eq_sub_mod large]
        have shift : bytes.value - programModulus < (n + 1) * programModulus ↔
            bytes.value < (n + 1 + 1) * programModulus := by
          rw [Nat.add_mul (n + 1)]
          omega
        simp only [shift]
        split
        · rfl
        · rw [Nat.add_mul, Nat.one_mul]
          omega

/-- Four subtractions reduce everything below five moduli and nothing above. -/
theorem reduce_value (bytes : Bytes32) :
    (reduceToField bytes).value =
      if bytes.value < 5 * programModulus then bytes.value % programModulus
      else bytes.value - 4 * programModulus := by
  rw [reduceToField]
  split
  · rename_i small
    have below := (below_modulus_iff bytes).mp small
    rw [if_pos (by omega), Nat.mod_eq_of_lt below]
  · exact reduce_loop_value 4 bytes

end Reduction

/-! What the casts of the loop are given. A digit is the difference of two bytes
less a borrow of at most one, and 256 is added exactly where that is negative. -/
section Digits

/-- The numbers `sub256Loop` casts to `u8`, in the order it casts them. -/
def castNumbers (a b : Bytes32) : (i : Nat) → i ≤ 32 → Int → List Int
  | 0, _, _ => []
  | i + 1, inside, borrow =>
      let diff := (a[i].toNat : Int) - b[i].toNat - borrow
      if diff < 0 then
        (diff + 256) :: castNumbers a b i (by omega) 1
      else
        diff :: castNumbers a b i (by omega) 0

def unsigned (bytes : List UInt8) : List Int := bytes.map fun byte => (byte.toNat : Int)

theorem cast_numbers_bounds (a b : Bytes32) (i : Nat) (inside : i ≤ 32) (borrow : Int)
    (digit : borrow = 0 ∨ borrow = 1) :
    ∀ number ∈ castNumbers a b i inside borrow, 0 ≤ number ∧ number ≤ 255 := by
  induction i generalizing borrow with
  | zero => simp [castNumbers]
  | succ i ih =>
      have aByte := a[i].toNat_lt
      have bByte := b[i].toNat_lt
      rw [castNumbers]
      split
      · intro number member
        rcases List.mem_cons.mp member with rfl | later
        · omega
        · exact ih _ _ (Or.inr rfl) number later
      · intro number member
        rcases List.mem_cons.mp member with rfl | later
        · omega
        · exact ih _ _ (Or.inl rfl) number later

theorem written_from_set (result : Bytes32) {i : Nat} (small : i < 32) {number : Int}
    (low : 0 ≤ number) (high : number < 256) :
    unsigned ((result.set i (asU8 number)).toList.drop i) =
      number :: unsigned (result.toList.drop (i + 1)) := by
  have position : i < (result.set i (asU8 number)).toList.length := by simpa using small
  rw [List.drop_eq_getElem_cons position, Vector.getElem_toList, Vector.getElem_set_self]
  simp [unsigned, asU8_exact number low high, Vector.toList_set, List.drop_set]

/-- Every byte written is the number cast, as a number. -/
theorem sub_loop_written (a b : Bytes32) (i : Nat) (inside : i ≤ 32) (result : Bytes32)
    (borrow : Int) (digit : borrow = 0 ∨ borrow = 1) :
    unsigned (sub256Loop a b i inside result borrow).toList =
      (castNumbers a b i inside borrow).reverse ++ unsigned (result.toList.drop i) := by
  induction i generalizing result borrow with
  | zero => simp [sub256Loop, castNumbers]
  | succ i ih =>
      have aByte := a[i].toNat_lt
      have bByte := b[i].toNat_lt
      rw [sub256Loop, castNumbers]
      split
      · have byte := @written_from_set result i inside
          ((a[i].toNat : Int) - b[i].toNat - borrow + 256) (by omega) (by omega)
        rw [ih _ _ _ (Or.inr rfl), byte]
        simp
      · have byte := @written_from_set result i inside
          ((a[i].toNat : Int) - b[i].toNat - borrow) (by omega) (by omega)
        rw [ih _ _ _ (Or.inl rfl), byte]
        simp

/-- Subtraction on a pair of arrays, with `p` for the number one step of
`reduceToField` is to take away. -/
structure SubtractsExactly (p : Nat) (a b : Bytes32) : Prop where
  difference : ((sub256 a b).value : Int) = ((a.value : Int) - b.value) % 2 ^ 256
  bounds : ∀ number ∈ castNumbers a b 32 (by omega) 0, 0 ≤ number ∧ number ≤ 255
  written : unsigned (sub256 a b).toList = (castNumbers a b 32 (by omega) 0).reverse
  ordered : a.toList < b.toList ↔ a.value < b.value
  step : p ≤ a.value → (reduceLoop 1 a).value = a.value - p

theorem sub256_difference (a b : Bytes32) :
    ((sub256 a b).value : Int) = ((a.value : Int) - b.value) % 2 ^ 256 := by
  have aBound := a.value_lt
  have bBound := b.value_lt
  rw [sub256_value_mod]
  omega

theorem sub256_written (a b : Bytes32) :
    unsigned (sub256 a b).toList = (castNumbers a b 32 (by omega) 0).reverse := by
  rw [sub256, sub_loop_written a b 32 (by omega) Bytes32.zero 0 (Or.inl rfl)]
  simp [unsigned]

/-- One step takes away the number the constant spells. -/
theorem reduce_step_value {a : Bytes32} (large : programModulus ≤ a.value) :
    (reduceLoop 1 a).value = a.value - programModulus := by
  rw [reduceLoop, if_neg (mt (below_modulus_iff a).mp (Nat.not_lt.mpr large)), reduceLoop,
    sub256_value (by rwa [modulus_value]), modulus_value]

theorem reduce_step_below {a : Bytes32} (small : a.value < programModulus) :
    (reduceLoop 1 a).value = a.value := by
  rw [reduceLoop, if_pos ((below_modulus_iff a).mpr small)]

/-- Everything holds for the number the constant spells; for the scalar modulus its
name announces, it holds where there is nothing to take away. -/
theorem subtraction_exact_iff (a b : Bytes32) :
    SubtractsExactly programModulus a b ∧
      (SubtractsExactly bn254Modulus a b ↔ a.value < bn254Modulus) := by
  have exactly (p : Nat) (step : p ≤ a.value → (reduceLoop 1 a).value = a.value - p) :
      SubtractsExactly p a b :=
    { difference := sub256_difference a b
      bounds := cast_numbers_bounds a b 32 (by omega) 0 (Or.inl rfl)
      written := sub256_written a b
      ordered := Bytes32.toList_lt_iff a b
      step := step }
  constructor
  · exact exactly programModulus reduce_step_value
  · constructor
    · intro subtracts
      by_contra notBelow
      have large : bn254Modulus ≤ a.value := Nat.le_of_not_lt notBelow
      have taken := subtracts.step large
      have apart := modulus_exceeds
      have positive : 0 < bn254Modulus := by decide
      -- Between the two moduli nothing is taken, above both it is the larger one.
      by_cases small : a.value < programModulus
      · rw [reduce_step_below small] at taken
        omega
      · rw [reduce_step_value (Nat.le_of_not_lt small)] at taken
        omega
    · intro small
      exact exactly bn254Modulus fun large => absurd small (Nat.not_lt.mpr large)

theorem scalar_modulus_stays :
    ¬ SubtractsExactly bn254Modulus (Bytes32.ofNat bn254Modulus) Bytes32.zero := by
  intro subtracts
  have step := subtracts.step
  revert step
  decide +kernel

end Digits

/-! The block read back: 12 bytes of header, then element `k` at `12 + 32 * k`. -/
section Layout

def inputBytes (block : List UInt8) (k : Nat) : List UInt8 := (block.drop (12 + 32 * k)).take 32

/-- A verifier reads an element as a big-endian number modulo the scalar modulus. -/
def inputField (block : List UInt8) (k : Nat) : Field :=
  Fin.ofNat bn254Modulus (BigEndian.value (inputBytes block k))

theorem input_bytes_at {front back : List UInt8} {element : Bytes32} {k : Nat}
    (offset : front.length = 12 + 32 * k) :
    inputBytes (front ++ (element.toList ++ back)) k = element.toList := by
  rw [inputBytes, List.drop_left' offset, List.take_left' (by simp)]

variable (root nullifierHash : Bytes32) (recipient : Pubkey) (amount : UInt64)

def header : List UInt8 :=
  BigEndian.digits 4 nrPublicInputs ++ BigEndian.digits 4 0 ++ BigEndian.digits 4 nrPublicInputs

def amountBytes : List UInt8 := List.replicate 24 0 ++ BigEndian.digits 8 amount.toNat

theorem header_length : header.length = 12 := by decide

theorem amount_bytes_length : (amountBytes amount).length = 32 := by simp [amountBytes]

theorem encode_parts :
    encodePublicInputs root nullifierHash recipient amount =
      header ++ (root.toList ++ (nullifierHash.toList ++
        ((reduceToField recipient).toList ++ amountBytes amount))) := by
  simp only [encodePublicInputs, header, amountBytes, List.append_assoc]

theorem encode_length : (encodePublicInputs root nullifierHash recipient amount).length = 140 := by
  simp [encode_parts, header_length, amount_bytes_length]

theorem input_root :
    inputBytes (encodePublicInputs root nullifierHash recipient amount) 0 = root.toList := by
  rw [encode_parts]
  exact input_bytes_at header_length

theorem input_nullifier :
    inputBytes (encodePublicInputs root nullifierHash recipient amount) 1 =
      nullifierHash.toList := by
  rw [encode_parts, ← List.append_assoc]
  exact input_bytes_at (by simp [header_length])

theorem input_recipient :
    inputBytes (encodePublicInputs root nullifierHash recipient amount) 2 =
      (reduceToField recipient).toList := by
  rw [encode_parts, ← List.append_assoc, ← List.append_assoc]
  exact input_bytes_at (by simp [header_length])

theorem input_amount :
    inputBytes (encodePublicInputs root nullifierHash recipient amount) 3 =
      amountBytes amount := by
  have front : (header ++ root.toList ++ nullifierHash.toList ++
      (reduceToField recipient).toList).length = 12 + 32 * 3 := by simp [header_length]
  have whole : (amountBytes amount).length ≤ 32 := Nat.le_of_eq (amount_bytes_length amount)
  rw [encode_parts, ← List.append_assoc, ← List.append_assoc, ← List.append_assoc, inputBytes,
    List.drop_left' front, List.take_of_length_le whole]

theorem amount_value : BigEndian.value (amountBytes amount) = amount.toNat := by
  have width : 256 ^ 8 = 2 ^ 64 := by norm_num
  rw [amountBytes, BigEndian.value_append, BigEndian.value_replicate_zero,
    BigEndian.value_digits, width, Nat.mod_eq_of_lt amount.toNat_lt, Nat.zero_mul, Nat.zero_add]

end Layout

end PrivateTransfer.PublicInputs
