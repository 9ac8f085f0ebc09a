import PrivateTransfer.Field

/-!
`frontend/src/composables/useWithdraw.ts`: how the client turns a recipient into
the field element it puts into the witness. The two loops are kept as written,
with shifts and masks over an unbounded `bigint`.
-/

namespace PrivateTransfer.WithdrawClient

/-- `for (let i = 0; i < 32; i++) value = (value << 8n) | BigInt(bytes[i])`. -/
def readLoop (bytes : Bytes32) : Nat :=
  bytes.toList.foldl (fun value byte => (value <<< 8) ||| byte.toNat) 0

/-- `for (let i = 31; i >= 0; i--) { result[i] = value & 0xff; value >>= 8 }`, from `i - 1` down. -/
def writeLoop : (i value : Nat) → Bytes32 → Bytes32
  | 0, _, result => result
  | i + 1, value, result =>
      writeLoop i (value >>> 8) (result.setIfInBounds i (UInt8.ofNat (value &&& 0xff)))

def reduceToField (bytes : Bytes32) : Bytes32 :=
  writeLoop 32 (readLoop bytes % bn254Modulus) Bytes32.zero

theorem shift_or_byte (value : Nat) (byte : UInt8) :
    (value <<< 8) ||| byte.toNat = value * 256 + byte.toNat := by
  -- the byte fits into the bits the shift has cleared
  rw [← Nat.shiftLeft_add_eq_or_of_lt byte.toNat_lt, Nat.shiftLeft_eq]

theorem read_loop_value (bytes : Bytes32) : readLoop bytes = bytes.value := by
  simp only [readLoop, shift_or_byte]
  rfl

theorem masked_byte (value : Nat) : UInt8.ofNat (value &&& 0xff) = UInt8.ofNat value := by
  apply UInt8.toNat_inj.mp
  rw [show (0xff : Nat) = 2 ^ 8 - 1 from rfl, Nat.and_two_pow_sub_one_eq_mod]
  simp

theorem write_loop_list (i : Nat) (inside : i ≤ 32) (value : Nat) (result : Bytes32) :
    (writeLoop i value result).toList =
      BigEndian.digits i value ++ result.toList.drop i := by
  induction i generalizing value result with
  | zero => simp [writeLoop, BigEndian.digits]
  | succ i ih =>
      have short : i < (result.toList.set i (UInt8.ofNat value)).length := by simp; omega
      rw [writeLoop, ih (Nat.le_of_succ_le inside), masked_byte, BigEndian.digits,
        Nat.shiftRight_eq_div_pow, Vector.toList_setIfInBounds, List.drop_eq_getElem_cons short]
      simp [List.drop_set]

/-- The client computes the canonical string of the residue. -/
theorem reduce_bytes (bytes : Bytes32) : reduceToField bytes = bytesOf (fieldOf bytes) := by
  apply Vector.toList_inj.mp
  rw [reduceToField, write_loop_list 32 (Nat.le_refl 32), read_loop_value,
    List.drop_of_length_le (by simp), List.append_nil, bytesOf, Bytes32.toList_ofNat, fieldOf_val]

theorem reduce_value (bytes : Bytes32) :
    (reduceToField bytes).value = bytes.value % bn254Modulus := by
  rw [reduce_bytes, bytesOf, Bytes32.value_ofNat, Nat.mod_eq_of_lt (field_lt_word _), fieldOf_val]

end PrivateTransfer.WithdrawClient
