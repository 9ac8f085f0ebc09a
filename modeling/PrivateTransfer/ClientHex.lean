import PrivateTransfer.MerkleService

/-!
Hex in `frontend/src/services/crypto.ts`: what is written in lowercase is read
back in either case, two digits a byte, and anything else is refused.
-/

namespace PrivateTransfer.ClientHex

open MerkleService

def digitOf (char : Char) : Option Nat :=
  if '0' ≤ char ∧ char ≤ '9' then some (char.toNat - '0'.toNat)
  else if 'A' ≤ char ∧ char ≤ 'F' then some (char.toNat - 'A'.toNat + 10)
  else if 'a' ≤ char ∧ char ≤ 'f' then some (char.toNat - 'a'.toNat + 10)
  else none

def bytesOfDigits : List Char → Option (List UInt8)
  | [] => some []
  | [_] => none
  | high :: low :: rest => do
      let high ← digitOf high
      let low ← digitOf low
      let bytes ← bytesOfDigits rest
      some (UInt8.ofNat (high * 16 + low) :: bytes)

/-- A refused text throws. -/
def hexToBytes (hex : String) : Option (List UInt8) := bytesOfDigits hex.toList

def bytesToHex (bytes : List UInt8) : String := String.ofList (bytes.flatMap hexByte)

theorem digit_of_char : ∀ digit < 16, digitOf (hexChar digit) = some digit := by decide

theorem digits_round_trip (bytes : List UInt8) :
    bytesOfDigits (bytes.flatMap hexByte) = some bytes := by
  induction bytes with
  | nil => rfl
  | cons byte rest ih =>
      obtain ⟨high, low⟩ := byte_halves byte
      have whole : byte.toNat / 16 * 16 + byte.toNat % 16 = byte.toNat := Nat.div_add_mod' _ _
      rw [List.flatMap_cons, hexByte, List.cons_append, List.cons_append, List.nil_append,
        bytesOfDigits, digit_of_char _ high, digit_of_char _ low, ih]
      change some (UInt8.ofNat (byte.toNat / 16 * 16 + byte.toNat % 16) :: rest) = _
      rw [whole, UInt8.ofNat_toNat]

@[simp] theorem hex_round_trip (bytes : List UInt8) :
    hexToBytes (bytesToHex bytes) = some bytes := by
  rw [hexToBytes, bytesToHex, String.toList_ofList]
  exact digits_round_trip bytes

/-- The services write 32 bytes the way the frontend does. -/
theorem hex_encode_text (bytes : Bytes32) : (hexEncode bytes).text = bytesToHex bytes.toList := rfl

end PrivateTransfer.ClientHex
