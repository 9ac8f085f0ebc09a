/-!
Base64 in the standard alphabet on lists of characters. Decoding insists on
canonical padding: a group may be short only at the end, and the bits its
padding stands for must be zero.
-/

namespace PrivateTransfer.Base64

def symbol (value : Nat) : Char :=
  if value < 26 then Char.ofNat ('A'.toNat + value)
  else if value < 52 then Char.ofNat ('a'.toNat + (value - 26))
  else if value < 62 then Char.ofNat ('0'.toNat + (value - 52))
  else if value = 62 then '+' else '/'

def symbolValue (symbol : Char) : Option Nat :=
  if 'A' ≤ symbol ∧ symbol ≤ 'Z' then some (symbol.toNat - 'A'.toNat)
  else if 'a' ≤ symbol ∧ symbol ≤ 'z' then some (symbol.toNat - 'a'.toNat + 26)
  else if '0' ≤ symbol ∧ symbol ≤ '9' then some (symbol.toNat - '0'.toNat + 52)
  else if symbol = '+' then some 62
  else if symbol = '/' then some 63
  else none

theorem symbol_value : ∀ value < 64, symbolValue (symbol value) = some value := by decide

theorem symbol_not_pad : ∀ value < 64, symbol value ≠ '=' := by decide

section Codec

def encode : List UInt8 → List Char
  | [] => []
  | [a] => [symbol (a.toNat / 4), symbol (a.toNat % 4 * 16), '=', '=']
  | [a, b] =>
      [symbol (a.toNat / 4), symbol (a.toNat % 4 * 16 + b.toNat / 16),
        symbol (b.toNat % 16 * 4), '=']
  | a :: b :: c :: rest =>
      symbol (a.toNat / 4) :: symbol (a.toNat % 4 * 16 + b.toNat / 16) ::
        symbol (b.toNat % 16 * 4 + c.toNat / 64) :: symbol (c.toNat % 64) :: encode rest

/-- A last group of two symbols; its four low bits must be zero. -/
def decodeOne (p q : Char) : Option (List UInt8) := do
  let p ← symbolValue p
  let q ← symbolValue q
  if q % 16 = 0 then some [UInt8.ofNat (p * 4 + q / 16)] else none

/-- A last group of three symbols; its two low bits must be zero. -/
def decodeTwo (p q r : Char) : Option (List UInt8) := do
  let p ← symbolValue p
  let q ← symbolValue q
  let r ← symbolValue r
  if r % 4 = 0 then
    some [UInt8.ofNat (p * 4 + q / 16), UInt8.ofNat (q % 16 * 16 + r / 4)]
  else none

def decodeThree (p q r s : Char) : Option (List UInt8) := do
  let p ← symbolValue p
  let q ← symbolValue q
  let r ← symbolValue r
  let s ← symbolValue s
  some [UInt8.ofNat (p * 4 + q / 16), UInt8.ofNat (q % 16 * 16 + r / 4),
    UInt8.ofNat (r % 4 * 64 + s)]

/-- Padding closes the text, so only a last group may be short. -/
def decode : List Char → Option (List UInt8)
  | [] => some []
  | p :: q :: r :: s :: rest =>
      if rest = [] ∧ r = '=' ∧ s = '=' then decodeOne p q
      else if rest = [] ∧ s = '=' then decodeTwo p q r
      else do
        let bytes ← decodeThree p q r s
        let others ← decode rest
        some (bytes ++ others)
  | _ => none

end Codec

section RoundTrip

theorem decode_one (a : UInt8) :
    decodeOne (symbol (a.toNat / 4)) (symbol (a.toNat % 4 * 16)) = some [a] := by
  have bound := a.toNat_lt
  have whole : a.toNat / 4 * 4 + a.toNat % 4 * 16 / 16 = a.toNat := by omega
  rw [decodeOne, symbol_value _ (by omega), symbol_value _ (by omega)]
  simp only [Option.bind_eq_bind, Option.bind_some, whole]
  simp

theorem decode_two (a b : UInt8) :
    decodeTwo (symbol (a.toNat / 4)) (symbol (a.toNat % 4 * 16 + b.toNat / 16))
      (symbol (b.toNat % 16 * 4)) = some [a, b] := by
  have first := a.toNat_lt
  have second := b.toNat_lt
  have high : a.toNat / 4 * 4 + (a.toNat % 4 * 16 + b.toNat / 16) / 16 = a.toNat := by omega
  have low : (a.toNat % 4 * 16 + b.toNat / 16) % 16 * 16 + b.toNat % 16 * 4 / 4 = b.toNat := by
    omega
  rw [decodeTwo, symbol_value _ (by omega), symbol_value _ (by omega), symbol_value _ (by omega)]
  simp only [Option.bind_eq_bind, Option.bind_some, high, low]
  simp

theorem decode_three (a b c : UInt8) :
    decodeThree (symbol (a.toNat / 4)) (symbol (a.toNat % 4 * 16 + b.toNat / 16))
      (symbol (b.toNat % 16 * 4 + c.toNat / 64)) (symbol (c.toNat % 64)) = some [a, b, c] := by
  have first := a.toNat_lt
  have second := b.toNat_lt
  have third := c.toNat_lt
  have high : a.toNat / 4 * 4 + (a.toNat % 4 * 16 + b.toNat / 16) / 16 = a.toNat := by omega
  have middle : (a.toNat % 4 * 16 + b.toNat / 16) % 16 * 16 +
      (b.toNat % 16 * 4 + c.toNat / 64) / 4 = b.toNat := by omega
  have low : (b.toNat % 16 * 4 + c.toNat / 64) % 4 * 64 + c.toNat % 64 = c.toNat := by omega
  rw [decodeThree, symbol_value _ (by omega), symbol_value _ (by omega),
    symbol_value _ (by omega), symbol_value _ (by omega)]
  simp only [Option.bind_eq_bind, Option.bind_some, high, middle, low]
  simp

theorem decode_encode (bytes : List UInt8) : decode (encode bytes) = some bytes := by
  fun_induction encode bytes with
  | case1 => rfl
  | case2 a =>
      rw [decode, if_pos ⟨rfl, rfl, rfl⟩]
      exact decode_one a
  | case3 a b =>
      have bound := b.toNat_lt
      have full : symbol (b.toNat % 16 * 4) ≠ '=' := symbol_not_pad _ (by omega)
      rw [decode, if_neg (fun short => full short.2.1), if_pos ⟨rfl, rfl⟩]
      exact decode_two a b
  | case4 a b c rest ih =>
      have full : symbol (c.toNat % 64) ≠ '=' := symbol_not_pad _ (Nat.mod_lt _ (by decide))
      rw [decode, if_neg (fun short => full short.2.2), if_neg (fun short => full short.2),
        decode_three, ih]
      rfl

/-- The characters an encoding is written in. -/
def isSymbol (symbol : Char) : Bool := (symbolValue symbol).isSome || symbol == '='

theorem range_mono {low high symbol : Char} (inside : low ≤ symbol ∧ symbol ≤ high)
    (least : 43 ≤ low.toNat) (most : high.toNat ≤ 122) :
    43 ≤ symbol.toNat ∧ symbol.toNat ≤ 122 := by
  have lower : low.toNat ≤ symbol.toNat := inside.1
  have upper : symbol.toNat ≤ high.toNat := inside.2
  exact ⟨Nat.le_trans least lower, Nat.le_trans upper most⟩

/-- All of them lie between `+` and `z`. -/
theorem symbol_range {symbol : Char} (is : isSymbol symbol = true) :
    43 ≤ symbol.toNat ∧ symbol.toNat ≤ 122 := by
  rw [isSymbol, Bool.or_eq_true, beq_iff_eq] at is
  rcases is with some | rfl
  · by_cases upper : 'A' ≤ symbol ∧ symbol ≤ 'Z'
    · exact range_mono upper (by decide) (by decide)
    by_cases lower : 'a' ≤ symbol ∧ symbol ≤ 'z'
    · exact range_mono lower (by decide) (by decide)
    by_cases digit : '0' ≤ symbol ∧ symbol ≤ '9'
    · exact range_mono digit (by decide) (by decide)
    by_cases plus : symbol = '+'
    · subst plus
      decide
    by_cases slash : symbol = '/'
    · subst slash
      decide
    rw [symbolValue, if_neg upper, if_neg lower, if_neg digit, if_neg plus, if_neg slash] at some
    cases some
  · decide

theorem symbol_is : ∀ value < 64, isSymbol (symbol value) = true := by decide

theorem encode_symbols (bytes : List UInt8) : ∀ symbol ∈ encode bytes, isSymbol symbol = true := by
  fun_induction encode bytes with
  | case1 => exact fun symbol member => absurd member List.not_mem_nil
  | case2 a =>
      have first := a.toNat_lt
      simp only [List.mem_cons, List.not_mem_nil, or_false]
      rintro symbol (rfl | rfl | rfl | rfl)
      · exact symbol_is _ (by omega)
      · exact symbol_is _ (by omega)
      · rfl
      · rfl
  | case3 a b =>
      have first := a.toNat_lt
      have second := b.toNat_lt
      simp only [List.mem_cons, List.not_mem_nil, or_false]
      rintro symbol (rfl | rfl | rfl | rfl)
      · exact symbol_is _ (by omega)
      · exact symbol_is _ (by omega)
      · exact symbol_is _ (by omega)
      · rfl
  | case4 a b c rest ih =>
      have first := a.toNat_lt
      have second := b.toNat_lt
      have third := c.toNat_lt
      simp only [List.mem_cons]
      rintro symbol (rfl | rfl | rfl | rfl | member)
      · exact symbol_is _ (by omega)
      · exact symbol_is _ (by omega)
      · exact symbol_is _ (by omega)
      · exact symbol_is _ (by omega)
      · exact ih symbol member

end RoundTrip

end PrivateTransfer.Base64
