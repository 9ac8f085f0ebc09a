import Mathlib.Logic.Equiv.Defs
import PrivateTransfer.Borsh

/-!
Codecs put together from smaller ones. A codec is a writer with a reader that accepts
exactly what was written, whatever stands behind it. A codec of fixed size accepts
everything that is long enough.
-/

namespace PrivateTransfer.Borsh

structure Codec (Value : Type) where
  encode : Value → List UInt8
  decode : Reader Value
  exact : ∀ bytes value rest,
    decode bytes = some (value, rest) ↔ bytes = encode value ++ rest

structure FixedSizeCodec (Value : Type) extends Codec Value where
  fixedSize : Nat
  encoded_length : ∀ value, (encode value).length = fixedSize
  long_enough : ∀ bytes, fixedSize ≤ bytes.length → (decode bytes).isSome

namespace Codec
variable {Value Next : Type} (codec : Codec Value)

theorem reads (value : Value) : Reads codec.decode (codec.encode value) value :=
  fun rest => (codec.exact _ value rest).mpr rfl

def pair (first : Codec Value) (second : Codec Next) : Codec (Value × Next) where
  encode values := first.encode values.1 ++ second.encode values.2
  decode := do
    let value ← first.decode
    let next ← second.decode
    pure (value, next)
  exact := by
    rintro bytes ⟨value, next⟩ rest
    change ((first.decode bytes).bind fun read =>
      (second.decode read.2).bind fun later => some ((read.1, later.1), later.2)) = _ ↔ _
    simp only [Option.bind_eq_some_iff, Option.some.injEq, Prod.mk.injEq, Prod.exists]
    constructor
    · rintro ⟨_, middle, front, _, _, back, ⟨rfl, rfl⟩, rfl⟩
      rw [(first.exact ..).mp front, (second.exact ..).mp back, List.append_assoc]
    · rintro rfl
      exact ⟨value, second.encode next ++ rest, (first.exact ..).mpr (List.append_assoc ..),
        next, rest, (second.exact ..).mpr rfl, ⟨rfl, rfl⟩, rfl⟩

/-- The same bytes for another type of value. -/
def map (same : Value ≃ Next) : Codec Next where
  encode next := codec.encode (same.symm next)
  decode := same <$> codec.decode
  exact := by
    intro bytes next rest
    change ((codec.decode bytes).bind fun read => some (same read.1, read.2)) = _ ↔ _
    simp only [Option.bind_eq_some_iff, Option.some.injEq, Prod.mk.injEq, Prod.exists]
    rw [← codec.exact]
    constructor
    · rintro ⟨value, _, read, rfl, rfl⟩
      rwa [Equiv.symm_apply_apply]
    · intro read
      exact ⟨same.symm next, rest, read, Equiv.apply_symm_apply same next, rfl⟩

end Codec

/-! The pieces. -/
section Pieces
variable {Value Next : Type}

theorem take_exact (count : Nat) (bytes taken rest : List UInt8) :
    take count bytes = some (taken, rest) ↔ taken.length = count ∧ bytes = taken ++ rest := by
  rw [take]
  constructor
  · intro read
    split at read
    · rename_i enough
      obtain ⟨rfl, rfl⟩ := Prod.mk.inj (Option.some.inj read)
      exact ⟨List.length_take_of_le enough, (List.take_append_drop count bytes).symm⟩
    · cases read
  · rintro ⟨rfl, rfl⟩
    simp

theorem take_some {count : Nat} {bytes : List UInt8} (enough : count ≤ bytes.length) :
    take count bytes = some (bytes.take count, bytes.drop count) := if_pos enough

theorem to_list_of_fn (bytes : List UInt8) :
    (Vector.ofFn fun i : Fin bytes.length => bytes.getD i.val 0).toList = bytes := by
  apply List.ext_getElem
  · simp
  · intro i _ inside
    simp [List.getD_eq_getElem?_getD]

theorem array_exact (count : Nat) (bytes : List UInt8) (held : Vector UInt8 count)
    (rest : List UInt8) :
    array count bytes = some (held, rest) ↔ bytes = held.toList ++ rest := by
  constructor
  · intro read
    obtain ⟨⟨taken, left⟩, found, same⟩ := Option.bind_eq_some_iff.mp read
    obtain ⟨rfl, rfl⟩ := (take_exact count bytes taken left).mp found
    obtain ⟨rfl, rfl⟩ := Prod.mk.inj (Option.some.inj same)
    rw [to_list_of_fn]
  · rintro rfl
    exact reads_array held rest

/-- `fixEncoderSize(getBytesEncoder(), count)` and its decoder. -/
def bytes (count : Nat) : FixedSizeCodec (Vector UInt8 count) where
  encode := Vector.toList
  decode := array count
  exact := array_exact count
  fixedSize := count
  encoded_length _ := Vector.length_toList
  long_enough bytes enough := by
    change ((take count bytes).bind _).isSome = true
    rw [take_some enough]
    rfl

theorem little_endian_value (bytes : List UInt8) :
    littleEndian bytes.length (BigEndian.value bytes.reverse) = bytes := by
  have bound := BigEndian.value_lt bytes.reverse
  rw [List.length_reverse] at bound
  have digits : BigEndian.digits bytes.length (BigEndian.value bytes.reverse) = bytes.reverse :=
    BigEndian.value_injective (by simp)
      (by rw [BigEndian.value_digits, Nat.mod_eq_of_lt bound])
  rw [littleEndian, digits, List.reverse_reverse]

theorem word_exact (count : Nat) (bytes : List UInt8) (number : Nat) (rest : List UInt8) :
    word count bytes = some (number, rest) ↔
      number < 256 ^ count ∧ bytes = littleEndian count number ++ rest := by
  constructor
  · intro read
    obtain ⟨⟨taken, left⟩, found, same⟩ := Option.bind_eq_some_iff.mp read
    obtain ⟨rfl, rfl⟩ := (take_exact count bytes taken left).mp found
    obtain ⟨rfl, rfl⟩ := Prod.mk.inj (Option.some.inj same)
    have bound := BigEndian.value_lt taken.reverse
    rw [List.length_reverse] at bound
    exact ⟨bound, by rw [little_endian_value]⟩
  · rintro ⟨small, rfl⟩
    exact reads_word small rest

theorem u64_exact (bytes : List UInt8) (number : UInt64) (rest : List UInt8) :
    u64 bytes = some (number, rest) ↔ bytes = littleEndian 8 number.toNat ++ rest := by
  constructor
  · intro read
    obtain ⟨⟨value, left⟩, found, same⟩ := Option.bind_eq_some_iff.mp read
    obtain ⟨small, rfl⟩ := (word_exact 8 bytes value left).mp found
    obtain ⟨rfl, rfl⟩ := Prod.mk.inj (Option.some.inj same)
    have fits : value < 2 ^ 64 := small
    rw [UInt64.toNat_ofNat_of_lt' fits]
  · rintro rfl
    exact reads_u64 number rest

/-- `getU64Encoder()` and its decoder. -/
def u64Codec : FixedSizeCodec UInt64 where
  encode number := littleEndian 8 number.toNat
  decode := u64
  exact := u64_exact
  fixedSize := 8
  encoded_length _ := little_endian_length 8 _
  long_enough bytes enough := by
    change (((take 8 bytes).bind _).bind _).isSome = true
    rw [take_some enough]
    rfl

end Pieces

/-! Fixed sizes are kept by composition. -/
namespace FixedSizeCodec
variable {Value Next : Type} (codec : FixedSizeCodec Value)

theorem refused_iff (bytes : List UInt8) :
    codec.decode bytes = none ↔ bytes.length < codec.fixedSize := by
  constructor
  · intro refused
    by_contra long
    have accepted := codec.long_enough bytes (Nat.le_of_not_lt long)
    rw [refused] at accepted
    exact Bool.false_ne_true accepted
  · intro short
    cases read : codec.decode bytes with
    | none => rfl
    | some found =>
        have length := congrArg List.length ((codec.exact bytes found.1 found.2).mp read)
        rw [List.length_append, codec.encoded_length] at length
        omega

def pair (first : FixedSizeCodec Value) (second : FixedSizeCodec Next) :
    FixedSizeCodec (Value × Next) where
  toCodec := first.toCodec.pair second.toCodec
  fixedSize := first.fixedSize + second.fixedSize
  encoded_length values := by
    change (first.encode values.1 ++ second.encode values.2).length = _
    rw [List.length_append, first.encoded_length, second.encoded_length]
  long_enough bytes enough := by
    obtain ⟨⟨value, behind⟩, read⟩ :=
      Option.isSome_iff_exists.mp (first.long_enough bytes (by omega))
    have length := congrArg List.length ((first.exact bytes value behind).mp read)
    rw [List.length_append, first.encoded_length] at length
    obtain ⟨⟨next, rest⟩, later⟩ :=
      Option.isSome_iff_exists.mp (second.long_enough behind (by omega))
    change ((first.decode bytes).bind fun read =>
      (second.decode read.2).bind fun later => some ((read.1, later.1), later.2)).isSome = true
    rw [read, Option.bind_some, later]
    rfl

def map (same : Value ≃ Next) : FixedSizeCodec Next where
  toCodec := codec.toCodec.map same
  fixedSize := codec.fixedSize
  encoded_length next := codec.encoded_length (same.symm next)
  long_enough bytes enough := by
    obtain ⟨read, found⟩ := Option.isSome_iff_exists.mp (codec.long_enough bytes enough)
    change ((codec.decode bytes).bind fun read => some (same read.1, read.2)).isSome = true
    rw [found]
    rfl

theorem list_exact (count : Nat) (bytes : List UInt8) (values : List Value) (rest : List UInt8) :
    listOf codec.decode count bytes = some (values, rest) ↔
      values.length = count ∧ bytes = values.flatMap codec.encode ++ rest := by
  constructor
  · intro read
    induction count generalizing bytes values rest with
    | zero =>
        obtain ⟨rfl, rfl⟩ := Prod.mk.inj (Option.some.inj read)
        exact ⟨rfl, rfl⟩
    | succ count ih =>
        obtain ⟨⟨first, behind⟩, front, later⟩ := Option.bind_eq_some_iff.mp read
        obtain ⟨⟨others, left⟩, back, same⟩ := Option.bind_eq_some_iff.mp later
        obtain ⟨rfl, rfl⟩ := Prod.mk.inj (Option.some.inj same)
        obtain ⟨length, rfl⟩ := ih _ _ _ back
        obtain rfl := (codec.exact bytes first _).mp front
        exact ⟨congrArg Nat.succ length, by rw [List.flatMap_cons, List.append_assoc]⟩
  · rintro ⟨rfl, rfl⟩
    exact reads_list_of codec.toCodec.reads values rest

theorem list_length (values : List Value) :
    (values.flatMap codec.encode).length = values.length * codec.fixedSize := by
  induction values with
  | nil => simp
  | cons first rest ih =>
      rw [List.flatMap_cons, List.length_append, codec.encoded_length, ih, List.length_cons,
        Nat.succ_mul, Nat.add_comm]

theorem list_some (count : Nat) (bytes : List UInt8)
    (enough : count * codec.fixedSize ≤ bytes.length) :
    (listOf codec.decode count bytes).isSome := by
  induction count generalizing bytes with
  | zero => rfl
  | succ count ih =>
      rw [Nat.succ_mul] at enough
      obtain ⟨⟨first, behind⟩, front⟩ :=
        Option.isSome_iff_exists.mp (codec.long_enough bytes (by omega))
      have length := congrArg List.length ((codec.exact bytes first behind).mp front)
      rw [List.length_append, codec.encoded_length] at length
      obtain ⟨⟨others, rest⟩, back⟩ := Option.isSome_iff_exists.mp (ih behind (by omega))
      have whole : listOf codec.decode (count + 1) bytes = some (first :: others, rest) := by
        change ((codec.decode bytes).bind fun read =>
          (listOf codec.decode count read.2).bind fun later =>
            some (read.1 :: later.1, later.2)) = _
        rw [front, Option.bind_some, back]
        rfl
      rw [whole]
      rfl

/-- `getArrayEncoder(encoder, { size: count })` and its decoder. -/
def repeated (count : Nat) : FixedSizeCodec (Vector Value count) where
  encode values := values.toList.flatMap codec.encode
  decode bytes := do
    let read ← listOf codec.decode count bytes
    if all : read.1.length = count then some (⟨read.1.toArray, all⟩, read.2) else none
  exact := by
    intro bytes values rest
    rw [Option.bind_eq_bind, Option.bind_eq_some_iff]
    constructor
    · rintro ⟨⟨found, left⟩, read, same⟩
      obtain ⟨all, rfl⟩ := (codec.list_exact count bytes found left).mp read
      rw [dif_pos all] at same
      obtain ⟨rfl, rfl⟩ := Prod.mk.inj (Option.some.inj same)
      rfl
    · rintro rfl
      refine ⟨(values.toList, rest), ?_, ?_⟩
      · exact (codec.list_exact count _ _ rest).mpr ⟨Vector.length_toList, rfl⟩
      · rw [dif_pos Vector.length_toList]
        rfl
  fixedSize := count * codec.fixedSize
  encoded_length values := by rw [codec.list_length, Vector.length_toList]
  long_enough bytes enough := by
    obtain ⟨⟨found, rest⟩, read⟩ := Option.isSome_iff_exists.mp (codec.list_some count bytes enough)
    have all := ((codec.list_exact count bytes found rest).mp read).1
    rw [read, Option.bind_eq_bind, Option.bind_some, dif_pos all]
    rfl

end FixedSizeCodec

end PrivateTransfer.Borsh
