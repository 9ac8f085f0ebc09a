import PrivateTransfer.BigEndian

/-!
Reading bytes from the front, as a Borsh deserialiser does: a reader takes what it
needs and hands on what is left. `Reads` says which bytes a reader takes for which
value, whatever follows them, so that a record is read field by field.
-/

namespace PrivateTransfer.Borsh

abbrev Reader := StateT (List UInt8) Option

def take (count : Nat) : Reader (List UInt8) := fun bytes =>
  if count ≤ bytes.length then some (bytes.take count, bytes.drop count) else none

/-- An unsigned number of `count` bytes, little-endian. -/
def word (count : Nat) : Reader Nat := (fun bytes => BigEndian.value bytes.reverse) <$> take count

def u64 : Reader UInt64 := UInt64.ofNat <$> word 8

/-- `[u8; N]`. -/
def array (count : Nat) : Reader (Vector UInt8 count) :=
  (fun bytes => Vector.ofFn fun i => bytes.getD i.val 0) <$> take count

/-- `Vec<u8>`: four bytes of length, then as many bytes. -/
def vec : Reader (List UInt8) := do
  let length ← word 4
  take length

/-- So many in a row. -/
def listOf {Value : Type} (reader : Reader Value) : Nat → Reader (List Value)
  | 0 => pure []
  | count + 1 => do
      let first ← reader
      let rest ← listOf reader count
      pure (first :: rest)

/-- `[T; N]`. -/
def vectorOf {Value : Type} [Inhabited Value] (reader : Reader Value) (count : Nat) :
    Reader (Vector Value count) :=
  (fun values => Vector.ofFn fun i => values.getD i.val default) <$> listOf reader count

def bool : Reader Bool := (· == 1) <$> word 1

def littleEndian (count number : Nat) : List UInt8 := (BigEndian.digits count number).reverse

@[simp] theorem little_endian_length (count number : Nat) :
    (littleEndian count number).length = count := by simp [littleEndian]

def Reads {Value : Type} (reader : Reader Value) (bytes : List UInt8) (value : Value) : Prop :=
  ∀ rest, reader (bytes ++ rest) = some (value, rest)

section Rules
variable {Value Next : Type}

theorem reads_pure (value : Value) : Reads (pure value) [] value := fun _ => rfl

theorem reads_bind {reader : Reader Value} {next : Value → Reader Next} {front back : List UInt8}
    {value : Value} {result : Next} (first : Reads reader front value)
    (second : Reads (next value) back result) :
    Reads (reader >>= next) (front ++ back) result := by
  intro rest
  change (reader (front ++ back ++ rest) >>= fun read => next read.1 read.2) = _
  rw [List.append_assoc, first]
  exact second rest

/-- What only computes takes nothing. -/
theorem reads_map {reader : Reader Value} {bytes : List UInt8} {value : Value}
    (first : Reads reader bytes value) (compute : Value → Next) :
    Reads (compute <$> reader) bytes (compute value) := by
  intro rest
  change (reader (bytes ++ rest) >>= fun read => pure (compute read.1, read.2)) = _
  rw [first]
  rfl

/-- A last step that builds the record takes nothing. -/
theorem reads_last {reader : Reader Value} {bytes : List UInt8} {value : Value}
    (first : Reads reader bytes value) (build : Value → Next) :
    Reads (reader >>= fun read => pure (build read)) bytes (build value) := by
  have whole : Reads (reader >>= fun read => pure (build read)) (bytes ++ []) (build value) :=
    reads_bind first (reads_pure (build value))
  rwa [List.append_nil] at whole

/-- The bytes of a reader that takes them all. -/
theorem reads_whole {reader : Reader Value} {bytes : List UInt8} {value : Value}
    (reads : Reads reader bytes value) : reader.run bytes = some (value, []) := by
  have whole := reads []
  rwa [List.append_nil] at whole

theorem reads_take (bytes : List UInt8) : Reads (take bytes.length) bytes bytes := by
  intro rest
  simp [take]

theorem reads_word {count number : Nat} (small : number < 256 ^ count) :
    Reads (word count) (littleEndian count number) number := by
  have taken := reads_take (littleEndian count number)
  rw [little_endian_length] at taken
  have value : BigEndian.value (littleEndian count number).reverse = number := by
    simp [littleEndian, Nat.mod_eq_of_lt small]
  have read := reads_map taken fun bytes => BigEndian.value bytes.reverse
  rwa [value] at read

theorem reads_u64 (number : UInt64) : Reads u64 (littleEndian 8 number.toNat) number := by
  have small : number.toNat < 256 ^ 8 := number.toNat_lt
  have read := reads_map (reads_word small) UInt64.ofNat
  rwa [UInt64.ofNat_toNat] at read

theorem reads_array {count : Nat} (held : Vector UInt8 count) :
    Reads (array count) held.toList held := by
  have taken := reads_take held.toList
  rw [Vector.length_toList] at taken
  have same : (Vector.ofFn fun i => held.toList.getD i.val 0 : Vector UInt8 count) = held := by
    apply Vector.ext
    intro i inside
    simp [List.getD_eq_getElem?_getD]
  have read := reads_map taken fun bytes =>
    (Vector.ofFn fun i => bytes.getD i.val 0 : Vector UInt8 count)
  rwa [same] at read

theorem reads_vec {bytes : List UInt8} (short : bytes.length < 2 ^ 32) :
    Reads vec (littleEndian 4 bytes.length ++ bytes) bytes := by
  have small : bytes.length < 256 ^ 4 := short
  exact reads_bind (reads_word small) (reads_take bytes)

theorem reads_list_of {reader : Reader Value} {write : Value → List UInt8}
    (reads : ∀ value, Reads reader (write value) value) (values : List Value) :
    Reads (listOf reader values.length) (values.flatMap write) values := by
  induction values with
  | nil => exact reads_pure []
  | cons first rest ih => exact reads_bind (reads first) (reads_last ih (first :: ·))

theorem reads_vector_of [Inhabited Value] {reader : Reader Value} {write : Value → List UInt8}
    (reads : ∀ value, Reads reader (write value) value) {count : Nat}
    (values : Vector Value count) :
    Reads (vectorOf reader count) (values.toList.flatMap write) values := by
  have listed := reads_list_of reads values.toList
  rw [Vector.length_toList] at listed
  have same : (Vector.ofFn fun i => values.toList.getD i.val default : Vector Value count) =
      values := by
    apply Vector.ext
    intro i inside
    simp [List.getD_eq_getElem?_getD]
  have read := reads_map listed fun list =>
    (Vector.ofFn fun i => list.getD i.val default : Vector Value count)
  rwa [same] at read

theorem reads_bool (flag : Bool) : Reads bool (littleEndian 1 flag.toNat) flag := by
  have small : flag.toNat < 256 ^ 1 := Nat.lt_of_le_of_lt (Bool.toNat_le flag) (by decide)
  have read := reads_map (reads_word small) (· == 1)
  cases flag <;> exact read

end Rules

end PrivateTransfer.Borsh
