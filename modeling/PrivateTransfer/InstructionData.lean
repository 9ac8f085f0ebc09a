import PrivateTransfer.Borsh
import PrivateTransfer.DepositClient

/-!
The bytes on either side of the program: the instruction data which
`useWithdraw.ts` and `useDeposit.ts` write by hand and `programs/ptrans/src/lib.rs`
reads as arguments, and the data `withdraw.rs` invokes the verifier with.
-/

namespace PrivateTransfer.InstructionData

open Borsh DepositClient PoolProgram PublicInputs

/-! Instruction data. Behind eight bytes of discriminator stand the arguments of
the instruction, in the order `lib.rs` declares them. -/
section Arguments

def depositArgs : Reader DepositArgs := do
  let commitment ← array 32
  let newRoot ← array 32
  let amount ← u64
  pure { commitment, newRoot, amount }

def withdrawArgs : Reader WithdrawArgs := do
  let proof ← vec
  let nullifierHash ← array 32
  let root ← array 32
  let toKey ← array 32
  let amount ← u64
  pure { proof, nullifierHash, root, toKey, amount }

def withdrawDiscriminator : List UInt8 := [183, 18, 70, 156, 148, 109, 161, 34]

/-- The root comes from the backend as hex of any length. -/
def withdrawData (proofOnly : List UInt8) (nullifierHash : Bytes32) (latestRoot : List UInt8)
    (recipient : Pubkey) (amountLamports : Nat) : Option (List UInt8) := do
  let data := List.replicate (8 + 4 + proofOnly.length + 32 + 32 + 32 + 8) 0
  let offset := 0
  let data ← setBytes data withdrawDiscriminator offset
  let offset := offset + 8
  let data ← setBytes data (littleEndian 4 proofOnly.length) offset
  let offset := offset + 4
  let data ← setBytes data proofOnly offset
  let offset := offset + proofOnly.length
  let data ← setBytes data nullifierHash.toList offset
  let offset := offset + 32
  let data ← setBytes data latestRoot offset
  let offset := offset + 32
  let data ← setBytes data recipient.toList offset
  let offset := offset + 32
  setBytes data (littleEndian 8 amountLamports) offset

/-- The parts one after the other, each right behind the last one. -/
def setAll (data : List UInt8) (offset : Nat) : List (List UInt8) → Option (List UInt8)
  | [] => some data
  | part :: rest => do
      let data ← setBytes data part offset
      setAll data (offset + part.length) rest

/-- Parts that fill a blank exactly end up side by side. -/
theorem set_all_fills (parts : List (List UInt8)) (front : List UInt8) :
    setAll (front ++ List.replicate parts.flatten.length 0) front.length parts =
      some (front ++ parts.flatten) := by
  induction parts generalizing front with
  | nil => simp [setAll]
  | cons part rest ih =>
      have room : (part :: rest).flatten.length = part.length + rest.flatten.length := by simp
      have left : ∀ count, List.drop (front.length + part.length)
          (front ++ List.replicate (part.length + count) (0 : UInt8)) =
            List.replicate count 0 := by
        intro count
        rw [← List.drop_drop, List.drop_left, List.drop_replicate, Nat.add_sub_cancel_left]
      have written : setBytes (front ++ List.replicate (part :: rest).flatten.length 0) part
          front.length = some ((front ++ part) ++ List.replicate rest.flatten.length 0) := by
        rw [setBytes, room, left, List.take_left, if_pos (by simp)]
      have later := ih (front ++ part)
      rw [List.length_append] at later
      rw [setAll, written]
      simpa using later

theorem withdraw_data_bytes (proof : List UInt8) (nullifierHash root : Bytes32) (toKey : Pubkey)
    (amount : Nat) :
    withdrawData proof nullifierHash root.toList toKey amount =
      some (withdrawDiscriminator ++ ((littleEndian 4 proof.length ++ proof) ++
        (nullifierHash.toList ++ (root.toList ++ (toKey.toList ++ littleEndian 8 amount))))) := by
  have filled := set_all_fills [withdrawDiscriminator, littleEndian 4 proof.length, proof,
    nullifierHash.toList, root.toList, toKey.toList, littleEndian 8 amount] []
  have disc : withdrawDiscriminator.length = 8 := rfl
  simp only [setAll, List.flatten_cons, List.flatten_nil, List.append_nil, List.nil_append,
    List.length_nil, List.length_append, Vector.length_toList, little_endian_length, disc,
    List.append_assoc, Option.bind_eq_bind, Option.bind_fun_some] at filled ⊢
  rw [← filled, withdrawData]
  have size : 8 + 4 + proof.length + 32 + 32 + 32 + 8 =
      8 + (4 + (proof.length + (32 + (32 + (32 + 8))))) := by omega
  rw [size]
  rfl

theorem deposit_data_bytes (commitment newRoot : Bytes32) (amount : Nat) :
    instructionData commitment newRoot.toList amount =
      some (depositDiscriminator ++ (commitment.toList ++ (newRoot.toList ++
        littleEndian 8 amount))) := by
  have filled := set_all_fills [depositDiscriminator, commitment.toList, newRoot.toList,
    littleEndian 8 amount] []
  have disc : depositDiscriminator.length = 8 := rfl
  simp only [setAll, List.flatten_cons, List.flatten_nil, List.append_nil, List.nil_append,
    List.length_nil, List.length_append, Vector.length_toList, little_endian_length, disc,
    Option.bind_eq_bind, Option.bind_fun_some] at filled
  rw [← filled]
  rfl

theorem deposit_args_read (args : DepositArgs) :
    Reads depositArgs (args.commitment.toList ++ (args.newRoot.toList ++
      littleEndian 8 args.amount.toNat)) args := by
  apply reads_bind (reads_array args.commitment)
  apply reads_bind (reads_array args.newRoot)
  exact reads_last (reads_u64 args.amount) fun amount => { args with amount }

theorem withdraw_args_read (args : WithdrawArgs) (short : args.proof.length < 2 ^ 32) :
    Reads withdrawArgs ((littleEndian 4 args.proof.length ++ args.proof) ++
      (args.nullifierHash.toList ++ (args.root.toList ++ (args.toKey.toList ++
        littleEndian 8 args.amount.toNat)))) args := by
  apply reads_bind (reads_vec short)
  apply reads_bind (reads_array args.nullifierHash)
  apply reads_bind (reads_array args.root)
  apply reads_bind (reads_array args.toKey)
  exact reads_last (reads_u64 args.amount) fun amount => { args with amount }

/-- Behind its discriminator the data reads as the arguments, to the last byte. -/
structure Decodes {Args : Type} (reader : Reader Args) (discriminator data : List UInt8)
    (args : Args) : Prop where
  opens : data.take 8 = discriminator
  reads : reader.run (data.drop 8) = some (args, [])

theorem decodes_append {Args : Type} {reader : Reader Args} {discriminator bytes : List UInt8}
    {args : Args} (eight : discriminator.length = 8) (reads : Reads reader bytes args) :
    Decodes reader discriminator (discriminator ++ bytes) args := by
  constructor
  · exact List.take_left' eight
  · rw [List.drop_left' eight]
    exact reads_whole reads

/-- What either form writes is what the program reads. -/
theorem instruction_data_decodes (withdrawn : WithdrawArgs) (deposited : DepositArgs)
    (short : withdrawn.proof.length < 2 ^ 32) :
    (∃ data, withdrawData withdrawn.proof withdrawn.nullifierHash withdrawn.root.toList
        withdrawn.toKey withdrawn.amount.toNat = some data ∧
      Decodes withdrawArgs withdrawDiscriminator data withdrawn) ∧
    ∃ data, instructionData deposited.commitment deposited.newRoot.toList
        deposited.amount.toNat = some data ∧
      Decodes depositArgs depositDiscriminator data deposited := by
  constructor
  · refine ⟨_, withdraw_data_bytes _ _ _ _ _, ?_⟩
    exact decodes_append rfl (withdraw_args_read withdrawn short)
  · refine ⟨_, deposit_data_bytes _ _ _, ?_⟩
    exact decodes_append rfl (deposit_args_read deposited)

/-- A proof of three bytes. -/
theorem short_proof_decodes :
    (∃ data, withdrawData [7, 8, 9] (Bytes32.ofNat 1) (Bytes32.ofNat 2).toList (Bytes32.ofNat 3)
        10_000_000 = some data ∧
      Decodes withdrawArgs withdrawDiscriminator data
        ⟨[7, 8, 9], Bytes32.ofNat 1, Bytes32.ofNat 2, Bytes32.ofNat 3, 10_000_000⟩) ∧
    ∃ data, instructionData (Bytes32.ofNat 4) (Bytes32.ofNat 5).toList 10_000_000 = some data ∧
      Decodes depositArgs depositDiscriminator data
        ⟨Bytes32.ofNat 4, Bytes32.ofNat 5, 10_000_000⟩ :=
  instruction_data_decodes
    ⟨[7, 8, 9], Bytes32.ofNat 1, Bytes32.ofNat 2, Bytes32.ofNat 3, 10_000_000⟩
    ⟨Bytes32.ofNat 4, Bytes32.ofNat 5, 10_000_000⟩ (by decide)

end Arguments

/-! The verifier's data. The proof comes first and has no length of its own; the
block behind it always has 140 bytes, so it is cut off from the end. -/
section Verifier

/-- `[proof, public_inputs].concat()`. -/
def verifierData (args : WithdrawArgs) : List UInt8 :=
  args.proof ++ encodePublicInputs args.root args.nullifierHash args.toKey args.amount

/-- `k`-th `u32` of the header, big-endian. -/
def headerWord (block : List UInt8) (k : Nat) : Nat :=
  BigEndian.value ((block.drop (4 * k)).take 4)

/-- The block has its length and reads back as what it was made from. -/
structure ReadsBack (args : WithdrawArgs) (block : List UInt8) : Prop where
  length : block.length = 140
  header : headerWord block 0 = 4 ∧ headerWord block 1 = 0 ∧ headerWord block 2 = 4
  root : inputBytes block 0 = args.root.toList
  nullifierHash : inputBytes block 1 = args.nullifierHash.toList
  recipient : inputBytes block 2 = (reduceToField args.toKey).toList
  amount : BigEndian.value (inputBytes block 3) = args.amount.toNat

/-- Two calls that agree on everything but a multiple of `modulus` in the recipient. -/
structure SameUpTo (modulus : Nat) (first second : WithdrawArgs) : Prop where
  proof : first.proof = second.proof
  root : first.root = second.root
  nullifierHash : first.nullifierHash = second.nullifierHash
  amount : first.amount = second.amount
  recipient : first.toKey.value % modulus = second.toKey.value % modulus

theorem header_word (args : WithdrawArgs) {k : Nat} (inside : k < 3) :
    headerWord (encodePublicInputs args.root args.nullifierHash args.toKey args.amount) k =
      headerWord header k := by
  have short : 4 * k + 4 ≤ header.length := by rw [header_length]; omega
  rw [encode_parts, headerWord, headerWord, List.drop_append_of_le_length (by omega),
    List.take_append_of_le_length (by rw [List.length_drop]; omega)]

theorem reads_back (args : WithdrawArgs) :
    ReadsBack args (encodePublicInputs args.root args.nullifierHash args.toKey args.amount) := by
  constructor
  · exact encode_length ..
  · rw [header_word args (by decide), header_word args (by decide), header_word args (by decide)]
    decide
  · exact input_root ..
  · exact input_nullifier ..
  · exact input_recipient ..
  · rw [input_amount, amount_value]

/-- Two addresses reduce to one string when the same multiples of the modulus are in reach. -/
theorem reduce_same_iff (key other : Pubkey) :
    reduceToField key = reduceToField other ↔
      key = other ∨ key.value % programModulus = other.value % programModulus ∧
        key.value < 5 * programModulus ∧ other.value < 5 * programModulus := by
  have values : reduceToField key = reduceToField other ↔
      (reduceToField key).value = (reduceToField other).value :=
    ⟨congrArg Bytes32.value, Bytes32.value_injective⟩
  have equal : key = other ↔ key.value = other.value :=
    ⟨congrArg Bytes32.value, Bytes32.value_injective⟩
  rw [values, equal, reduce_value, reduce_value]
  -- past five moduli four are taken off, which leaves more than any residue
  have positive : 0 < programModulus := by decide
  have left := Nat.mod_lt key.value positive
  have right := Nat.mod_lt other.value positive
  by_cases low : key.value < 5 * programModulus
  · by_cases small : other.value < 5 * programModulus
    · rw [if_pos low, if_pos small]
      constructor
      · exact fun same => Or.inr ⟨same, low, small⟩
      · rintro (same | ⟨same, _⟩)
        · rw [same]
        · exact same
    · rw [if_pos low, if_neg small]
      omega
  · rw [if_neg low]
    split <;> omega

/-- Equal data determine the calls up to the number the program reduces by. -/
theorem same_data_iff (first second : WithdrawArgs) :
    verifierData first = verifierData second ↔
      first.proof = second.proof ∧ first.root = second.root ∧
        first.nullifierHash = second.nullifierHash ∧ first.amount = second.amount ∧
        reduceToField first.toKey = reduceToField second.toKey := by
  constructor
  · intro same
    have width : (encodePublicInputs first.root first.nullifierHash first.toKey
        first.amount).length = (encodePublicInputs second.root second.nullifierHash second.toKey
        second.amount).length := by rw [encode_length, encode_length]
    obtain ⟨proof, block⟩ := List.append_inj' same width
    have here := reads_back first
    have there := reads_back second
    rw [block] at here
    refine ⟨proof, ?_, ?_, ?_, ?_⟩
    · exact Vector.toList_inj.mp (here.root.symm.trans there.root)
    · exact Vector.toList_inj.mp (here.nullifierHash.symm.trans there.nullifierHash)
    · exact UInt64.toNat_inj.mp (here.amount.symm.trans there.amount)
    · exact Vector.toList_inj.mp (here.recipient.symm.trans there.recipient)
  · rintro ⟨proof, root, nullifierHash, amount, recipient⟩
    simp only [verifierData, encode_parts, proof, root, nullifierHash, amount, recipient]

/-- The block reads back, and equal data mean equal calls up to the scalar modulus. -/
structure Pinned (first second : WithdrawArgs) : Prop where
  reads : ∀ args, ReadsBack args
    (encodePublicInputs args.root args.nullifierHash args.toKey args.amount)
  same : verifierData first = verifierData second → SameUpTo bn254Modulus first second

/-- Two calls that differ in nothing but base moduli on the recipient, within the loop's reach. -/
structure Clash (first second : WithdrawArgs) : Prop where
  proof : first.proof = second.proof
  root : first.root = second.root
  nullifierHash : first.nullifierHash = second.nullifierHash
  amount : first.amount = second.amount
  apart : first.toKey ≠ second.toKey
  residue : first.toKey.value % programModulus = second.toKey.value % programModulus
  reached : first.toKey.value < 5 * programModulus ∧ second.toKey.value < 5 * programModulus

theorem same_up_to_program {first second : WithdrawArgs}
    (same : verifierData first = verifierData second) :
    SameUpTo programModulus first second := by
  obtain ⟨proof, root, nullifierHash, amount, recipient⟩ := (same_data_iff first second).mp same
  refine ⟨proof, root, nullifierHash, amount, ?_⟩
  rcases (reduce_same_iff _ _).mp recipient with equal | ⟨residue, _⟩
  · rw [equal]
  · exact residue

/-- Up to the constant of `instructions.rs` the data always pin the call; up to the scalar
modulus they do unless the two calls clash. -/
theorem pinned_iff (first second : WithdrawArgs) :
    (verifierData first = verifierData second → SameUpTo programModulus first second) ∧
      (Pinned first second ↔ ¬ Clash first second) := by
  refine ⟨same_up_to_program, ?_⟩
  constructor
  · intro pinned clash
    have reduced := (reduce_same_iff first.toKey second.toKey).mpr
      (Or.inr ⟨clash.residue, clash.reached⟩)
    have congruent := (pinned.same ((same_data_iff first second).mpr
      ⟨clash.proof, clash.root, clash.nullifierHash, clash.amount, reduced⟩)).recipient
    -- no multiple of the base modulus in reach is one of the scalar modulus
    have residue := clash.residue
    have reached := clash.reached
    apply clash.apart
    apply Bytes32.value_injective
    simp only [bn254Modulus, programModulus] at congruent residue reached
    omega
  · intro free
    refine ⟨reads_back, fun same => ?_⟩
    obtain ⟨proof, root, nullifierHash, amount, recipient⟩ := (same_data_iff first second).mp same
    refine ⟨proof, root, nullifierHash, amount, ?_⟩
    rcases (reduce_same_iff _ _).mp recipient with equal | ⟨residue, reached⟩
    · rw [equal]
    · by_contra different
      exact free ⟨proof, root, nullifierHash, amount, fun equal => different (by rw [equal]),
        residue, reached⟩

/-- The zero address and the base modulus share their verifier data. -/
theorem zero_and_modulus_share :
    ¬ Pinned ⟨[], Bytes32.zero, Bytes32.zero, Bytes32.zero, 1⟩
      ⟨[], Bytes32.zero, Bytes32.zero, bn254FrModulus, 1⟩ := by
  intro pinned
  have congruent := (pinned.same (by decide +kernel)).recipient
  revert congruent
  decide +kernel

end Verifier

end PrivateTransfer.InstructionData
