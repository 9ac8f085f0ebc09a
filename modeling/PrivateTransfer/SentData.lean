import PrivateTransfer.Issuance

/-!
The data that either form sends, whatever root it was given. The root comes from a service
as hex of any length; what is set behind it goes over whatever is too long.
-/

namespace PrivateTransfer.SentData

open Borsh DepositClient InstructionData PoolProgram
open Issuance (callOf call_decodes)

theorem set_bytes_cut {target source data : List UInt8} {offset : Nat}
    (written : setBytes target source offset = some data) :
    data.take (offset + source.length) = target.take offset ++ source ∧
      data.length = target.length := by
  rw [setBytes] at written
  split at written
  · rename_i fits
    obtain rfl := Option.some.inj written
    have front : (target.take offset ++ source).length = offset + source.length := by
      rw [List.length_append, List.length_take_of_le (by omega)]
    constructor
    · exact List.take_left' front
    · rw [List.length_append, front, List.length_drop]
      omega
  · cases written

/-- Whatever is put in the place of the root reads as some root and touches nothing else. -/
theorem withdraw_data_layout {proof root data : List UInt8} {nullifierHash : Bytes32}
    {recipient : Pubkey} {amount : Nat}
    (written : withdrawData proof nullifierHash root recipient amount = some data) :
    ∃ read : Bytes32, data = withdrawDiscriminator ++ ((littleEndian 4 proof.length ++ proof) ++
      (nullifierHash.toList ++ (read.toList ++ (recipient.toList ++ littleEndian 8 amount)))) := by
  simp only [withdrawData, Option.bind_eq_bind, Option.bind_eq_some_iff] at written
  obtain ⟨one, opened, two, counted, three, proved, four, spent, five, rooted, six, paid,
    summed⟩ := written
  have disc : withdrawDiscriminator.length = 8 := rfl
  obtain ⟨oneFront, oneLength⟩ := set_bytes_cut opened
  obtain ⟨twoFront, twoLength⟩ := set_bytes_cut counted
  obtain ⟨threeFront, threeLength⟩ := set_bytes_cut proved
  obtain ⟨fourFront, fourLength⟩ := set_bytes_cut spent
  obtain ⟨_, fiveLength⟩ := set_bytes_cut rooted
  obtain ⟨sixFront, sixLength⟩ := set_bytes_cut paid
  obtain ⟨sevenFront, sevenLength⟩ := set_bytes_cut summed
  simp only [Vector.length_toList, little_endian_length, disc, List.length_replicate]
    at oneFront oneLength twoFront fourFront sixFront sevenFront
  -- what stands in front of the root stays when the root is set, however long it is
  have kept := set_bytes_before rooted (Nat.le_refl _)
  have inside : (five.drop (0 + 8 + 4 + proof.length + 32)).length = 40 + 32 := by
    rw [List.length_drop]
    omega
  have whole : data.length = 0 + 8 + 4 + proof.length + 32 + 32 + 32 + 8 := by omega
  refine ⟨⟨((five.drop (0 + 8 + 4 + proof.length + 32)).take 32).toArray, by simp; omega⟩, ?_⟩
  calc data = data.take (0 + 8 + 4 + proof.length + 32 + 32 + 32 + 8) :=
        (List.take_of_length_le (Nat.le_of_eq whole)).symm
    _ = ((five.take (0 + 8 + 4 + proof.length + 32) ++
          (five.drop (0 + 8 + 4 + proof.length + 32)).take 32) ++ recipient.toList) ++
          littleEndian 8 amount := by
        rw [sevenFront, sixFront, List.take_add]
    _ = _ := by
        rw [kept, fourFront, threeFront, twoFront, oneFront]
        simp only [List.take_zero, List.nil_append, List.append_assoc]
        rfl

/-- `setBigUint64` keeps the low 64 bits. -/
theorem little_endian_amount (amount : Nat) :
    littleEndian 8 amount = littleEndian 8 (UInt64.ofNat amount).toNat := by
  apply congrArg List.reverse
  apply BigEndian.value_injective
  · simp
  · simp [UInt64.toNat_ofNat']

/-- What the program reads is ordered by the script in all but the root. -/
theorem withdraw_data_read {proof root data : List UInt8} {nullifierHash : Bytes32}
    {recipient : Pubkey} {amount : Nat}
    (written : withdrawData proof nullifierHash root recipient amount = some data)
    (short : data.length < 2 ^ 32) :
    ∃ read : Bytes32, callOf withdrawDiscriminator withdrawArgs data =
      some ⟨proof, nullifierHash, read, recipient, UInt64.ofNat amount⟩ := by
  obtain ⟨read, rfl⟩ := withdraw_data_layout written
  have proofShort : proof.length < 2 ^ 32 := by
    simp only [List.length_append] at short
    omega
  refine ⟨read, ?_⟩
  rw [little_endian_amount]
  exact call_decodes (decodes_append rfl (withdraw_args_read
    ⟨proof, nullifierHash, read, recipient, UInt64.ofNat amount⟩ proofShort))

theorem deposit_data_layout {root data : List UInt8} {commitment : Bytes32} {amount : Nat}
    (written : instructionData commitment root amount = some data) :
    ∃ read : Bytes32, data = depositDiscriminator ++ (commitment.toList ++ (read.toList ++
      littleEndian 8 amount)) := by
  simp only [instructionData, Option.bind_eq_bind, Option.bind_eq_some_iff] at written
  obtain ⟨one, opened, two, placed, three, rooted, paid⟩ := written
  have disc : depositDiscriminator.length = 8 := rfl
  obtain ⟨oneFront, oneLength⟩ := set_bytes_cut opened
  obtain ⟨twoFront, twoLength⟩ := set_bytes_cut placed
  obtain ⟨_, threeLength⟩ := set_bytes_cut rooted
  obtain ⟨lastFront, lastLength⟩ := set_bytes_cut paid
  have kept := set_bytes_before rooted (Nat.le_refl _)
  simp only [Vector.length_toList, List.length_reverse, BigEndian.digits_length, disc,
    List.length_replicate, Nat.zero_add, Nat.reduceAdd] at oneFront oneLength twoFront lastFront
  have inside : (three.drop 40).length = 8 + 32 := by
    rw [List.length_drop]
    omega
  refine ⟨⟨((three.drop 40).take 32).toArray, by simp; omega⟩, ?_⟩
  calc data = data.take 80 := (List.take_of_length_le (by omega)).symm
    _ = (three.take 40 ++ (three.drop 40).take 32) ++ littleEndian 8 amount := by
        rw [lastFront, ← List.take_add]
        rfl
    _ = _ := by
        rw [kept, twoFront, oneFront]
        simp only [List.take_zero, List.nil_append, List.append_assoc]
        rfl

theorem deposit_data_read {root data : List UInt8} {commitment : Bytes32} {amount : Nat}
    (written : instructionData commitment root amount = some data) :
    ∃ read : Bytes32, callOf depositDiscriminator depositArgs data =
      some ⟨commitment, read, UInt64.ofNat amount⟩ := by
  obtain ⟨read, rfl⟩ := deposit_data_layout written
  refine ⟨read, ?_⟩
  rw [little_endian_amount]
  exact call_decodes (decodes_append rfl
    (deposit_args_read ⟨commitment, read, UInt64.ofNat amount⟩))

end PrivateTransfer.SentData
