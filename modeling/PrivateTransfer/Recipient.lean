import PrivateTransfer.Circuit
import PrivateTransfer.Poseidon2
import PrivateTransfer.PublicInputs
import PrivateTransfer.WithdrawClient

/-!
What ties a withdrawal to its recipient. On the byte side the program and the
client reduce the address separately and have to meet; on the circuit side the
reduced address is a public input that the constraints would have to mention.
-/

namespace PrivateTransfer.Recipient

open PublicInputs Circuit

/-- The program reduces `recipient` to the canonical residue the client proved. -/
structure Agrees (recipient : Pubkey) : Prop where
  residue : (reduceToField recipient).value = recipient.value % bn254Modulus
  reduced : (reduceToField recipient).value < bn254Modulus
  client : reduceToField recipient = WithdrawClient.reduceToField recipient
  handed : ∀ root nullifierHash amount,
    inputBytes (encodePublicInputs root nullifierHash recipient amount) 2 =
      (WithdrawClient.reduceToField recipient).toList

theorem reduce_identity {recipient : Pubkey} (small : recipient.value < bn254Modulus) :
    reduceToField recipient = recipient := by
  have below := Nat.lt_trans small modulus_exceeds
  rw [reduceToField, if_pos ((below_modulus_iff recipient).mpr below)]

/-- From the scalar modulus on, up to four base moduli are not up to five scalar ones:
no multiple of the one within reach is a multiple of the other. -/
theorem reduce_misses {recipient : Pubkey} (large : bn254Modulus ≤ recipient.value) :
    (reduceToField recipient).value ≠ recipient.value % bn254Modulus := by
  have bound := recipient.value_lt
  rw [reduce_value]
  -- past five base moduli the loop has stopped early, with a modulus or more left over
  by_cases within : recipient.value < 5 * programModulus
  · rw [if_pos within]
    simp only [bn254Modulus, programModulus] at large within ⊢
    omega
  · rw [if_neg within]
    simp only [bn254Modulus, programModulus] at large within ⊢
    omega

/-- Byte-for-byte agreement holds exactly below the scalar field modulus. -/
theorem recipient_agreement_iff (recipient : Pubkey) :
    Agrees recipient ↔ recipient.value < bn254Modulus := by
  constructor
  · intro agrees
    by_contra large
    exact reduce_misses (Nat.le_of_not_lt large) agrees.residue
  · intro small
    have same : reduceToField recipient = WithdrawClient.reduceToField recipient := by
      rw [reduce_identity small]
      apply Bytes32.value_injective
      rw [WithdrawClient.reduce_value, Nat.mod_eq_of_lt small]
    refine ⟨?_, ?_, same, ?_⟩
    · rw [reduce_identity small, Nat.mod_eq_of_lt small]
    · rwa [reduce_identity small]
    · intro root nullifierHash amount
      rw [input_recipient, same]

/-- The payer address configured for the client, `4aPAEEmJdLz4fYE44Krad3MP8Q1wAUScg3zMuC8fcBur`. -/
def configuredPayer : Pubkey :=
  Bytes32.ofNat 0x3520486996aaee6afb5c09c233d6f33870f692d20186415528a46ad0ed825f59

theorem configured_payer_disagrees : ¬ Agrees configuredPayer := by
  intro agrees
  have residue := agrees.residue
  revert residue
  decide +kernel

/-! The circuit. Its constraints are the two equations of `accepts_iff`, and the
recipient occurs in neither. -/
section Binding

variable (poseidon2Permutation : Vector Field 4 → Vector Field 4)

/-- The private inputs that satisfy `shown` satisfy it for no other recipient. -/
def BindsRecipient (shown : Circuit.PublicInputs) (hidden : PrivateInputs) : Prop :=
  ∀ other, other ≠ shown.recipient →
    ¬ Accepts poseidon2Permutation { shown with recipient := other } hidden

theorem recipient_free {shown : Circuit.PublicInputs} {hidden : PrivateInputs}
    (accepted : Accepts poseidon2Permutation shown hidden) (other : Field) :
    Accepts poseidon2Permutation { shown with recipient := other } hidden :=
  accepts_same poseidon2Permutation accepted rfl rfl rfl

/-- No accepted assignment is bound to its recipient. -/
theorem recipient_never_bound (shown : Circuit.PublicInputs) (hidden : PrivateInputs)
    (accepted : Accepts poseidon2Permutation shown hidden) :
    ¬ BindsRecipient poseidon2Permutation shown hidden := by
  intro bound
  have another : shown.recipient + 1 ≠ shown.recipient := by
    intro same
    have wrapped : (shown.recipient.val + 1) % bn254Modulus = shown.recipient.val :=
      congrArg Fin.val same
    have inside := shown.recipient.isLt
    simp only [bn254Modulus] at wrapped inside
    omega
  exact bound _ another (recipient_free poseidon2Permutation accepted _)

end Binding

section ProverToml
open Poseidon2

theorem prover_toml_never_bound :
    ¬ BindsRecipient poseidon2Permutation proverShown proverHidden :=
  recipient_never_bound poseidon2Permutation proverShown proverHidden prover_accepted

/-- The next recipient up is accepted as well. -/
theorem prover_toml_other_recipient :
    ¬ (Accepts poseidon2Permutation proverShown proverHidden →
      BindsRecipient poseidon2Permutation proverShown proverHidden) := by
  intro binds
  have other := recipient_free poseidon2Permutation prover_accepted 0x075bcd16
  exact binds prover_accepted 0x075bcd16 (by decide) other

end ProverToml

end PrivateTransfer.Recipient
