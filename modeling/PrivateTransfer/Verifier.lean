import PrivateTransfer.Circuit
import PrivateTransfer.PoolRuns
import PrivateTransfer.Poseidon2

/-!
The verifier program is not part of the repository. It is taken as any predicate
on bytes that decides the circuit on the residues it reads from the block the
pool program appends to a proof.
-/

namespace PrivateTransfer.Verifier

open PublicInputs PoolState PoolProgram PoolRuns Circuit

def readInputs (block : List UInt8) : Circuit.PublicInputs where
  root := inputField block 0
  nullifierHash := inputField block 1
  recipient := inputField block 2
  amount := inputField block 3

variable (poseidon2Permutation : Vector Field 4 → Vector Field 4)

/-- A proof is accepted exactly when some private inputs satisfy the circuit. -/
structure Decides (verifier : List UInt8 → Bool) : Prop where
  exact : ∀ proof root nullifierHash recipient amount,
    verifier (proof ++ encodePublicInputs root nullifierHash recipient amount) = true ↔
      ∃ hidden, Accepts poseidon2Permutation
        (readInputs (encodePublicInputs root nullifierHash recipient amount)) hidden

/-! What a withdrawal shows the circuit. -/
section Shown

def amountField (amount : UInt64) : Field := Fin.ofNat bn254Modulus amount.toNat

def shownOf (args : WithdrawArgs) : Circuit.PublicInputs where
  root := fieldOf args.root
  nullifierHash := fieldOf args.nullifierHash
  recipient := fieldOf (reduceToField args.toKey)
  amount := amountField args.amount

theorem amount_field_injective {left right : UInt64}
    (same : amountField left = amountField right) : left = right := by
  have small : ∀ amount : UInt64, amount.toNat < bn254Modulus :=
    fun amount => Nat.lt_trans amount.toNat_lt (by decide)
  have residues : left.toNat % bn254Modulus = right.toNat % bn254Modulus := congrArg Fin.val same
  rw [Nat.mod_eq_of_lt (small left), Nat.mod_eq_of_lt (small right)] at residues
  exact UInt64.toNat_inj.mp residues

theorem read_encoded (args : WithdrawArgs) :
    readInputs (encodePublicInputs args.root args.nullifierHash args.toKey args.amount) =
      shownOf args := by
  rw [readInputs, shownOf, inputField, inputField, inputField, inputField, input_root,
    input_nullifier, input_recipient, input_amount, amount_value]
  rfl

theorem decides_withdrawal {verifier : List UInt8 → Bool}
    (decides : Decides poseidon2Permutation verifier) (args : WithdrawArgs) :
    verifier (args.proof ++
        encodePublicInputs args.root args.nullifierHash args.toKey args.amount) = true ↔
      ∃ hidden, Accepts poseidon2Permutation (shownOf args) hidden := by
  rw [decides.exact, read_encoded]

end Shown

/-! A verifier of this kind exists for every permutation. -/
section Ideal

open Classical in
noncomputable def idealVerifier (data : List UInt8) : Bool :=
  decide (∃ hidden,
    Accepts poseidon2Permutation (readInputs (data.drop (data.length - 140))) hidden)

theorem ideal_decides : Decides poseidon2Permutation (idealVerifier poseidon2Permutation) where
  exact := by
    intro proof root nullifierHash recipient amount
    have last : (proof ++ encodePublicInputs root nullifierHash recipient amount).length - 140 =
        proof.length := by
      rw [List.length_append, encode_length, Nat.add_sub_cancel]
    simp only [idealVerifier, decide_eq_true_eq]
    rw [last, List.drop_left]

end Ideal

/-! Nothing but the verdict on a withdrawal's bytes depends on the verifier, so a
run can be replayed under one that accepts everything. -/
section Replay
variable {verifier : List UInt8 → Bool} {deployment : Deployment}

def Verified (verifier : List UInt8 → Bool) (tx : Transaction deployment) : Prop :=
  ∀ args, withdrawalOf tx = some args → verifier (args.proof ++
    encodePublicInputs args.root args.nullifierHash args.toKey args.amount) = true

theorem withdraw_verified {before after : Chain} {tx : Transaction deployment}
    {accounts : InitWithdraw} {args : WithdrawArgs}
    (proved : verifier (args.proof ++
      encodePublicInputs args.root args.nullifierHash args.toKey args.amount) = true)
    (done : withdraw (fun _ => true) deployment before tx accounts args = .ok after) :
    withdraw verifier deployment before tx accounts args = .ok after := by
  rw [withdraw] at done ⊢
  simp only [handlerWithdraw, proved] at done ⊢
  exact done

theorem process_verified {before after : Chain} {tx : Transaction deployment}
    (verified : Verified verifier tx)
    (done : process (fun _ => true) deployment before tx = .ok after) :
    process verifier deployment before tx = .ok after := by
  rw [process, bind_ok_iff] at done ⊢
  obtain ⟨started, unaborted, done⟩ := done
  refine ⟨started, unaborted, ?_⟩
  cases called : tx.instruction with
  | pool accounts => rwa [called] at done
  | deposit accounts args => rwa [called] at done
  | transfer sender receiver amount => rwa [called] at done
  | withdraw accounts args =>
      -- the one instruction that asks the verifier
      rw [called] at done
      exact withdraw_verified (verified args (by rw [withdrawalOf, called])) done

theorem history_verified (launch : Launch verifier deployment)
    (calls : List (Transaction deployment)) (verified : ∀ tx ∈ calls, Verified verifier tx)
    (committed : Runs.allCommit (process (fun _ => true) deployment) launch.started calls = true) :
    launch.history calls = calls := by
  apply Runs.all_commit_accepted
  apply Runs.all_commit_mono _ _ _ _ committed
  intro before tx member after done
  exact process_verified (verified tx member) done

end Replay

/-! One deployment with the addresses derived for the program's identifier, and
transactions of the configured payer on it. -/
section Sample

def payer : Pubkey :=
  Bytes32.ofNat 0x3520486996aaee6afb5c09c233d6f33870f692d20186415528a46ad0ed825f59

/-- The hash of the `Prover.toml` nullifier, in its canonical and its other spelling. -/
def spentHash : Bytes32 :=
  Bytes32.ofNat 0x0be69a08f6223439e8fe6327b5b9f3d1188882d443ddc38f614b8a8df916eae0

def respentHash : Bytes32 :=
  Bytes32.ofNat 0x3c4ae87bd753d463a14ea8de373b4c2e40bc6b1cbd973420a52d8021e916eae1

def sampleDeployment : Deployment where
  pool := Bytes32.ofNat 0x06c3ba0c0ae3b5f1c57b7766f14d32fd255d572d9e211f57f95adc51d205e54f
  poolVault := Bytes32.ofNat 0x644ec73e8429b218d2755aa63d95ee21b813364696649e0db1c5342596c4dcb4
  nullifierRecord := fun nullifierHash =>
    if nullifierHash = respentHash then
      Bytes32.ofNat 0xc992bed4e7f07b547465dc28351725491eac2edbec8061e5f116e290af64abfa
    else Bytes32.ofNat 0x48fe1eb83b49866b4cd5c8f00016116564cccc9512c03e5a5610ccfc94d3fbd8
  poolRent := 3_563_520
  recordRent := 1_726_080
  poolApart := by decide
  recordApart := by
    intro nullifierHash
    split <;> decide

def sampleTransaction (instruction : Instruction) (touched : Pubkey) :
    Transaction sampleDeployment where
  signers := [payer]
  writable := [sampleDeployment.pool, sampleDeployment.poolVault, payer, touched]
  clock := some 1_700_000_000
  aborted := false
  instruction := instruction
  vaultUnsigned := by decide

def creationAccounts : InitPool where
  pool := sampleDeployment.pool
  poolVault := sampleDeployment.poolVault
  authority := payer
  systemProgram := systemProgramId

def sampleCreation : Transaction sampleDeployment :=
  sampleTransaction (.pool creationAccounts) payer

def sampleDeposit (commitment newRoot : Bytes32) (amount : UInt64) :
    Transaction sampleDeployment :=
  sampleTransaction (.deposit
    { pool := sampleDeployment.pool, poolVault := sampleDeployment.poolVault, depositor := payer,
      systemProgram := systemProgramId }
    { commitment, newRoot, amount }) payer

def sampleArgs (nullifierHash root : Bytes32) (amount : UInt64) : WithdrawArgs where
  proof := []
  nullifierHash := nullifierHash
  root := root
  toKey := payer
  amount := amount

def sampleWithdrawal (nullifierHash root : Bytes32) (amount : UInt64) :
    Transaction sampleDeployment :=
  sampleTransaction (.withdraw
    { pool := sampleDeployment.pool
      nullifierRecord := sampleDeployment.nullifierRecord nullifierHash
      poolVault := sampleDeployment.poolVault, recipient := payer, payer
      verifierProgram := verifierProgramId, systemProgram := systemProgramId }
    (sampleArgs nullifierHash root amount))
    (sampleDeployment.nullifierRecord nullifierHash)

def sampleGenesis : Chain where
  pool := none
  records := fun _ => none
  lamports := fun key => if key = payer then 10_000_000_000 else 0
  log := []

theorem creation_commits :
    Runs.allCommit (process (fun _ => true) sampleDeployment) sampleGenesis [sampleCreation] =
      true := by
  decide +kernel

def sampleLaunch (verifier : List UInt8 → Bool) : Launch verifier sampleDeployment where
  genesis := sampleGenesis
  creation := sampleCreation
  accounts := creationAccounts
  started := Runs.commit (process (fun _ => true) sampleDeployment) sampleGenesis sampleCreation
  unborn := rfl
  unspent := fun _ => rfl
  silent := rfl
  called := rfl
  launched := process_verified (fun _ called => absurd called nofun)
    (Runs.all_commit_singleton _ _ _ creation_commits)

/-! The `Prover.toml` note on that deployment. -/

def oneSol : UInt64 := 1_000_000_000

def proverRoot : Bytes32 := bytesOf Poseidon2.proverShown.root

def noteDeposit : Transaction sampleDeployment :=
  sampleDeposit (bytesOf Poseidon2.proverCommitment) proverRoot oneSol

def noteWithdrawal (nullifierHash : Bytes32) : Transaction sampleDeployment :=
  sampleWithdrawal nullifierHash proverRoot oneSol

theorem note_amount : amountField oneSol = Poseidon2.proverShown.amount := by decide

theorem note_accepted (nullifierHash : Bytes32)
    (denotes : fieldOf nullifierHash = Poseidon2.proverShown.nullifierHash) :
    Accepts Poseidon2.poseidon2Permutation (shownOf (sampleArgs nullifierHash proverRoot oneSol))
      Poseidon2.proverHidden :=
  Circuit.accepts_same _ Poseidon2.prover_accepted (fieldOf_bytesOf _) denotes note_amount

/-- A withdrawal of the note is verified under any spelling of its hash. -/
theorem note_verified (nullifierHash : Bytes32)
    (denotes : fieldOf nullifierHash = Poseidon2.proverShown.nullifierHash) :
    Verified (idealVerifier Poseidon2.poseidon2Permutation) (noteWithdrawal nullifierHash) := by
  intro args called
  obtain rfl := Option.some.inj called
  rw [decides_withdrawal _ (ideal_decides Poseidon2.poseidon2Permutation)]
  exact ⟨Poseidon2.proverHidden, note_accepted nullifierHash denotes⟩

theorem deposit_verified {verifier : List UInt8 → Bool} (commitment newRoot : Bytes32)
    (amount : UInt64) : Verified verifier (sampleDeposit commitment newRoot amount) :=
  fun _ called => absurd called nofun

theorem spent_hash_denotes : fieldOf spentHash = Poseidon2.proverShown.nullifierHash := by
  decide +kernel

theorem respent_hash_denotes : fieldOf respentHash = Poseidon2.proverShown.nullifierHash := by
  decide +kernel

/-- The note deposited with its own root and withdrawn. -/
def honestSpend : List (Transaction sampleDeployment) := [noteDeposit, noteWithdrawal spentHash]

theorem honest_commits :
    Runs.allCommit (process (fun _ => true) sampleDeployment)
      (sampleLaunch (idealVerifier Poseidon2.poseidon2Permutation)).started honestSpend = true := by
  decide +kernel

theorem honest_history :
    (sampleLaunch (idealVerifier Poseidon2.poseidon2Permutation)).history honestSpend =
      honestSpend := by
  apply history_verified _ _ _ honest_commits
  intro tx member
  simp only [honestSpend, List.mem_cons, List.not_mem_nil, or_false] at member
  rcases member with rfl | rfl
  · exact deposit_verified _ _ _
  · exact note_verified spentHash spent_hash_denotes

end Sample

end PrivateTransfer.Verifier
