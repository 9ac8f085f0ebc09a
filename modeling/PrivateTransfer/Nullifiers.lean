import PrivateTransfer.Accounting

/-!
One withdrawal per nullifier. The program keeps one record per 32-byte string;
the proof speaks about a field element, which several strings denote. Uniqueness
carries over to field elements where every string is the canonical one.
-/

namespace PrivateTransfer.Nullifiers

open PoolState PoolProgram PoolRuns Accounting Verifier Poseidon2

variable {verifier : List UInt8 → Bool} {deployment : Deployment}

def spentNullifiers (history : List (Transaction deployment)) : List Field :=
  (withdrawals history).map fun args => fieldOf args.nullifierHash

def SpendsOnce (history : List (Transaction deployment)) : Prop :=
  (spentNullifiers history).Nodup

/-- In a run whose withdrawals all carry a reduced nullifier hash, no field element
is spent twice. -/
theorem canonical_spends_once (launch : Launch verifier deployment)
    (calls : List (Transaction deployment))
    (canonical : ∀ args ∈ withdrawals calls, Canonical args.nullifierHash) :
    SpendsOnce (launch.history calls) := by
  have records := trace_records launch (launch.run_trace calls)
  have reduced : ∀ hash ∈ (withdrawals (launch.history calls)).map WithdrawArgs.nullifierHash,
      Canonical hash := by
    intro hash member
    obtain ⟨args, spent, rfl⟩ := List.mem_map.mp member
    exact canonical args (launch.sent_subset calls spent)
  have split : spentNullifiers (launch.history calls) =
      ((withdrawals (launch.history calls)).map WithdrawArgs.nullifierHash).map fieldOf := by
    rw [spentNullifiers, List.map_map]
    rfl
  rw [SpendsOnce, split]
  -- distinct strings stay distinct as field elements because all of them are canonical
  apply List.Nodup.map_on _ records.distinct
  intro left inLeft right inRight same
  exact canonical_injective (reduced left inLeft) (reduced right inRight) same

/-! One note, spent under both spellings of its nullifier hash. -/
section Respent

def doubleSpend : List (Transaction sampleDeployment) :=
  [noteDeposit, sampleDeposit Bytes32.zero Bytes32.zero oneSol, noteWithdrawal spentHash,
    noteWithdrawal respentHash]

theorem double_spend_commits :
    Runs.allCommit (process (fun _ => true) sampleDeployment)
      (sampleLaunch (idealVerifier poseidon2Permutation)).started doubleSpend = true := by
  decide +kernel

/-- Both withdrawals commit and denote the one nullifier. -/
theorem double_spend_respends :
    Decides poseidon2Permutation (idealVerifier poseidon2Permutation) ∧
      ¬ SpendsOnce ((sampleLaunch (idealVerifier poseidon2Permutation)).history doubleSpend) := by
  refine ⟨ideal_decides poseidon2Permutation, ?_⟩
  have verified : ∀ tx ∈ doubleSpend, Verified (idealVerifier poseidon2Permutation) tx := by
    intro tx member
    simp only [doubleSpend, List.mem_cons, List.not_mem_nil, or_false] at member
    rcases member with rfl | rfl | rfl | rfl
    · exact deposit_verified _ _ _
    · exact deposit_verified _ _ _
    · exact note_verified spentHash spent_hash_denotes
    · exact note_verified respentHash respent_hash_denotes
  rw [history_verified _ doubleSpend verified double_spend_commits]
  intro once
  have pair : spentNullifiers doubleSpend = [fieldOf spentHash, fieldOf respentHash] := rfl
  have same := spent_hash_denotes.trans respent_hash_denotes.symm
  rw [SpendsOnce, pair, same] at once
  exact absurd once (by simp)

theorem honest_canonical : ∀ args ∈ withdrawals honestSpend, Canonical args.nullifierHash := by
  intro args member
  obtain rfl : args = sampleArgs spentHash proverRoot oneSol := List.mem_singleton.mp member
  have reduced : Canonical spentHash := by decide +kernel
  exact reduced

theorem honest_spends_once :
    SpendsOnce ((sampleLaunch (idealVerifier poseidon2Permutation)).history honestSpend) :=
  canonical_spends_once _ honestSpend honest_canonical

end Respent

end PrivateTransfer.Nullifiers
