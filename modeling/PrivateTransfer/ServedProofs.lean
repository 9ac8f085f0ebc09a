import PrivateTransfer.Backing
import PrivateTransfer.MerkleProofs
import PrivateTransfer.TreeRecovery
import PrivateTransfer.TreeWrites

/-!
`get_proof` while `add_leaf` writes. The reads of the one and the writes of the other come
in any order, with no transaction around either. A served path is one of the old tree or of
the new one, whichever it found at the height where its path meets the new leaf's; the root
is read after all levels and may be of the other tree.
-/

namespace PrivateTransfer.ServedProofs

open MerkleService (Hex64 emptyLeaf hashHex hexOf)
open RedisTree Script TreeWrites

section Schedules
variable (compress : Hex64 → Hex64 → Hex64) (depth : Nat) (leaves : List Hex64)
  (commitment : Hex64)

/-- One order of the reads of `get_proof` and the requests of `add_leaf`. -/
def Served (i : Nat) (store : Store) (log : List (Request × List Request))
    (served : Except TreeError (List Hex64 × List Bool × Hex64)) (added : Except TreeError Hex64)
    (reached : Store) : Prop :=
  Woven (serve compress) [] (getProof i depth) (addLeaf leaves.length commitment depth) store log
    served added reached

/-- The triple folds from the leaf to its own root. -/
def Folds (leaf : Hex64) (served : Except TreeError (List Hex64 × List Bool × Hex64)) : Prop :=
  ∃ proof isEven root, served = .ok (proof, isEven, root) ∧
    MerkleTree.climb compress leaf (proof.zip isEven) = root

/-- Where the path of leaf `i` meets that of leaf `n`, the level is read on the same side of
its write as the root. -/
def ReadTogether (n i : Nat) (log : List (Request × List Request)) : Prop :=
  ∀ d < depth, MerkleTree.Meets n i d → ∀ levelMade rootMade, (.getLevel d, levelMade) ∈ log →
    (.getRoot, rootMade) ∈ log → wroteLevel levelMade d = wroteRoot rootMade

variable {compress depth leaves commitment} {i : Nat} {store reached : Store}
  {log : List (Request × List Request)}
  {served : Except TreeError (List Hex64 × List Bool × Hex64)} {added : Except TreeError Hex64}

theorem folds_zip {leaf root : Hex64} (path : List (Hex64 × Bool)) :
    Folds compress leaf (.ok (path.map Prod.fst, path.map Prod.snd, root)) ↔
      MerkleTree.climb compress leaf path = root := by
  have zipped : (path.map Prod.fst).zip (path.map Prod.snd) = path := by
    rw [List.zip_map']
    exact List.map_id path
  constructor
  · rintro ⟨proof, isEven, root', answered, climbed⟩
    cases answered
    rwa [zipped] at climbed
  · intro climbed
    exact ⟨_, _, _, rfl, by rwa [zipped]⟩

/-- Any order of reads and writes answers the reader from mixed stores only. -/
theorem served_mixed (represents : Represents compress depth leaves store)
    (woven : Served compress depth leaves commitment i store log served added reached) :
    Answered (serve compress) (Mixed compress depth leaves commitment) (getProof i depth) log
      served :=
  woven_answered mixed_step woven (get_proof_reads compress i depth) (mixed_start represents)
    (add_writes represents)

/-- A served proof folds exactly if the one level that matters and the root are read together,
or the new leaf leaves the root as it was. -/
theorem served_folds_iff (represents : Represents compress depth leaves store)
    (inside : i < leaves.length) (fits : i < 2 ^ depth)
    (woven : Served compress depth leaves commitment i store log served added reached) :
    Folds compress leaves[i] served ↔
      ReadTogether depth leaves.length i log ∨
        MerkleTree.root compress emptyLeaf (leaves ++ [commitment]) depth =
          MerkleTree.root compress emptyLeaf leaves depth := by
  obtain ⟨flags, last, rfl, levels, ⟨rootMade, asked⟩, roots⟩ :=
    served_answered (served_mixed represents woven)
  have leaf : leaves[i] = MerkleTree.padded emptyLeaf leaves i :=
    (List.getD_eq_getElem leaves emptyLeaf inside).symm
  have together : ReadTogether depth leaves.length i log ↔
      ∀ d < depth, MerkleTree.Meets leaves.length i d → flags d = last := by
    constructor
    · intro together d low meets
      obtain ⟨⟨levelMade, found⟩, flagged⟩ := levels d low
      have same := together d low meets levelMade rootMade found asked
      rwa [flagged levelMade found, roots rootMade asked] at same
    · intro equal d low meets levelMade rootMade found read
      rw [(levels d low).2 levelMade found, roots rootMade read]
      exact equal d low meets
  rw [folds_zip, leaf, together]
  exact MerkleTree.torn_climbs_iff compress emptyLeaf commitment leaves flags last inside fits

/-- All levels before the addition, the root behind it. -/
theorem levels_first (represents : Represents compress depth leaves store) (commitment : Hex64)
    (i : Nat) : ∃ log reached, Served compress depth leaves commitment i store log
      (.ok ((MerkleTree.pathFrom compress (MerkleTree.padded emptyLeaf leaves) 0 depth i).map
            Prod.fst,
          (MerkleTree.pathFrom compress (MerkleTree.padded emptyLeaf leaves) 0 depth i).map
            Prod.snd,
          MerkleTree.root compress emptyLeaf (leaves ++ [commitment]) depth))
      (.ok (MerkleTree.root compress emptyLeaf (leaves ++ [commitment]) depth)) reached := by
  have levels := MerkleProofs.finish_proof represents depth 0 i (by omega)
  obtain ⟨reached, added, newer⟩ := add_next represents commitment
  refine ⟨_, reached, woven_reads levels (woven_writes added (woven_alone _ ?_))⟩
  have root := newer.root
  exact (finish_get_root compress reached _).trans (by rw [root, Option.getD_some, finish_pure])

end Schedules

/-! One deposit is in the tree while a second one is added. -/
section Samples

def poseidon : Hex64 → Hex64 → Hex64 := hashHex Poseidon2.poseidon2Permutation

def first : Hex64 := hexOf Poseidon2.proverCommitment

def second : Hex64 := hexOf Backing.otherCommitment

def oneDeposit : Store :=
  reachedStore poseidon 20 TreeRecovery.emptyStore (MerkleProofs.inOrder [first] 0)

theorem one_deposit_represents : Represents poseidon 20 [first] oneDeposit :=
  MerkleProofs.in_order_represents poseidon 20 _ [first]

/-- All reads come behind the whole addition. -/
theorem read_behind_folds :
    let twoDeposits := (finish poseidon oneDeposit (addLeaf 1 second 20)).2
    let additions := asks poseidon oneDeposit (addLeaf 1 second 20)
    let log := (asks poseidon twoDeposits (getProof 0 20)).map fun request => (request, additions)
    Folds poseidon first (finish poseidon twoDeposits (getProof 0 20)).1 ↔
      ReadTogether 20 1 0 log ∨ MerkleTree.root poseidon emptyLeaf [first, second] 20 =
        MerkleTree.root poseidon emptyLeaf [first] 20 :=
  served_folds_iff one_deposit_represents (by decide) (by decide)
    (woven_writes Prod.mk.eta.symm (woven_alone _ Prod.mk.eta.symm))

theorem roots_differ :
    MerkleTree.root poseidon emptyLeaf [first] 20 ≠
      MerkleTree.root poseidon emptyLeaf [first, second] 20 := by
  intro same
  have old := MerkleService.hash_hex_root Poseidon2.poseidon2Permutation
    [Poseidon2.proverCommitment] 19
  have new := MerkleService.hash_hex_root Poseidon2.poseidon2Permutation
    [Poseidon2.proverCommitment, Backing.otherCommitment] 19
  have equal := congrArg MerkleService.fieldOfHex (old.symm.trans (same.trans new))
  rw [MerkleService.fieldOfHex_hexOf, MerkleService.fieldOfHex_hexOf] at equal
  have clash := Authenticity.note_root.trans (equal.trans Backing.pair_root.symm)
  exact absurd clash (by decide +kernel)

/-- Every level is read before the addition and the root behind it. -/
theorem torn_read_breaks :
    Represents poseidon 20 [first] oneDeposit ∧ ∃ log served added reached,
      Served poseidon 20 [first] second 0 oneDeposit log served (.ok added) reached ∧
        ¬ Folds poseidon first served := by
  obtain ⟨log, reached, woven⟩ := levels_first one_deposit_represents second 0
  refine ⟨one_deposit_represents, log, _, _, reached, woven, ?_⟩
  have climbed := MerkleTree.climb_leaf poseidon (MerkleTree.padded emptyLeaf [first]) 20 0
    (by decide)
  intro folds
  exact roots_differ (climbed.symm.trans ((folds_zip _).mp folds))

end Samples

end PrivateTransfer.ServedProofs
