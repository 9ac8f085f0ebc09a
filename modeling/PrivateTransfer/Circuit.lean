import PrivateTransfer.Field
import PrivateTransfer.MerkleTree

/-!
The Noir circuits: `withdrawal/src/main.nr`, `withdrawal/src/merkle_tree.nr` and
the shared hash helpers of `hashes` and `hash2`. The permutation comes from the
Noir standard library and is a parameter throughout. An `assert` becomes an
error with its message; a circuit accepts when no assertion fails.
-/

namespace PrivateTransfer.Circuit

def treeDepth : Nat := 20

structure PublicInputs where
  root : Field
  nullifierHash : Field
  recipient : Field
  amount : Field
  deriving DecidableEq

structure PrivateInputs where
  nullifier : Field
  secret : Field
  merkleProof : Vector Field treeDepth
  isEven : Vector Bool treeDepth

variable (poseidon2Permutation : Vector Field 4 → Vector Field 4)

def hash1 (input : Field) : Field := (poseidon2Permutation #v[input, 0, 0, 0])[0]

def hash2 (left right : Field) : Field := (poseidon2Permutation #v[left, right, 0, 0])[0]

def hash3 (nullifier secret amount : Field) : Field :=
  (poseidon2Permutation #v[nullifier, secret, amount, 0])[0]

/-- One round of `for i in 0..DEPTH`, with the sibling and the side flag of that index. -/
def merkleStep (current : Field) (step : Field × Bool) : Field :=
  let (sibling, isEven) := step
  let (left, right) := if isEven then (current, sibling) else (sibling, current)
  (poseidon2Permutation #v[left, right, 0, 0])[0]

def computeMerkleRoot {depth : Nat} (leaf : Field) (path : Vector Field depth)
    (isEven : Vector Bool depth) : Field :=
  (path.toList.zip isEven.toList).foldl (merkleStep poseidon2Permutation) leaf

def check (holds : Bool) (message : String) : Except String Unit :=
  if holds then .ok () else .error message

/-- `let _ = recipient;` binds nothing, so the public input is read by no constraint. -/
def main (shown : PublicInputs) (hidden : PrivateInputs) : Except String Unit := do
  let commitment := hash3 poseidon2Permutation hidden.nullifier hidden.secret shown.amount
  let computedNullifierHash := hash1 poseidon2Permutation hidden.nullifier
  check (computedNullifierHash == shown.nullifierHash) "Invalid nullifier hash"
  let computedRoot :=
    computeMerkleRoot poseidon2Permutation commitment hidden.merkleProof hidden.isEven
  check (computedRoot == shown.root) "Invalid Merkle proof"
  let _ := shown.recipient

def Accepts (shown : PublicInputs) (hidden : PrivateInputs) : Prop :=
  main poseidon2Permutation shown hidden = .ok ()

/-- The two constraints the circuit puts on its inputs. -/
theorem accepts_iff (shown : PublicInputs) (hidden : PrivateInputs) :
    Accepts poseidon2Permutation shown hidden ↔
      hash1 poseidon2Permutation hidden.nullifier = shown.nullifierHash ∧
        computeMerkleRoot poseidon2Permutation
          (hash3 poseidon2Permutation hidden.nullifier hidden.secret shown.amount)
          hidden.merkleProof hidden.isEven = shown.root := by
  rw [Accepts, main]
  by_cases nullifier : hash1 poseidon2Permutation hidden.nullifier = shown.nullifierHash
  · by_cases member : computeMerkleRoot poseidon2Permutation
        (hash3 poseidon2Permutation hidden.nullifier hidden.secret shown.amount)
        hidden.merkleProof hidden.isEven = shown.root <;>
      simp [check, nullifier, member, bind, Except.bind, pure, Except.pure]
  · simp [check, nullifier, bind, Except.bind]

/-- The recipient is the only public input that may differ. -/
theorem accepts_same {shown other : PublicInputs} {hidden : PrivateInputs}
    (accepted : Accepts poseidon2Permutation shown hidden) (root : other.root = shown.root)
    (nullifierHash : other.nullifierHash = shown.nullifierHash)
    (amount : other.amount = shown.amount) : Accepts poseidon2Permutation other hidden := by
  rw [accepts_iff] at accepted ⊢
  rwa [root, nullifierHash, amount]

instance (shown : PublicInputs) (hidden : PrivateInputs) :
    Decidable (Accepts poseidon2Permutation shown hidden) :=
  decidable_of_iff _ (accepts_iff poseidon2Permutation shown hidden).symm

/-! The circuit's loop is the path climb of the tree library over `hash2`. -/
section Climb

theorem merkle_step_climb (current : Field) (step : Field × Bool) :
    merkleStep poseidon2Permutation current step =
      MerkleTree.climbStep (hash2 poseidon2Permutation) current step := by
  obtain ⟨sibling, isEven⟩ := step
  cases isEven <;> rfl

theorem merkle_root_climb {depth : Nat} (leaf : Field) (path : Vector Field depth)
    (isEven : Vector Bool depth) :
    computeMerkleRoot poseidon2Permutation leaf path isEven =
      MerkleTree.climb (hash2 poseidon2Permutation) leaf (path.toList.zip isEven.toList) := by
  have steps : merkleStep poseidon2Permutation =
      MerkleTree.climbStep (hash2 poseidon2Permutation) := by
    funext current step
    exact merkle_step_climb poseidon2Permutation current step
  rw [computeMerkleRoot, MerkleTree.climb, steps]

end Climb

end PrivateTransfer.Circuit
