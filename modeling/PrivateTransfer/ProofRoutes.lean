import PrivateTransfer.ServedProofs

/-!
The two routes that hand out authentication paths. `/api/proof` of the backend reads
the stored tree and refuses by its root; `/proof` of the merkle service refuses by the
number of commitments. They part on an initialised tree, past its last leaf.
-/

namespace PrivateTransfer.ProofRoutes

open MerkleService RedisTree Script
open TreeRecovery (emptyStore)

/-! `backend/src/main.rs`. -/
section Backend

structure ProofResponse where
  proof : List Hex64
  isEven : List Bool
  root : Hex64
  deriving DecidableEq

/-- A status and its body: 404 with a text, or 500 with the error of the tree. -/
inductive Refusal where
  | notFound (message : String)
  | treeError (error : TreeError)
  deriving DecidableEq

/-- The literal the root is compared with is `emptyLeaf`, 64 zeros. -/
def handleProof (leafIndex merkleTreeDepth : Nat) :
    RedisTree.Tree (Except Refusal ProofResponse) := do
  let outcome ← attempt (getProof leafIndex merkleTreeDepth)
  match outcome with
  | .ok (proof, isEven, root) =>
      if root = emptyLeaf then pure (.error (.notFound "Tree not initialized or empty"))
      else pure (.ok { proof, isEven, root })
  | .error error => pure (.error (.treeError error))

end Backend

/-! `merkle/src/server.js`. -/
section Service

def treeDepth : Nat := 20

/-- The body of a request, `none` where a field is not an array or not a number. -/
structure ProofBody where
  commitments : Option (List Hex64)
  leafIndex : Option Int

inductive RouteError where
  | badRequest (error : String)
  | thrown (error : ServiceError)
  deriving DecidableEq

def proofRoute (hash : Hex64 → Hex64 → Except ServiceError Hex64) (body : ProofBody) :
    Except RouteError Proof :=
  match body.commitments with
  | none => .error (.badRequest "commitments must be an array")
  | some commitments =>
      match body.leafIndex with
      | none => .error (.badRequest "leaf_index out of range")
      | some leafIndex =>
          if leafIndex < 0 ∨ leafIndex ≥ commitments.length then
            .error (.badRequest "leaf_index out of range")
          else (buildProof hash commitments leafIndex.toNat treeDepth).mapError .thrown

end Service

/-- Before its initialisation a pool has no key in Redis; after it, the tree of the
commitments the additions were in time for. -/
inductive Reached (compress : Hex64 → Hex64 → Hex64) (depth : Nat) : List Hex64 → Store → Prop
  | absent : Reached compress depth [] emptyStore
  | initialised (before : Store) (calls : List (Nat × Hex64)) :
      Reached compress depth (takenLeaves compress depth before calls)
        (reachedStore compress depth before calls)

def Served {Refused Answered : Type} (reply : Except Refused Answered) : Prop :=
  ∃ answer, reply = .ok answer

/-- What the backend answers from a store. -/
def reply (compress : Hex64 → Hex64 → Hex64) (depth : Nat) (store : Store) (leafIndex : Nat) :
    Except Refusal ProofResponse :=
  match (finish compress store (handleProof leafIndex depth)).1 with
  | .ok answer => answer
  | .error error => .error (.treeError error)

/-- A path is served for the leaves there are, as the merkle service does. -/
structure ServesLeaves (compress : Hex64 → Hex64 → Hex64) (depth : Nat) (leaves : List Hex64)
    (store : Store) (leafIndex : Nat) : Prop where
  stored : Served (reply compress depth store leafIndex) ↔ leafIndex < store.size.getD 0
  matched : Served (reply compress depth store leafIndex) ↔
    Served (proofRoute (answering compress) ⟨some leaves, some leafIndex⟩)

/-- No root was written, or the one of 64 zeros. -/
def Blank (store : Store) : Prop := store.root.getD emptyLeaf = emptyLeaf

instance (store : Store) : Decidable (Blank store) :=
  inferInstanceAs (Decidable (store.root.getD emptyLeaf = emptyLeaf))

section Replies
variable (compress : Hex64 → Hex64 → Hex64)

/-- A sibling is looked up inside its level or replaced, so no lookup fails. -/
theorem sibling_answers (store : Store) (d idx : Nat) (level : List Hex64) :
    ∃ sibling, finish compress store (siblingOf d idx level) = (.ok sibling, store) := by
  rw [siblingOf]
  split
  · rename_i present
    rw [RedisTree.index, List.getElem?_eq_getElem present]
    exact ⟨_, rfl⟩
  · exact ⟨_, rfl⟩

theorem proof_answers (store : Store) (remaining d idx : Nat) :
    ∃ steps, finish compress store (RedisTree.proofFrom remaining d idx) = (.ok steps, store) := by
  induction remaining generalizing d idx with
  | zero => exact ⟨[], rfl⟩
  | succ remaining ih =>
      obtain ⟨sibling, found⟩ := sibling_answers compress store d idx
        ((store.level d).getD [emptyLeaf])
      obtain ⟨rest, finished⟩ := ih (d + 1) (idx / 2)
      refine ⟨(sibling, idx % 2 == 0) :: rest, ?_⟩
      rw [RedisTree.proofFrom, finish_get_level, finish_bind _ _ found, finish_bind _ _ finished,
        finish_pure]

/-- The backend refuses by the root alone, whatever the index. -/
theorem reply_served_iff (depth : Nat) (store : Store) (leafIndex : Nat) :
    Served (reply compress depth store leafIndex) ↔ ¬ Blank store := by
  obtain ⟨steps, finished⟩ := proof_answers compress store depth 0 leafIndex
  have read : finish compress store (getProof leafIndex depth) =
      (.ok (steps.map Prod.fst, steps.map Prod.snd, store.root.getD emptyLeaf), store) := by
    rw [getProof, finish_bind _ _ finished, finish_get_root, finish_pure]
  have caught : finish compress store (attempt (getProof leafIndex depth)) =
      (.ok (.ok (steps.map Prod.fst, steps.map Prod.snd, store.root.getD emptyLeaf)), store) := by
    rw [finish, run_attempt, ← finish, read]
  rw [reply, handleProof, finish_bind _ _ caught]
  by_cases blank : Blank store
  · simp only [if_pos (show store.root.getD emptyLeaf = emptyLeaf from blank), finish_pure]
    simp [Served, blank]
  · simp only [if_neg (show ¬ store.root.getD emptyLeaf = emptyLeaf from blank), finish_pure]
    simp [Served, blank]

/-- The service refuses by the index alone. -/
theorem route_served_iff (leaves : List Hex64) (leafIndex : Nat) :
    Served (proofRoute (answering compress) ⟨some leaves, some leafIndex⟩) ↔
      leafIndex < leaves.length := by
  have small : treeDepth ≤ 30 := by decide
  constructor
  · rintro ⟨answer, answered⟩
    by_contra past
    have refused : (leafIndex : Int) < 0 ∨ (leafIndex : Int) ≥ leaves.length := by omega
    simp only [proofRoute, if_pos refused, reduceCtorEq] at answered
  · intro inside
    have accepted : ¬ ((leafIndex : Int) < 0 ∨ (leafIndex : Int) ≥ leaves.length) := by omega
    simp only [proofRoute, if_neg accepted, buildProof, build_tree_nodes compress leaves small]
    exact ⟨_, rfl⟩

variable {compress}

theorem reached_size {depth : Nat} {leaves : List Hex64} {store : Store}
    (reached : Reached compress depth leaves store) : store.size.getD 0 = leaves.length := by
  cases reached with
  | absent => rfl
  | initialised before calls =>
      obtain ⟨started, initialised, empty⟩ := init_empty compress before depth
      have all := add_all calls empty
      rw [takenLeaves, reachedStore, initialised, all.size]
      rfl

/-- Before the initialisation every index is refused and none is below the size; after it
the backend goes wrong on every index from the size on, and on none below. -/
theorem proof_served_iff {depth : Nat} {leaves : List Hex64} {store : Store}
    (reached : Reached compress depth leaves store) (leafIndex : Nat) :
    ServesLeaves compress depth leaves store leafIndex ↔
      (Blank store ∧ store.size.getD 0 ≤ leafIndex) ∨
        (¬ Blank store ∧ leafIndex < store.size.getD 0) := by
  have served := reply_served_iff compress depth store leafIndex
  have route := route_served_iff compress leaves leafIndex
  have size := reached_size reached
  constructor
  · intro serves
    have same := served.symm.trans serves.stored
    by_cases blank : Blank store
    · left
      exact ⟨blank, Nat.le_of_not_lt fun inside => same.mpr inside blank⟩
    · right
      exact ⟨blank, same.mp blank⟩
  · intro condition
    have same : ¬ Blank store ↔ leafIndex < store.size.getD 0 := by
      rcases condition with ⟨blank, past⟩ | ⟨written, inside⟩
      · exact ⟨fun written => absurd blank written, fun inside => absurd inside (by omega)⟩
      · exact ⟨fun _ => inside, fun _ => written⟩
    have stored := served.trans same
    refine ⟨stored, stored.trans ?_⟩
    rw [route, size]

end Replies

/-! Trees of the pool's own hash, with one deposit and with none. -/
section Samples

open ServedProofs (poseidon first oneDeposit one_deposit_represents)

/-- A root over field elements other than zero is not the literal's. -/
theorem root_written {commitments : List Field} {store : Store}
    (represents : Represents poseidon 20 (commitments.map hexOf) store)
    (nonzero :
      MerkleTree.root (Circuit.hash2 Poseidon2.poseidon2Permutation) 0 commitments 20 ≠ 0) :
    ¬ Blank store := by
  intro blank
  have root := hash_hex_root Poseidon2.poseidon2Permutation commitments 19
  rw [Blank, represents.root, Option.getD_some, poseidon, root] at blank
  have zero := congrArg fieldOfHex blank
  rw [fieldOfHex_hexOf, empty_leaf_field] at zero
  exact nonzero zero

theorem one_deposit_written : ¬ Blank oneDeposit := by
  apply @root_written [Poseidon2.proverCommitment] _ one_deposit_represents
  intro zero
  exact absurd (Authenticity.note_root.trans zero) (by decide +kernel)

theorem first_leaf_served :
    ServesLeaves poseidon 20
      (takenLeaves poseidon 20 emptyStore (MerkleProofs.inOrder [first] 0)) oneDeposit 0 := by
  have size : oneDeposit.size.getD 0 = 1 := by rw [one_deposit_represents.size]; rfl
  refine (proof_served_iff (.initialised emptyStore (MerkleProofs.inOrder [first] 0)) 0).mpr
    (Or.inr ⟨one_deposit_written, ?_⟩)
  exact Nat.lt_of_lt_of_eq Nat.zero_lt_one size.symm

def noDeposits : Store := reachedStore poseidon 20 emptyStore []

theorem no_deposits_represents : Represents poseidon 20 [] noDeposits :=
  MerkleProofs.in_order_represents poseidon 20 emptyStore []

theorem no_deposits_written : ¬ Blank noDeposits := by
  apply @root_written [] _ no_deposits_represents
  have nodes := MerkleTree.doubles_by_nodes _ Poseidon2.empty_nodes
  have last := congrArg (fun nodes => nodes[20]?) nodes
  rw [MerkleTree.root, MerkleTree.node_empty _ _ _ _ _ (Nat.zero_le _)]
  intro zero
  simp [zero, Poseidon2.emptyNodes] at last

/-- A path for leaf zero of a tree without leaves. -/
theorem empty_tree_serves :
    Reached poseidon 20 [] noDeposits ∧ ¬ ServesLeaves poseidon 20 [] noDeposits 0 := by
  refine ⟨.initialised emptyStore [], ?_⟩
  intro serves
  have inside := serves.stored.mp ((reply_served_iff poseidon 20 noDeposits 0).mpr
    no_deposits_written)
  rw [no_deposits_represents.size] at inside
  exact absurd inside (Nat.lt_irrefl 0)

end Samples

end PrivateTransfer.ProofRoutes
