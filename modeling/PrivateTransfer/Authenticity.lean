import PrivateTransfer.Nullifiers
import PrivateTransfer.RootWindow

/-!
What a withdrawal opens. The program stores whatever root a depositor sends, so
a path up to a stored root proves membership in the tree behind that root and in
nothing else. Where every stored root stands for a tree of deposited commitments,
an opened commitment was deposited, or the tree and the path contain a collision.
-/

namespace PrivateTransfer.Authenticity

open PoolState hiding treeDepth
open PoolProgram PoolRuns Verifier Circuit

section Openings
variable (poseidon2Permutation : Vector Field 4 → Vector Field 4)

def commitmentOf (shown : Circuit.PublicInputs) (hidden : PrivateInputs) : Field :=
  hash3 poseidon2Permutation hidden.nullifier hidden.secret shown.amount

def pathOf (hidden : PrivateInputs) : List (Field × Bool) :=
  hidden.merkleProof.toList.zip hidden.isEven.toList

theorem path_of_length (hidden : PrivateInputs) : (pathOf hidden).length = treeDepth := by
  simp [pathOf]

/-- The compression inputs of one opening and of the trees it is held against. -/
def Involved (trees : List (List Field)) (shown : Circuit.PublicInputs) (hidden : PrivateInputs)
    (inputs : Field × Field) : Prop :=
  inputs ∈ MerkleTree.climbInputs (hash2 poseidon2Permutation)
      (commitmentOf poseidon2Permutation shown hidden) (pathOf hidden) ∨
    ∃ leaves ∈ trees, MerkleTree.TreeInputs (hash2 poseidon2Permutation)
      (MerkleTree.padded 0 leaves) treeDepth inputs

/-- An accepted opening against the root of a tree opens one of its leaves, an empty
leaf, or a collision. -/
theorem opening_member {shown : Circuit.PublicInputs} {hidden : PrivateInputs}
    (accepted : Accepts poseidon2Permutation shown hidden) {leaves : List Field}
    (rooted : shown.root =
      MerkleTree.root (hash2 poseidon2Permutation) 0 leaves treeDepth)
    {trees : List (List Field)} (behind : leaves ∈ trees) :
    commitmentOf poseidon2Permutation shown hidden ∈ leaves ∨
      commitmentOf poseidon2Permutation shown hidden = 0 ∨
      MerkleTree.Collision (hash2 poseidon2Permutation)
        (Involved poseidon2Permutation trees shown hidden) := by
  rw [accepts_iff, merkle_root_climb] at accepted
  have lands : MerkleTree.climb (hash2 poseidon2Permutation)
      (commitmentOf poseidon2Permutation shown hidden) (pathOf hidden) =
        MerkleTree.node (hash2 poseidon2Permutation) (MerkleTree.padded 0 leaves)
          (pathOf hidden).length 0 := by
    rw [path_of_length]
    exact accepted.2.trans rooted
  rcases MerkleTree.climb_sound _ _ _ _ lands with opened | collision
  · -- the sides name a leaf of the list, or one of the empty leaves behind it
    by_cases inside : MerkleTree.leafIndex ((pathOf hidden).map Prod.snd) < leaves.length
    · left
      rw [opened, MerkleTree.padded, List.getD_eq_getElem _ _ inside]
      exact List.getElem_mem inside
    · right
      left
      rw [opened, MerkleTree.padded, List.getD_eq_default _ _ (Nat.le_of_not_lt inside)]
  · right
    right
    apply MerkleTree.collision_mono _ _ collision
    intro inputs involved
    rw [path_of_length] at involved
    rcases involved with path | tree
    · exact Or.inl path
    · exact Or.inr ⟨leaves, behind, tree⟩

end Openings

/-! Which deposit a stored root came with. -/
section Roots
variable {verifier : List UInt8 → Bool} {deployment : Deployment}

/-- The checks a committed withdrawal has passed, at the point of its history. -/
theorem withdrawal_checked (launch : Launch verifier deployment)
    (calls : List (Transaction deployment)) {i : Nat} {args : WithdrawArgs}
    (called : calledAt withdrawalOf (launch.history calls) i = some args) :
    args.root ∈ RootWindow.recentRoots (pushedRoots ((launch.history calls).take i)) ∧
      verifier (args.proof ++ PublicInputs.encodePublicInputs args.root args.nullifierHash
        args.toKey args.amount) = true := by
  obtain ⟨tx, after, cut, _, sent⟩ := called_at_cut called
  obtain ⟨middle, next, earlier, done⟩ := Runs.trace_cut _ (launch.run_trace calls) cut
  obtain ⟨pool, stored, follows⟩ := trace_follows launch earlier
  obtain ⟨_, account, _, _, _, checked, _⟩ := step_withdraws (process_step done) sent
  obtain rfl : pool = account := Option.some.inj (stored.symm.trans checked.loaded)
  exact ⟨((RootWindow.follows_window follows).known args.root).mp checked.known, checked.proved⟩

/-- A recent root other than the empty one was pushed by an earlier deposit. -/
theorem recent_pushed {history : List (Transaction deployment)} {i : Nat} {root : Bytes32}
    (recent : root ∈ RootWindow.recentRoots (pushedRoots (history.take i)))
    (nonempty : root ≠ emptyRoot) :
    ∃ k < i, ∃ args, calledAt depositOf history k = some args ∧ args.newRoot = root := by
  rcases (RootWindow.recent_mem_iff _ _).mp recent with ⟨_, empty⟩ | pushed
  · exact absurd empty nonempty
  · obtain ⟨args, sent, same⟩ := List.mem_map.mp (List.mem_of_mem_drop pushed)
    obtain ⟨k, earlier, called⟩ := sent_called_at sent
    exact ⟨k, earlier, args, called, same⟩

end Roots

section Withdrawals
variable (poseidon2Permutation : Vector Field 4 → Vector Field 4)
variable {verifier : List UInt8 → Bool} {deployment : Deployment}

/-- The commitments deposited so far, as the leaves of a tree. -/
def deposited (history : List (Transaction deployment)) : List Field :=
  (deposits history).map fun args => fieldOf args.commitment

theorem deposited_mono {history : List (Transaction deployment)} {few many : Nat}
    (order : few ≤ many) {leaf : Field} (member : leaf ∈ deposited (history.take few)) :
    leaf ∈ deposited (history.take many) := by
  have shorter := List.take_sublist_take_left (l := history) order
  exact ((shorter.filterMap depositOf).map _).subset member

/-- `openings i` is what withdrawal `i` was proved with. -/
def Opens (history : List (Transaction deployment)) (openings : Nat → PrivateInputs) : Prop :=
  ∀ i args, calledAt withdrawalOf history i = some args →
    Accepts poseidon2Permutation (shownOf args) (openings i)

theorem opens_exist (decides : Decides poseidon2Permutation verifier)
    (launch : Launch verifier deployment) (calls : List (Transaction deployment)) :
    ∃ openings, Opens poseidon2Permutation (launch.history calls) openings := by
  have opened : ∀ i, ∃ hidden, ∀ args,
      calledAt withdrawalOf (launch.history calls) i = some args →
        Accepts poseidon2Permutation (shownOf args) hidden := by
    intro i
    cases called : calledAt withdrawalOf (launch.history calls) i with
    | none => exact ⟨⟨0, 0, Vector.replicate _ 0, Vector.replicate _ true⟩, nofun⟩
    | some args =>
        have checked := withdrawal_checked launch calls called
        obtain ⟨hidden, accepted⟩ :=
          (decides_withdrawal poseidon2Permutation decides args).mp checked.2
        exact ⟨hidden, fun _ same => Option.some.inj same ▸ accepted⟩
  choose openings accepted using opened
  exact ⟨openings, accepted⟩

/-- Every withdrawal against a non-zero root opens a commitment deposited before it,
or exhibits a collision. -/
def Authentic (trees : List (List Field)) (history : List (Transaction deployment))
    (openings : Nat → PrivateInputs) : Prop :=
  ∀ i args, calledAt withdrawalOf history i = some args → args.root ≠ emptyRoot →
    commitmentOf poseidon2Permutation (shownOf args) (openings i) ∈ deposited (history.take i) ∨
      MerkleTree.Collision (hash2 poseidon2Permutation)
        (Involved poseidon2Permutation trees (shownOf args) (openings i))

/-- Every deposit's root is the root of one of `trees`, whose leaves are commitments
deposited so far, its own included, and empty leaves. -/
def GenuineRoots (trees : List (List Field)) (history : List (Transaction deployment)) : Prop :=
  ∀ k args, calledAt depositOf history k = some args →
    ∃ leaves ∈ trees,
      (∀ leaf ∈ leaves, leaf = 0 ∨ leaf ∈ deposited (history.take (k + 1))) ∧
      fieldOf args.newRoot = MerkleTree.root (hash2 poseidon2Permutation) 0 leaves treeDepth

/-- No withdrawal opens a commitment that reads as the empty leaf. -/
def NoEmptyLeaf (history : List (Transaction deployment)) (openings : Nat → PrivateInputs) :
    Prop :=
  ∀ i args, calledAt withdrawalOf history i = some args →
    commitmentOf poseidon2Permutation (shownOf args) (openings i) ≠ 0

theorem genuine_opened (launch : Launch verifier deployment)
    (calls : List (Transaction deployment)) {trees : List (List Field)}
    (genuine : GenuineRoots poseidon2Permutation trees (launch.history calls))
    {openings : Nat → PrivateInputs}
    (opens : Opens poseidon2Permutation (launch.history calls) openings)
    (leaf : NoEmptyLeaf poseidon2Permutation (launch.history calls) openings) :
    Authentic poseidon2Permutation trees (launch.history calls) openings := by
  intro i args called nonempty
  have checked := withdrawal_checked launch calls called
  obtain ⟨k, earlier, source, sent, same⟩ := recent_pushed checked.1 nonempty
  obtain ⟨leaves, behind, known, rooted⟩ := genuine k source sent
  rw [same] at rooted
  rcases opening_member poseidon2Permutation (opens i args called) rooted behind with
    opened | empty | collision
  · rcases known _ opened with empty | member
    · exact absurd empty (leaf i args called)
    · exact Or.inl (deposited_mono earlier member)
  · exact absurd empty (leaf i args called)
  · exact Or.inr collision

/-- Genuine roots make withdrawals authentic, whoever sends what. -/
theorem genuine_authentic (decides : Decides poseidon2Permutation verifier)
    (launch : Launch verifier deployment) (calls : List (Transaction deployment))
    (trees : List (List Field))
    (genuine : GenuineRoots poseidon2Permutation trees (launch.history calls)) :
    (∃ openings, Opens poseidon2Permutation (launch.history calls) openings) ∧
      ∀ openings, Opens poseidon2Permutation (launch.history calls) openings →
        NoEmptyLeaf poseidon2Permutation (launch.history calls) openings →
        Authentic poseidon2Permutation trees (launch.history calls) openings := by
  refine ⟨opens_exist poseidon2Permutation decides launch calls, ?_⟩
  intro openings opens leaf
  exact genuine_opened poseidon2Permutation launch calls genuine opens leaf

end Withdrawals

/-! The `Prover.toml` note held against the tree of that note and the empty tree.
Every compression that involves is a row of one checked table. -/
section Note
open Poseidon2 Nullifiers

def noteRows : List ((Field × Field) × Field) :=
  MerkleTree.climbTable proverCommitment leftPath proverValues ++
    MerkleTree.doubleTable 0 emptyNodes

theorem note_path : pathOf proverHidden = leftPath := by decide

theorem climb_rows {inputs : Field × Field}
    (used : inputs ∈ MerkleTree.climbInputs (hash2 poseidon2Permutation) proverCommitment
      leftPath) :
    (inputs, hash2 poseidon2Permutation inputs.1 inputs.2) ∈ noteRows := by
  apply List.mem_append_left
  rw [← MerkleTree.climbs_by_table _ prover_values]
  exact List.mem_map.mpr ⟨inputs, used, rfl⟩

theorem empty_rows {d : Nat} (low : d < treeDepth) :
    ((MerkleTree.emptyNode (hash2 poseidon2Permutation) 0 d,
        MerkleTree.emptyNode (hash2 poseidon2Permutation) 0 d),
      hash2 poseidon2Permutation (MerkleTree.emptyNode (hash2 poseidon2Permutation) 0 d)
        (MerkleTree.emptyNode (hash2 poseidon2Permutation) 0 d)) ∈ noteRows := by
  apply List.mem_append_right
  rw [← MerkleTree.doubles_by_table _ empty_nodes]
  exact List.mem_map.mpr ⟨d, List.mem_range.mpr low, rfl⟩

/-- A tree of the note alone compresses only rows of the table. -/
theorem note_tree_rows {inputs : Field × Field}
    (used : MerkleTree.TreeInputs (hash2 poseidon2Permutation)
      (MerkleTree.padded 0 [proverCommitment]) treeDepth inputs) :
    (inputs, hash2 poseidon2Permutation inputs.1 inputs.2) ∈ noteRows := by
  rcases MerkleTree.single_inputs _ 0 [proverCommitment] (Nat.le_refl 1) treeDepth inputs used with
    path | ⟨d, low, rfl⟩
  · rw [treeDepth, left_path] at path
    exact climb_rows path
  · exact empty_rows low

theorem empty_tree_rows {inputs : Field × Field}
    (used : MerkleTree.TreeInputs (hash2 poseidon2Permutation)
      (MerkleTree.padded 0 []) treeDepth inputs) :
    (inputs, hash2 poseidon2Permutation inputs.1 inputs.2) ∈ noteRows := by
  obtain ⟨d, i, low, narrow, rfl⟩ := used
  rw [MerkleTree.node_empty _ _ _ _ _ (Nat.zero_le _),
    MerkleTree.node_empty _ _ _ _ _ (Nat.zero_le _)]
  exact empty_rows low

theorem note_rows_injective : MerkleTree.rowsInjective noteRows = true := by decide +kernel

theorem zero_leaf_padded : MerkleTree.padded (0 : Field) [0] = MerkleTree.padded 0 [] := by
  funext i
  cases i <;> rfl

theorem note_involved {shown : Circuit.PublicInputs} (amount : shown.amount = proverShown.amount)
    {inputs : Field × Field}
    (used : Involved poseidon2Permutation [[0], [proverCommitment]] shown proverHidden inputs) :
    (inputs, hash2 poseidon2Permutation inputs.1 inputs.2) ∈ noteRows := by
  rcases used with path | ⟨leaves, member, tree⟩
  · rw [commitmentOf, amount, prover_commitment, note_path] at path
    exact climb_rows path
  · simp only [List.mem_cons, List.not_mem_nil, or_false] at member
    rcases member with rfl | rfl
    · rw [zero_leaf_padded] at tree
      exact empty_tree_rows tree
    · exact note_tree_rows tree

theorem note_no_collision {shown : Circuit.PublicInputs}
    (amount : shown.amount = proverShown.amount) :
    ¬ MerkleTree.Collision (hash2 poseidon2Permutation)
      (Involved poseidon2Permutation [[0], [proverCommitment]] shown proverHidden) := by
  rintro ⟨left, right, inLeft, inRight, apart, same⟩
  exact apart (MerkleTree.rows_injective note_rows_injective (note_involved amount inLeft)
    (note_involved amount inRight) same)

/-- A zero commitment deposited with the root of a tree that holds the note instead. -/
def hostileRun : List (Transaction sampleDeployment) :=
  [sampleDeposit Bytes32.zero proverRoot oneSol, noteWithdrawal spentHash]

theorem hostile_run_commits :
    Runs.allCommit (process (fun _ => true) sampleDeployment)
      (sampleLaunch (idealVerifier poseidon2Permutation)).started hostileRun = true := by
  decide +kernel

theorem hostile_history :
    (sampleLaunch (idealVerifier poseidon2Permutation)).history hostileRun = hostileRun := by
  apply history_verified _ _ _ hostile_run_commits
  intro tx member
  simp only [hostileRun, List.mem_cons, List.not_mem_nil, or_false] at member
  rcases member with rfl | rfl
  · exact deposit_verified _ _ _
  · exact note_verified spentHash spent_hash_denotes

theorem hostile_opens : Opens poseidon2Permutation hostileRun fun _ => proverHidden := by
  intro i args called
  match i with
  | 0 => exact absurd called nofun
  | 1 =>
      obtain rfl := Option.some.inj called
      exact note_accepted spentHash spent_hash_denotes
  | i + 2 => exact absurd called nofun

/-- What the note's withdrawal opens. -/
theorem note_opened :
    commitmentOf poseidon2Permutation (shownOf (sampleArgs spentHash proverRoot oneSol))
      proverHidden = proverCommitment := by
  rw [commitmentOf, shownOf, sampleArgs, note_amount, prover_commitment]

/-- The note is withdrawn though it was never deposited, and nothing collides. -/
theorem hostile_root_withdraws :
    Decides poseidon2Permutation (idealVerifier poseidon2Permutation) ∧
      Opens poseidon2Permutation
        ((sampleLaunch (idealVerifier poseidon2Permutation)).history hostileRun)
        (fun _ => proverHidden) ∧
      ¬ Authentic poseidon2Permutation [[0], [proverCommitment]]
        ((sampleLaunch (idealVerifier poseidon2Permutation)).history hostileRun)
        (fun _ => proverHidden) := by
  rw [hostile_history]
  refine ⟨ideal_decides poseidon2Permutation, hostile_opens, ?_⟩
  intro authentic
  have nonempty : proverRoot ≠ emptyRoot := by decide +kernel
  have other : fieldOf Bytes32.zero ≠ proverCommitment := by decide +kernel
  rcases authentic 1 (sampleArgs spentHash proverRoot oneSol) rfl nonempty with
    member | collision
  · rw [note_opened] at member
    exact other (List.mem_singleton.mp member).symm
  · exact note_no_collision note_amount collision

/-- The root over a single commitment, from the checked climb along the empty siblings. -/
theorem single_root {commitment : Field} {values : List Field}
    (climbs : MerkleTree.climbsBy (hash2 poseidon2Permutation) commitment leftPath values = true) :
    MerkleTree.root (hash2 poseidon2Permutation) 0 [commitment] treeDepth =
      values.getLastD commitment := by
  have climbed := MerkleTree.climb_leaf (hash2 poseidon2Permutation)
    (MerkleTree.padded 0 [commitment]) treeDepth 0 (Nat.two_pow_pos _)
  rw [MerkleTree.path_left _ 0 [commitment] 0 treeDepth (Nat.le_refl 1),
    ← List.range_eq_range', treeDepth, left_path] at climbed
  rw [MerkleTree.root, treeDepth, ← climbed]
  exact MerkleTree.climbs_by_end _ climbs

theorem note_root :
    fieldOf proverRoot =
      MerkleTree.root (hash2 poseidon2Permutation) 0 [proverCommitment] treeDepth := by
  rw [single_root prover_values]
  exact fieldOf_bytesOf _

theorem honest_genuine : GenuineRoots poseidon2Permutation [[proverCommitment]] honestSpend := by
  intro k args called
  match k with
  | 0 =>
      obtain rfl := Option.some.inj called
      refine ⟨[proverCommitment], List.mem_singleton_self _, ?_, note_root⟩
      intro leaf member
      right
      obtain rfl := List.mem_singleton.mp member
      exact List.mem_singleton.mpr (fieldOf_bytesOf _).symm
  | 1 => exact absurd called nofun
  | k + 2 => exact absurd called nofun

theorem honest_called {i : Nat} {args : WithdrawArgs}
    (called : calledAt withdrawalOf honestSpend i = some args) :
    args = sampleArgs spentHash proverRoot oneSol := by
  match i with
  | 0 => exact absurd called nofun
  | 1 => exact (Option.some.inj called).symm
  | i + 2 => exact absurd called nofun

theorem honest_opens : Opens poseidon2Permutation honestSpend fun _ => proverHidden := by
  intro i args called
  obtain rfl := honest_called called
  exact note_accepted spentHash spent_hash_denotes

theorem honest_leaf : NoEmptyLeaf poseidon2Permutation honestSpend fun _ => proverHidden := by
  intro i args called
  obtain rfl := honest_called called
  rw [note_opened]
  decide

theorem honest_authentic :
    Authentic poseidon2Permutation [[proverCommitment]]
      ((sampleLaunch (idealVerifier poseidon2Permutation)).history honestSpend)
      (fun _ => proverHidden) := by
  have authentic := genuine_authentic poseidon2Permutation (ideal_decides poseidon2Permutation)
    (sampleLaunch (idealVerifier poseidon2Permutation)) honestSpend [[proverCommitment]]
    (by rw [honest_history]; exact honest_genuine)
  apply authentic.2
  · rw [honest_history]
    exact honest_opens
  · rw [honest_history]
    exact honest_leaf

end Note

end PrivateTransfer.Authenticity
