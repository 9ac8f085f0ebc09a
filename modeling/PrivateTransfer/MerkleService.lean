import PrivateTransfer.Circuit

/-!
`merkle/src/poseidon.js`: the full tree and its proofs. Strings of the service
are 64 lowercase hex digits; the hash is a parameter that may fail. Levels are
lists, and a list index past the end is JavaScript's `undefined`.
-/

namespace PrivateTransfer.MerkleService

def isHexDigit (digit : Char) : Bool := digit.isDigit || ('a' ≤ digit && digit ≤ 'f')

/-- What the services exchange for a field element or a commitment. -/
structure Hex64 where
  text : String
  length : text.length = 64
  digits : text.toList.all isHexDigit = true
  deriving DecidableEq

/-- `text.padStart(width, "0")`. -/
def padStart (text : String) (width : Nat) : String :=
  String.ofList (List.replicate (width - text.length) '0' ++ text.toList)

theorem pad_start_full (text : String) {width : Nat} (full : width ≤ text.length) :
    padStart text width = text := by
  rw [padStart, Nat.sub_eq_zero_of_le full, List.replicate_zero, List.nil_append,
    String.ofList_toList]

namespace Hex64

/-- Padding leaves a string of full length as it is. -/
def padded (hex : Hex64) : Hex64 where
  text := padStart hex.text 64
  length := by rw [pad_start_full _ (Nat.le_of_eq hex.length.symm), hex.length]
  digits := by rw [pad_start_full _ (Nat.le_of_eq hex.length.symm), hex.digits]

@[simp] theorem padded_eq (hex : Hex64) : hex.padded = hex := by
  obtain ⟨text, length, digits⟩ := hex
  simp only [padded, pad_start_full text (Nat.le_of_eq length.symm)]

def digitValue (digit : Char) : Nat :=
  if digit.isDigit then digit.toNat - '0'.toNat else digit.toNat - 'a'.toNat + 10

def value (hex : Hex64) : Nat :=
  hex.text.toList.foldl (fun total digit => 16 * total + digitValue digit) 0

end Hex64

/-- A hex string read as a field element. -/
def fieldOfHex (hex : Hex64) : Field := Fin.ofNat bn254Modulus hex.value

/-! Bytes written as lowercase hex and read back. -/
section Encoding

def hexChar (digit : Nat) : Char :=
  if digit < 10 then Char.ofNat ('0'.toNat + digit) else Char.ofNat ('a'.toNat + (digit - 10))

def hexByte (byte : UInt8) : List Char := [hexChar (byte.toNat / 16), hexChar (byte.toNat % 16)]

theorem hex_char_digit : ∀ digit < 16, isHexDigit (hexChar digit) = true := by decide

theorem hex_char_value : ∀ digit < 16, Hex64.digitValue (hexChar digit) = digit := by decide

theorem byte_halves (byte : UInt8) : byte.toNat / 16 < 16 ∧ byte.toNat % 16 < 16 := by
  have bound := byte.toNat_lt
  omega

theorem hex_bytes_length (bytes : List UInt8) :
    (bytes.flatMap hexByte).length = 2 * bytes.length := by
  induction bytes with
  | nil => rfl
  | cons byte rest ih =>
      rw [List.flatMap_cons, List.length_append, ih, List.length_cons, Nat.mul_succ, Nat.add_comm]
      rfl

def hexEncode (bytes : Bytes32) : Hex64 where
  text := String.ofList (bytes.toList.flatMap hexByte)
  length := by rw [String.length_ofList, hex_bytes_length, Vector.length_toList]
  digits := by
    rw [String.toList_ofList, List.all_flatMap, List.all_eq_true]
    intro byte _
    obtain ⟨high, low⟩ := byte_halves byte
    simp [hexByte, hex_char_digit _ high, hex_char_digit _ low]

theorem hex_encode_value (bytes : Bytes32) : (hexEncode bytes).value = bytes.value := by
  have general : ∀ (rest : List UInt8) (total : Nat),
      (rest.flatMap hexByte).foldl (fun total digit => 16 * total + Hex64.digitValue digit) total =
        rest.foldl (fun total byte => total * 256 + byte.toNat) total := by
    intro rest
    induction rest with
    | nil => exact fun _ => rfl
    | cons byte rest ih =>
        intro total
        obtain ⟨high, low⟩ := byte_halves byte
        have whole : 16 * (16 * total + byte.toNat / 16) + byte.toNat % 16 =
            total * 256 + byte.toNat := by omega
        rw [List.flatMap_cons, List.foldl_append, List.foldl_cons, ← whole, ← ih]
        simp only [hexByte, List.foldl_cons, List.foldl_nil, hex_char_value _ high,
          hex_char_value _ low]
  rw [Hex64.value, hexEncode, String.toList_ofList, general]
  rfl

def hexOf (element : Field) : Hex64 := hexEncode (bytesOf element)

@[simp] theorem fieldOfHex_hexOf (element : Field) : fieldOfHex (hexOf element) = element := by
  rw [fieldOfHex, hexOf, hex_encode_value]
  exact fieldOf_bytesOf element

/-- What `poseidon2Hash` answers: the circuit's hash, read and written as hex. -/
def hashHex (poseidon2Permutation : Vector Field 4 → Vector Field 4) (left right : Hex64) : Hex64 :=
  hexOf (Circuit.hash2 poseidon2Permutation (fieldOfHex left) (fieldOfHex right))

end Encoding

/-- `"0".repeat(64)`. -/
def emptyLeaf : Hex64 where
  text := String.ofList (List.replicate 64 '0')
  length := by rw [String.length_ofList, List.length_replicate]
  digits := by
    rw [String.toList_ofList]
    decide

theorem empty_leaf_field : fieldOfHex emptyLeaf = 0 := by
  decide +kernel

/-- The tree over canonical hex strings has the hex of the root over their elements. -/
theorem hash_hex_root (poseidon2Permutation : Vector Field 4 → Vector Field 4)
    (commitments : List Field) (depth : Nat) :
    MerkleTree.root (hashHex poseidon2Permutation) emptyLeaf (commitments.map hexOf) (depth + 1) =
      hexOf (MerkleTree.root (Circuit.hash2 poseidon2Permutation) 0 commitments (depth + 1)) := by
  have leaf : ∀ k, fieldOfHex (MerkleTree.padded emptyLeaf (commitments.map hexOf) k) =
      MerkleTree.padded 0 commitments k := by
    intro k
    rw [MerkleTree.padded, MerkleTree.padded, List.getD_eq_getElem?_getD,
      List.getD_eq_getElem?_getD, List.getElem?_map]
    cases commitments[k]? with
    | none => exact empty_leaf_field
    | some commitment => exact fieldOfHex_hexOf commitment
  have node : ∀ i, MerkleTree.node (Circuit.hash2 poseidon2Permutation)
      (MerkleTree.padded 0 commitments) depth i = fieldOfHex (MerkleTree.node
        (hashHex poseidon2Permutation) (MerkleTree.padded emptyLeaf (commitments.map hexOf))
        depth i) := by
    intro i
    rw [← MerkleTree.node_map (hashHex poseidon2Permutation) (Circuit.hash2 poseidon2Permutation)
      fieldOfHex fun _ _ => fieldOfHex_hexOf _]
    simp only [leaf]
  rw [MerkleTree.root, MerkleTree.root, MerkleTree.node_succ, MerkleTree.node_succ, node, node]
  rfl

inductive ServiceError where
  | hash (message : String)
  | rangeError
  deriving DecidableEq

section Tree
variable {Node : Type} (hash : Node → Node → Except ServiceError Node)

/-- The inner loop of `buildTree`: `next[i]` from `level[2 * i]` and `level[2 * i + 1]`. -/
def hashLevel : List Node → Except ServiceError (List Node)
  | left :: right :: rest => do
      let parent ← hash left right
      let parents ← hashLevel rest
      .ok (parent :: parents)
  | _ => .ok []

def buildLevels : Nat → List Node → Except ServiceError (List (List Node))
  | 0, level => .ok [level]
  | depth + 1, level => do
      let next ← hashLevel hash level
      let above ← buildLevels depth next
      .ok (level :: above)

structure Tree (Node : Type) where
  levels : List (List Node)
  root : Option Node

/-- `{ tree, root: tree[tree.length - 1][0] }`. -/
def treeOf (depth : Nat) (leaves : List Node) : Except ServiceError (Tree Node) := do
  let levels ← buildLevels hash depth leaves
  .ok { levels, root := (levels.getLastD []).head? }

end Tree

/-- `1 << depth` on 32-bit integers; `new Array` refuses a negative length. -/
def totalLeaves (depth : Nat) : Except ServiceError Nat :=
  let shifted := 2 ^ (depth % 32)
  if shifted < 2 ^ 31 then .ok shifted else .error .rangeError

section Service
variable (hash : Hex64 → Hex64 → Except ServiceError Hex64)

def buildTree (commitments : List Hex64) (depth : Nat) :
    Except ServiceError (Tree Hex64) := do
  let total ← totalLeaves depth
  let level := (List.range total).map fun i =>
    if inside : i < commitments.length then commitments[i].padded else emptyLeaf
  let tree ← treeOf hash depth level
  -- from 32 on the shift wraps around, and above a single node `new Array(0.5)` is refused
  if depth < 32 then .ok tree else .error .rangeError

structure Proof where
  proof : List (Option Hex64)
  isEven : List Bool
  root : Option Hex64
  deriving DecidableEq

/-- The loop of `buildProof`, from level `d` on. -/
def proofFrom (levels : List (List Hex64)) : (remaining d idx : Nat) → List (Option Hex64 × Bool)
  | 0, _, _ => []
  | remaining + 1, d, idx =>
      let siblingIdx := if idx % 2 = 0 then idx + 1 else idx - 1
      ((levels[d]?.getD [])[siblingIdx]?, idx % 2 == 0) ::
        proofFrom levels remaining (d + 1) (idx / 2)

def buildProof (commitments : List Hex64) (leafIndex depth : Nat) :
    Except ServiceError Proof := do
  let tree ← buildTree hash commitments depth
  let steps := proofFrom tree.levels depth 0 leafIndex
  .ok { proof := steps.map Prod.fst, isEven := steps.map Prod.snd, root := tree.root }

end Service

/-! With a hash that answers, the levels are those of the tree library. -/
section Levels
variable {Node : Type} (compress : Node → Node → Node)

def answering (left right : Node) : Except ServiceError Node := .ok (compress left right)

theorem hash_level_pairs (level : List Node) :
    hashLevel (answering compress) level = .ok (MerkleTree.pairUp compress level) := by
  fun_induction hashLevel (answering compress) level with
  | case1 left right rest ih =>
      rw [ih]
      rfl
  | case2 level short =>
      match level with
      | [] => rfl
      | [_] => rfl
      | left :: right :: rest => exact absurd rfl (short left right rest)

theorem build_levels (depth : Nat) (level : List Node) :
    buildLevels (answering compress) depth level =
      .ok ((List.range (depth + 1)).map (MerkleTree.levelAt compress level)) := by
  induction depth generalizing level with
  | zero => rfl
  | succ depth ih =>
      have above : (List.range (depth + 1)).map
          (MerkleTree.levelAt compress (MerkleTree.pairUp compress level)) =
            (List.range (depth + 1)).map (MerkleTree.levelAt compress level ∘ Nat.succ) :=
        List.map_congr_left fun d _ => (Function.iterate_succ_apply _ d level).symm
      have tail := ih (MerkleTree.pairUp compress level)
      rw [above] at tail
      rw [buildLevels, hash_level_pairs, List.range_succ_eq_map, List.map_cons, List.map_map]
      simp only [bind, Except.bind, tail]
      rfl

/-- The tree over `2 ^ depth` leaves has the library's nodes, level by level. -/
theorem tree_of_leaves (leaf : Nat → Node) (depth : Nat) :
    treeOf (answering compress) depth (MerkleTree.leavesOf leaf (2 ^ depth)) = .ok
      { levels := (List.range (depth + 1)).map fun d =>
          MerkleTree.leavesOf (MerkleTree.node compress leaf d) (2 ^ (depth - d))
        root := some (MerkleTree.node compress leaf depth 0) } := by
  have levels : (List.range (depth + 1)).map
      (MerkleTree.levelAt compress (MerkleTree.leavesOf leaf (2 ^ depth))) =
        (List.range (depth + 1)).map fun d =>
          MerkleTree.leavesOf (MerkleTree.node compress leaf d) (2 ^ (depth - d)) := by
    apply List.map_congr_left
    intro d inside
    exact MerkleTree.level_nodes compress leaf depth d
      (Nat.le_of_lt_succ (List.mem_range.mp inside))
  rw [treeOf, build_levels, levels]
  simp only [bind, Except.bind, List.range_succ, List.map_append, List.map_cons, List.map_nil,
    List.getLastD_concat, Nat.sub_self]
  rfl

end Levels

theorem total_leaves {depth : Nat} (small : depth ≤ 30) : totalLeaves depth = .ok (2 ^ depth) := by
  have within : 2 ^ depth < 2 ^ 31 := Nat.pow_lt_pow_right (by decide) (by omega)
  rw [totalLeaves, Nat.mod_eq_of_lt (by omega)]
  exact if_pos within

/-- The padded commitments are the leaves of the tree. -/
theorem build_tree_leaves (hash : Hex64 → Hex64 → Except ServiceError Hex64)
    (commitments : List Hex64) {depth : Nat} (small : depth ≤ 30) :
    buildTree hash commitments depth = treeOf hash depth
      (MerkleTree.leavesOf (MerkleTree.padded emptyLeaf commitments) (2 ^ depth)) := by
  have leaves : ∀ i, (if inside : i < commitments.length then commitments[i].padded
      else emptyLeaf) = MerkleTree.padded emptyLeaf commitments i := by
    intro i
    by_cases inside : i < commitments.length
    · simp [inside, MerkleTree.padded]
    · simp [inside, MerkleTree.padded]
  rw [buildTree, total_leaves small]
  simp only [bind, Except.bind, leaves, if_pos (show depth < 32 by omega)]
  split
  · rename_i built
    exact built.symm
  · rename_i built
    exact built.symm

/-- `buildTree` on a hash that answers. -/
theorem build_tree_nodes (compress : Hex64 → Hex64 → Hex64) (commitments : List Hex64)
    {depth : Nat} (small : depth ≤ 30) :
    buildTree (answering compress) commitments depth = .ok
      { levels := (List.range (depth + 1)).map fun d => MerkleTree.leavesOf
          (MerkleTree.node compress (MerkleTree.padded emptyLeaf commitments) d) (2 ^ (depth - d))
        root := some (MerkleTree.root compress emptyLeaf commitments depth) } := by
  rw [build_tree_leaves _ _ small]
  exact tree_of_leaves compress _ depth

/-! A tree built on a hash that is only defined on good nodes. -/
section Partial
variable {Node : Type} {compress : Node → Node → Node}
  {hash : Node → Node → Except ServiceError Node}

/-- On good nodes the hash answers, with a good node. -/
structure AnswersOn (good : Node → Prop) (compress : Node → Node → Node)
    (hash : Node → Node → Except ServiceError Node) : Prop where
  answers : ∀ left right, good left → good right → hash left right = .ok (compress left right)
  closed : ∀ left right, good (compress left right)

variable {good : Node → Prop}

theorem pair_up_good (on : AnswersOn good compress hash) (level : List Node) :
    ∀ node ∈ MerkleTree.pairUp compress level, good node := by
  intro node member
  obtain ⟨inputs, _, rfl⟩ := List.mem_map.mp member
  exact on.closed _ _

theorem hash_level_on (on : AnswersOn good compress hash) (level : List Node)
    (all : ∀ node ∈ level, good node) :
    hashLevel hash level = .ok (MerkleTree.pairUp compress level) := by
  fun_induction hashLevel hash level with
  | case1 left right rest ih =>
      have goodLeft := all left List.mem_cons_self
      have goodRight := all right (List.mem_cons_of_mem _ List.mem_cons_self)
      rw [on.answers left right goodLeft goodRight, ih fun node member =>
        all node (List.mem_cons_of_mem _ (List.mem_cons_of_mem _ member))]
      rfl
  | case2 level short =>
      match level with
      | [] => rfl
      | [_] => rfl
      | left :: right :: rest => exact absurd rfl (short left right rest)

theorem build_levels_on (on : AnswersOn good compress hash) (depth : Nat) (level : List Node)
    (all : ∀ node ∈ level, good node) :
    buildLevels hash depth level = buildLevels (answering compress) depth level := by
  induction depth generalizing level with
  | zero => rfl
  | succ depth ih =>
      rw [buildLevels, buildLevels, hash_level_on on level all, hash_level_pairs]
      simp only [bind, Except.bind, ih _ (pair_up_good on level)]

/-- Every pair of a level that was hashed was answered. -/
theorem hash_level_answered {level parents : List Node}
    (done : hashLevel hash level = .ok parents) :
    ∀ inputs ∈ MerkleTree.pairs level, ∃ parent, hash inputs.1 inputs.2 = .ok parent := by
  fun_induction hashLevel hash level generalizing parents with
  | case1 left right rest ih =>
      cases first : hash left right with
      | error failure =>
          rw [first] at done
          cases done
      | ok parent =>
          cases later : hashLevel hash rest with
          | error failure =>
              rw [first, later] at done
              cases done
          | ok others =>
              intro inputs member
              rcases List.mem_cons.mp member with rfl | inside
              · exact ⟨parent, first⟩
              · exact ih later inputs inside
  | case2 level short =>
      match level with
      | [] => exact fun _ member => absurd member List.not_mem_nil
      | [_] => exact fun _ member => absurd member List.not_mem_nil
      | left :: right :: rest => exact absurd rfl (short left right rest)

/-- `/root` answers if the commitments and the empty leaf are good. -/
theorem build_tree_on {compress : Hex64 → Hex64 → Hex64}
    {hash : Hex64 → Hex64 → Except ServiceError Hex64} {good : Hex64 → Prop}
    (on : AnswersOn good compress hash) (empty : good emptyLeaf) {commitments : List Hex64}
    (all : ∀ commitment ∈ commitments, good commitment) {depth : Nat} (small : depth ≤ 30) :
    buildTree hash commitments depth = buildTree (answering compress) commitments depth := by
  have leaves : ∀ node ∈ MerkleTree.leavesOf (MerkleTree.padded emptyLeaf commitments) (2 ^ depth),
      good node := by
    intro node member
    obtain ⟨i, _, rfl⟩ := List.mem_map.mp member
    rw [MerkleTree.padded, List.getD_eq_getElem?_getD]
    cases found : commitments[i]? with
    | none => exact empty
    | some commitment => exact all commitment (List.mem_of_getElem? found)
  rw [build_tree_leaves _ _ small, build_tree_leaves _ _ small, treeOf, treeOf,
    build_levels_on on depth _ leaves]

/-- An answer of `/root` has hashed every commitment. -/
theorem build_tree_answered {hash : Hex64 → Hex64 → Except ServiceError Hex64}
    {commitments : List Hex64} {depth : Nat} (small : depth + 1 ≤ 30)
    (fits : commitments.length ≤ 2 ^ (depth + 1)) {tree : Tree Hex64}
    (done : buildTree hash commitments (depth + 1) = .ok tree) :
    ∀ commitment ∈ commitments, ∃ left right parent, hash left right = .ok parent ∧
      (left = commitment ∨ right = commitment) := by
  rw [build_tree_leaves _ _ small, treeOf, buildLevels, Nat.pow_succ, Nat.mul_comm] at done
  cases level : hashLevel hash
      (MerkleTree.leavesOf (MerkleTree.padded emptyLeaf commitments) (2 * 2 ^ depth)) with
  | error failure =>
      rw [level] at done
      cases done
  | ok parents =>
      have answered := hash_level_answered level
      rw [MerkleTree.pairs_leaves] at answered
      intro commitment member
      obtain ⟨i, inside, rfl⟩ := List.getElem_of_mem member
      have half : i / 2 < 2 ^ depth := by
        rw [Nat.pow_succ] at fits
        omega
      have leaf : MerkleTree.padded emptyLeaf commitments i = commitments[i] := by
        simp [MerkleTree.padded, inside]
      obtain ⟨parent, hashed⟩ := answered _ (List.mem_map.mpr ⟨i / 2, List.mem_range.mpr half, rfl⟩)
      refine ⟨_, _, parent, hashed, ?_⟩
      rcases Nat.mod_two_eq_zero_or_one i with even | odd
      · left
        rw [show 2 * (i / 2) = i by omega, leaf]
      · right
        rw [show 2 * (i / 2) + 1 = i by omega, leaf]

end Partial

end PrivateTransfer.MerkleService
