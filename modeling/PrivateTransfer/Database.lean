import PrivateTransfer.IndexerSpec
import PrivateTransfer.SerialTable

/-!
`backend/src/db.rs` over the tables of `migrations/001_init.sql`. The leaf index and
the nullifier hash are unique in the whole database and not within a pool; the table
of roots has no unique column but its id, so there its inserts never conflict.
-/

namespace PrivateTransfer.Database

structure CommitmentRow where
  leafIndex : Int64
  commitment : Bytes32
  poolAddress : String
  txSignature : String

structure RootRow where
  root : Bytes32
  leafIndex : Int64
  poolAddress : String
  txSignature : String

structure NullifierRow where
  nullifierHash : Bytes32
  poolAddress : String
  recipient : Pubkey
  amount : Int64
  txSignature : String

structure Db where
  commitments : UniqueTable CommitmentRow.leafIndex
  roots : SerialTable RootRow
  nullifiers : UniqueTable NullifierRow.nullifierHash

/-- The tables as the migration creates them. -/
def Db.empty : Db := ⟨UniqueTable.empty, SerialTable.empty, UniqueTable.empty⟩

section Queries
variable (db : Db)

/-- Both inserts of one transaction. -/
def saveDeposit (leafIndex : Int64) (commitment newRoot : Bytes32)
    (poolAddress txSignature : String) : Db :=
  { db with
    commitments := db.commitments.insert { leafIndex, commitment, poolAddress, txSignature }
    roots := db.roots.insert { root := newRoot, leafIndex, poolAddress, txSignature } }

def isNullifierUsed (nullifierHash : Bytes32) : Bool := db.nullifiers.has nullifierHash

def commitmentExists (leafIndex : Int64) : Bool := db.commitments.has leafIndex

def saveNullifier (nullifierHash : Bytes32) (poolAddress : String) (recipient : Pubkey)
    (amount : Int64) (txSignature : String) : Db :=
  { db with
    nullifiers := db.nullifiers.insert
      { nullifierHash, poolAddress, recipient, amount, txSignature } }

/-- `WHERE pool_address = $1 ORDER BY leaf_index ASC`. -/
def getCommitments (poolAddress : String) : List (Int64 × Bytes32) :=
  ((db.commitments.rows.filter fun row => row.poolAddress == poolAddress).mergeSort
    fun row other => decide (row.leafIndex ≤ other.leafIndex)).map
      fun row => (row.leafIndex, row.commitment)

/-- `WHERE pool_address = $1 ORDER BY id DESC LIMIT 1`. -/
def getLatestRoot (poolAddress : String) : Option Bytes32 :=
  (db.roots.latest fun row => row.poolAddress == poolAddress).map RootRow.root

end Queries

/-! What a query answers. -/
section Answers
variable (db : Db)

theorem commitment_exists_iff (leafIndex : Int64) :
    commitmentExists db leafIndex = true ↔
      ∃ row ∈ db.commitments.rows, row.leafIndex = leafIndex := UniqueTable.has_iff _ _

theorem mem_get_commitments (poolAddress : String) (entry : Int64 × Bytes32) :
    entry ∈ getCommitments db poolAddress ↔ ∃ row ∈ db.commitments.rows,
      row.poolAddress = poolAddress ∧ row.leafIndex = entry.1 ∧ row.commitment = entry.2 := by
  simp only [getCommitments, List.mem_map, List.mem_mergeSort, List.mem_filter, beq_iff_eq]
  constructor
  · rintro ⟨row, ⟨member, pool⟩, rfl⟩
    exact ⟨row, member, pool, rfl, rfl⟩
  · rintro ⟨row, member, pool, index, commitment⟩
    exact ⟨row, ⟨member, pool⟩, Prod.ext index commitment⟩

/-- Rows with different indices come out of a sort in strictly rising order. -/
theorem sort_rising {Row : Type} (index : Row → Int64) {rows : List Row}
    (unique : (rows.map index).Nodup) :
    (rows.mergeSort fun row other => decide (index row ≤ index other)).Pairwise
      fun row later => index row < index later := by
  have ordered : (rows.mergeSort fun row other => decide (index row ≤ index other)).Pairwise
      fun row other => decide (index row ≤ index other) = true := by
    apply List.pairwise_mergeSort
    · intro row middle other low high
      simp only [decide_eq_true_eq] at low high ⊢
      exact Int64.le_trans low high
    · intro row other
      simpa using Int64.le_total (index row) (index other)
  have apart : (rows.mergeSort fun row other => decide (index row ≤ index other)).Pairwise
      fun row other => index row ≠ index other := by
    have moved := ((List.mergeSort_perm rows
      fun row other => decide (index row ≤ index other)).map index).nodup_iff.mpr unique
    rwa [List.Nodup, List.pairwise_map] at moved
  refine ordered.imp₂ ?_ apart
  intro row other low different
  simp only [decide_eq_true_eq] at low
  exact Int64.lt_of_le_of_ne low different

theorem get_commitments_rising (poolAddress : String) :
    (getCommitments db poolAddress).Pairwise fun entry later => entry.1 < later.1 := by
  have kept : ((db.commitments.rows.filter fun row => row.poolAddress == poolAddress).map
      CommitmentRow.leafIndex).Nodup :=
    db.commitments.unique.sublist (List.filter_sublist.map _)
  rw [getCommitments, List.pairwise_map]
  exact sort_rising CommitmentRow.leafIndex kept

/-- Which entries a list has decides it. -/
theorem get_commitments_ext {db other : Db} {poolAddress : String}
    (same : ∀ entry, entry ∈ getCommitments db poolAddress ↔
      entry ∈ getCommitments other poolAddress) :
    getCommitments db poolAddress = getCommitments other poolAddress := by
  have first := get_commitments_rising db poolAddress
  have second := get_commitments_rising other poolAddress
  have distinct : ∀ {entries : List (Int64 × Bytes32)},
      entries.Pairwise (fun entry later => entry.1 < later.1) → entries.Nodup := by
    intro entries rising
    apply rising.imp
    rintro entry later less rfl
    exact Int64.lt_irrefl less
  have mixed := (List.perm_ext_iff_of_nodup (distinct first) (distinct second)).mpr same
  apply mixed.eq_of_pairwise _ first second
  intro entry later _ _ above below
  exact absurd below (Int64.lt_asymm above)

end Answers

/-! Calls of `save_deposit` for one pool, in any order and repeated at will. -/
section Saving

/-- The arguments of a call but for the pool. -/
structure Deposit where
  leafIndex : Int64
  commitment : Bytes32
  newRoot : Bytes32
  txSignature : String

variable (poolAddress : String)

def save (db : Db) (deposit : Deposit) : Db :=
  saveDeposit db deposit.leafIndex deposit.commitment deposit.newRoot poolAddress
    deposit.txSignature

def saveAll (deposits : List Deposit) (db : Db) : Db := deposits.foldl (save poolAddress) db

def Deposit.row (deposit : Deposit) : CommitmentRow :=
  ⟨deposit.leafIndex, deposit.commitment, poolAddress, deposit.txSignature⟩

def Deposit.rootRow (deposit : Deposit) : RootRow :=
  ⟨deposit.newRoot, deposit.leafIndex, poolAddress, deposit.txSignature⟩

theorem save_exists (db : Db) (deposit : Deposit) (leafIndex : Int64) :
    commitmentExists (save poolAddress db deposit) leafIndex = true ↔
      commitmentExists db leafIndex = true ∨ deposit.leafIndex = leafIndex := by
  change (db.commitments.insert (deposit.row poolAddress)).has leafIndex = true ↔ _
  rw [UniqueTable.has_find, UniqueTable.find_insert, commitmentExists, UniqueTable.has_find]
  by_cases same : deposit.leafIndex = leafIndex
  · simp [Deposit.row, same]
  · simp [Deposit.row, same]

theorem save_rows (db : Db) (deposit : Deposit) (row : CommitmentRow) :
    row ∈ (save poolAddress db deposit).commitments.rows ↔
      row ∈ db.commitments.rows ∨
        row = deposit.row poolAddress ∧ commitmentExists db deposit.leafIndex ≠ true :=
  UniqueTable.mem_insert_iff _ _ _

theorem save_all_exists (deposits : List Deposit) (db : Db) (leafIndex : Int64) :
    commitmentExists (saveAll poolAddress deposits db) leafIndex = true ↔
      commitmentExists db leafIndex = true ∨
        ∃ deposit ∈ deposits, deposit.leafIndex = leafIndex := by
  induction deposits generalizing db with
  | nil => simp [saveAll]
  | cons deposit rest ih =>
      have later := ih (save poolAddress db deposit)
      rw [save_exists] at later
      simpa [saveAll, or_assoc] using later

theorem save_all_rows (deposits : List Deposit) (db : Db) {row : CommitmentRow}
    (member : row ∈ (saveAll poolAddress deposits db).commitments.rows) :
    row ∈ db.commitments.rows ∨ ∃ deposit ∈ deposits, row = deposit.row poolAddress := by
  induction deposits generalizing db with
  | nil => exact Or.inl member
  | cons deposit rest ih =>
      rcases ih (save poolAddress db deposit) member with held | ⟨other, later, same⟩
      · rcases (save_rows poolAddress db deposit row).mp held with old | ⟨same, _⟩
        · exact Or.inl old
        · exact Or.inr ⟨deposit, List.mem_cons_self, same⟩
      · exact Or.inr ⟨other, List.mem_cons_of_mem _ later, same⟩

/-- Every call adds a row of roots, also the repeated one. -/
theorem save_all_roots (deposits : List Deposit) (db : Db) :
    (saveAll poolAddress deposits db).roots.contents =
      db.roots.contents ++ deposits.map (Deposit.rootRow poolAddress) := by
  induction deposits generalizing db with
  | nil => simp [saveAll]
  | cons deposit rest ih =>
      have later := ih (save poolAddress db deposit)
      simpa [saveAll, save, saveDeposit, Deposit.rootRow] using later

/-- The latest root is the one of the last call. -/
theorem latest_root_last (deposits : List Deposit) :
    getLatestRoot (saveAll poolAddress deposits Db.empty) poolAddress =
      deposits.getLast?.map Deposit.newRoot := by
  have every : (deposits.map (Deposit.rootRow poolAddress)).filter
      (fun row => row.poolAddress == poolAddress) =
        deposits.map (Deposit.rootRow poolAddress) := by
    rw [List.filter_eq_self]
    intro row member
    obtain ⟨deposit, _, rfl⟩ := List.mem_map.mp member
    simp [Deposit.rootRow]
  rw [getLatestRoot, SerialTable.latest_last, save_all_roots, Db.empty,
    SerialTable.contents_empty, List.nil_append, every, List.getLast?_map, Option.map_map]
  rfl

/-- What a deposit is but for the transaction it was found in. -/
def Deposit.facts (deposit : Deposit) : Int64 × Bytes32 × Bytes32 :=
  (deposit.leafIndex, deposit.commitment, deposit.newRoot)

/-- One commitment and one root for each leaf index. -/
def OnePerLeaf (deposits : List Deposit) : Prop :=
  ∀ deposit ∈ deposits, ∀ other ∈ deposits, deposit.leafIndex = other.leafIndex →
    deposit.facts = other.facts

def SameSet (first second : List Deposit) : Prop :=
  ∀ facts, facts ∈ first.map Deposit.facts ↔ facts ∈ second.map Deposit.facts

/-- The root that came with the highest leaf index. -/
def highestRoot (deposits : List Deposit) : Option Bytes32 :=
  (deposits.mergeSort fun deposit other => decide (other.leafIndex ≤ deposit.leafIndex)).head?.map
    Deposit.newRoot

theorem saved_entries {deposits : List Deposit} (single : OnePerLeaf deposits)
    (entry : Int64 × Bytes32) :
    entry ∈ getCommitments (saveAll poolAddress deposits Db.empty) poolAddress ↔
      ∃ deposit ∈ deposits, deposit.leafIndex = entry.1 ∧ deposit.commitment = entry.2 := by
  have own : ∀ row ∈ (saveAll poolAddress deposits Db.empty).commitments.rows,
      ∃ deposit ∈ deposits, row = deposit.row poolAddress := by
    intro row member
    rcases save_all_rows poolAddress deposits Db.empty member with none | saved
    · exact absurd none List.not_mem_nil
    · exact saved
  rw [mem_get_commitments]
  constructor
  · rintro ⟨row, member, _, index, commitment⟩
    obtain ⟨deposit, called, rfl⟩ := own row member
    exact ⟨deposit, called, index, commitment⟩
  · rintro ⟨deposit, called, index, commitment⟩
    -- the row with this index may be another call's, which said the same
    have present := (save_all_exists poolAddress deposits Db.empty deposit.leafIndex).mpr
      (Or.inr ⟨deposit, called, rfl⟩)
    obtain ⟨row, member, keyed⟩ := (commitment_exists_iff _ _).mp present
    obtain ⟨other, earlier, rfl⟩ := own row member
    have facts := single other earlier deposit called keyed
    simp only [Deposit.facts, Prod.mk.injEq] at facts
    exact ⟨_, member, rfl, facts.1.trans index, facts.2.1.trans commitment⟩

theorem same_set_member {first second : List Deposit} (same : SameSet first second)
    {deposit : Deposit} (called : deposit ∈ first) :
    ∃ other ∈ second, other.facts = deposit.facts :=
  List.mem_map.mp ((same deposit.facts).mp (List.mem_map_of_mem called))

/-- A call with no higher one. -/
theorem highest_root_call {deposits : List Deposit} {root : Bytes32}
    (found : highestRoot deposits = some root) :
    ∃ deposit ∈ deposits, (∀ other ∈ deposits, other.leafIndex ≤ deposit.leafIndex) ∧
      deposit.newRoot = root := by
  obtain ⟨deposit, first, rfl⟩ := Option.map_eq_some_iff.mp found
  have ordered : (deposits.mergeSort
      fun deposit other => decide (other.leafIndex ≤ deposit.leafIndex)).Pairwise
        fun deposit other => decide (other.leafIndex ≤ deposit.leafIndex) = true := by
    apply List.pairwise_mergeSort
    · intro row middle other high low
      simp only [decide_eq_true_eq] at low high ⊢
      exact Int64.le_trans low high
    · intro row other
      simpa using Int64.le_total other.leafIndex row.leafIndex
  obtain ⟨rest, sorted⟩ := List.head?_eq_some_iff.mp first
  have called : ∀ other, other ∈ deposits ↔ other ∈ deposit :: rest := by
    intro other
    rw [← sorted, List.mem_mergeSort]
  refine ⟨deposit, (called deposit).mpr List.mem_cons_self, ?_, rfl⟩
  intro other member
  rw [sorted, List.pairwise_cons] at ordered
  rcases List.mem_cons.mp ((called other).mp member) with rfl | behind
  · exact Int64.le_refl _
  · exact of_decide_eq_true (ordered.1 other behind)

theorem highest_root_none {deposits : List Deposit} (found : highestRoot deposits = none) :
    deposits = [] := by
  have blank := List.head?_eq_none_iff.mp (Option.map_eq_none_iff.mp found)
  exact List.length_eq_zero_iff.mp (by rw [← List.length_mergeSort, blank]; rfl)

theorem highest_same {first second : List Deposit} (single : OnePerLeaf first)
    (same : SameSet first second) : highestRoot first = highestRoot second := by
  have back : SameSet second first := fun facts => (same facts).symm
  cases left : highestRoot first with
  | none =>
      cases right : highestRoot second with
      | none => rfl
      | some root =>
          obtain ⟨deposit, called, _⟩ := highest_root_call right
          obtain ⟨other, member, _⟩ := same_set_member back called
          rw [highest_root_none left] at member
          exact absurd member List.not_mem_nil
  | some root =>
      obtain ⟨top, called, above, rfl⟩ := highest_root_call left
      obtain ⟨twin, listed, facts⟩ := same_set_member same called
      cases right : highestRoot second with
      | none =>
          rw [highest_root_none right] at listed
          exact absurd listed List.not_mem_nil
      | some root =>
          obtain ⟨peak, member, greatest, rfl⟩ := highest_root_call right
          obtain ⟨other, earlier, agree⟩ := same_set_member back member
          simp only [Deposit.facts, Prod.mk.injEq] at facts agree
          -- neither index is above the other
          have up := greatest twin listed
          have down := above other earlier
          rw [facts.1] at up
          rw [agree.1] at down
          have level : top.leafIndex = other.leafIndex :=
            (Int64.le_antisymm up down).trans agree.1.symm
          have roots := single top called other earlier level
          simp only [Deposit.facts, Prod.mk.injEq] at roots
          rw [roots.2.2, agree.2.2]

/-- Two sequences the database answers alike, with the root of the highest leaf. -/
structure AnswersAlike (first second : List Deposit) : Prop where
  commitments : getCommitments (saveAll poolAddress first Db.empty) poolAddress =
    getCommitments (saveAll poolAddress second Db.empty) poolAddress
  rising : (getCommitments (saveAll poolAddress first Db.empty) poolAddress).Pairwise
    fun entry later => entry.1 < later.1
  present : ∀ leafIndex, commitmentExists (saveAll poolAddress first Db.empty) leafIndex =
    commitmentExists (saveAll poolAddress second Db.empty) leafIndex
  root : getLatestRoot (saveAll poolAddress first Db.empty) poolAddress =
    getLatestRoot (saveAll poolAddress second Db.empty) poolAddress
  highest : getLatestRoot (saveAll poolAddress first Db.empty) poolAddress = highestRoot first

/-- The last call carries the root of the highest leaf index. -/
def EndsHighest (deposits : List Deposit) : Prop :=
  deposits.getLast?.map Deposit.newRoot = highestRoot deposits

variable {poolAddress} {first second : List Deposit}

theorem same_commitments (single : OnePerLeaf first) (same : SameSet first second) :
    getCommitments (saveAll poolAddress first Db.empty) poolAddress =
      getCommitments (saveAll poolAddress second Db.empty) poolAddress := by
  have back : SameSet second first := fun facts => (same facts).symm
  have other : OnePerLeaf second := by
    intro deposit called later listed level
    obtain ⟨one, earlier, left⟩ := same_set_member back called
    obtain ⟨two, held, right⟩ := same_set_member back listed
    have index : one.leafIndex = two.leafIndex :=
      (congrArg Prod.fst left).trans (level.trans (congrArg Prod.fst right).symm)
    rw [← left, ← right]
    exact single one earlier two held index
  -- membership is a question about the facts of the calls alone
  have through : ∀ {few many : List Deposit}, SameSet few many → ∀ entry : Int64 × Bytes32,
      (∃ deposit ∈ few, deposit.leafIndex = entry.1 ∧ deposit.commitment = entry.2) →
      ∃ deposit ∈ many, deposit.leafIndex = entry.1 ∧ deposit.commitment = entry.2 := by
    rintro few many same entry ⟨deposit, called, index, commitment⟩
    obtain ⟨twin, listed, facts⟩ := same_set_member same called
    simp only [Deposit.facts, Prod.mk.injEq] at facts
    exact ⟨twin, listed, facts.1.trans index, facts.2.1.trans commitment⟩
  apply get_commitments_ext
  intro entry
  rw [saved_entries poolAddress single, saved_entries poolAddress other]
  exact ⟨through same entry, through back entry⟩

theorem same_present (same : SameSet first second) (leafIndex : Int64) :
    commitmentExists (saveAll poolAddress first Db.empty) leafIndex =
      commitmentExists (saveAll poolAddress second Db.empty) leafIndex := by
  have through : ∀ {few many : List Deposit}, SameSet few many →
      (∃ deposit ∈ few, deposit.leafIndex = leafIndex) →
      ∃ deposit ∈ many, deposit.leafIndex = leafIndex := by
    rintro few many same ⟨deposit, called, index⟩
    obtain ⟨twin, listed, facts⟩ := same_set_member same called
    exact ⟨twin, listed, (congrArg Prod.fst facts).trans index⟩
  rw [Bool.eq_iff_iff, save_all_exists, save_all_exists]
  exact or_congr_right ⟨through same, through fun facts => (same facts).symm⟩

/-- The list and the existence check see the set alone; the root also needs both sequences to
end with the highest leaf. -/
theorem answers_alike_iff (poolAddress : String) (first second : List Deposit)
    (single : OnePerLeaf first) (same : SameSet first second) :
    AnswersAlike poolAddress first second ↔ EndsHighest first ∧ EndsHighest second := by
  have highest := highest_same single same
  constructor
  · intro alike
    have top := alike.highest
    have both := alike.root
    rw [latest_root_last] at top
    rw [latest_root_last, latest_root_last] at both
    exact ⟨top, both.symm.trans (top.trans highest)⟩
  · rintro ⟨here, there⟩
    refine ⟨same_commitments single same, get_commitments_rising _ _, same_present same, ?_, ?_⟩
    · rw [latest_root_last, latest_root_last]
      exact here.trans (highest.trans there.symm)
    · rw [latest_root_last]
      exact here

end Saving

/-! The deposits as the indexer takes them: nothing is saved where the index is known. -/
section Indexing
variable (poolAddress : String)

def index (db : Db) (deposit : Deposit) : Db :=
  if commitmentExists db deposit.leafIndex then db else save poolAddress db deposit

def indexAll (deposits : List Deposit) (db : Db) : Db := deposits.foldl (index poolAddress) db

theorem index_known {db : Db} {deposit : Deposit}
    (known : commitmentExists db deposit.leafIndex = true) : index poolAddress db deposit = db :=
  if_pos known

theorem index_new {db : Db} {deposit : Deposit}
    (new : commitmentExists db deposit.leafIndex = false) :
    index poolAddress db deposit = save poolAddress db deposit := if_neg (by simp [new])

theorem index_exists (db : Db) (deposit : Deposit) (leafIndex : Int64) :
    commitmentExists (index poolAddress db deposit) leafIndex = true ↔
      commitmentExists db leafIndex = true ∨ deposit.leafIndex = leafIndex := by
  cases known : commitmentExists db deposit.leafIndex with
  | true =>
      rw [index_known poolAddress known]
      constructor
      · exact Or.inl
      · rintro (old | rfl)
        · exact old
        · exact known
  | false => rw [index_new poolAddress known, save_exists]

theorem index_all_exists (deposits : List Deposit) (db : Db) (leafIndex : Int64) :
    commitmentExists (indexAll poolAddress deposits db) leafIndex = true ↔
      commitmentExists db leafIndex = true ∨
        ∃ deposit ∈ deposits, deposit.leafIndex = leafIndex := by
  induction deposits generalizing db with
  | nil => simp [indexAll]
  | cons deposit rest ih =>
      have later := ih (index poolAddress db deposit)
      rw [index_exists] at later
      simpa [indexAll, or_assoc] using later

/-- Whatever is new belongs to the pool. -/
theorem index_all_rows (deposits : List Deposit) (db : Db) {row : CommitmentRow}
    (member : row ∈ (indexAll poolAddress deposits db).commitments.rows) :
    row ∈ db.commitments.rows ∨ row.poolAddress = poolAddress := by
  induction deposits generalizing db with
  | nil => exact Or.inl member
  | cons deposit rest ih =>
      rcases ih (index poolAddress db deposit) member with held | own
      · cases known : commitmentExists db deposit.leafIndex with
        | true =>
            rw [index_known poolAddress known] at held
            exact Or.inl held
        | false =>
            rw [index_new poolAddress known] at held
            rcases (save_rows poolAddress db deposit row).mp held with old | ⟨rfl, _⟩
            · exact Or.inl old
            · exact Or.inr rfl
      · exact Or.inr own

end Indexing

/-! Two deposits, the first of them saved once more at the end. -/
section Sample

def firstDeposit : Deposit := ⟨0, Bytes32.ofNat 1, Bytes32.ofNat 10, "first"⟩

def secondDeposit : Deposit := ⟨1, Bytes32.ofNat 2, Bytes32.ofNat 20, "second"⟩

theorem sample_single : OnePerLeaf [firstDeposit, secondDeposit] := by
  unfold OnePerLeaf
  decide

theorem sample_same (again : Deposit) (known : again.facts = firstDeposit.facts ∨
    again.facts = secondDeposit.facts) :
    SameSet [firstDeposit, secondDeposit] [firstDeposit, secondDeposit, again] := by
  intro facts
  simp only [List.map_cons, List.map_nil, List.mem_cons, List.not_mem_nil, or_false]
  constructor
  · rintro (first | second)
    · exact Or.inl first
    · exact Or.inr (Or.inl second)
  · rintro (first | second | third)
    · exact Or.inl first
    · exact Or.inr second
    · exact known.imp third.trans third.trans

/-- The last deposit repeated. -/
theorem repeated_last_alike :
    AnswersAlike "pool" [firstDeposit, secondDeposit] [firstDeposit, secondDeposit, secondDeposit] ↔
      EndsHighest [firstDeposit, secondDeposit] ∧
        EndsHighest [firstDeposit, secondDeposit, secondDeposit] :=
  answers_alike_iff "pool" _ _ sample_single (sample_same secondDeposit (Or.inr rfl))

/-- A replay of the first deposit brings back its root. -/
theorem replay_moves_root :
    OnePerLeaf [firstDeposit, secondDeposit] ∧
      SameSet [firstDeposit, secondDeposit] [firstDeposit, secondDeposit, firstDeposit] ∧
      ¬ AnswersAlike "pool" [firstDeposit, secondDeposit]
        [firstDeposit, secondDeposit, firstDeposit] := by
  refine ⟨sample_single, sample_same firstDeposit (Or.inl rfl), ?_⟩
  intro alike
  have moved := alike.root
  rw [latest_root_last, latest_root_last] at moved
  revert moved
  decide

end Sample

end PrivateTransfer.Database
