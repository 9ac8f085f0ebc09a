import Mathlib.Data.List.Nodup

/-!
A database table with one unique column, written by inserts that do nothing on
a conflict: the first row with a key stays, whatever is inserted afterwards.
-/

namespace PrivateTransfer

structure UniqueTable {Row Key : Type} (key : Row → Key) where
  rows : List Row
  unique : (rows.map key).Nodup

namespace UniqueTable

variable {Row Key : Type} {key : Row → Key}

/-- Two rows of the table with one key are one row. -/
theorem row_unique (table : UniqueTable key) {row other : Row} (first : row ∈ table.rows)
    (second : other ∈ table.rows) (same : key row = key other) : row = other :=
  List.inj_on_of_nodup_map table.unique first second same

def empty : UniqueTable key := ⟨[], List.nodup_nil⟩

variable [DecidableEq Key]

/-- `SELECT COUNT(*) .. WHERE key = k` is positive. -/
def has (table : UniqueTable key) (k : Key) : Bool := decide (k ∈ table.rows.map key)

theorem has_iff (table : UniqueTable key) (k : Key) :
    table.has k = true ↔ ∃ row ∈ table.rows, key row = k := by
  rw [has, decide_eq_true_eq, List.mem_map]

theorem nodup_snoc {table : UniqueTable key} {row : Row} (fresh : table.has (key row) ≠ true) :
    ((table.rows ++ [row]).map key).Nodup := by
  rw [List.map_append, List.map_singleton]
  refine List.Nodup.append table.unique (List.nodup_singleton _) ?_
  rw [List.disjoint_singleton]
  intro member
  exact fresh (decide_eq_true member)

/-- `INSERT .. ON CONFLICT DO NOTHING`. -/
def insert (table : UniqueTable key) (row : Row) : UniqueTable key :=
  if present : table.has (key row) = true then table else ⟨table.rows ++ [row], nodup_snoc present⟩

theorem insert_present {table : UniqueTable key} {row : Row}
    (present : table.has (key row) = true) : table.insert row = table := dif_pos present

theorem insert_fresh {table : UniqueTable key} {row : Row}
    (fresh : table.has (key row) ≠ true) : (table.insert row).rows = table.rows ++ [row] := by
  rw [insert, dif_neg fresh]

theorem insert_grows (table : UniqueTable key) (row : Row) :
    table.rows <+: (table.insert row).rows := by
  by_cases present : table.has (key row) = true
  · exact ⟨[], by rw [insert_present present, List.append_nil]⟩
  · exact ⟨[row], (insert_fresh present).symm⟩

theorem has_insert (table : UniqueTable key) (row : Row) :
    (table.insert row).has (key row) = true := by
  by_cases present : table.has (key row) = true
  · rw [insert_present present]
    exact present
  · rw [has_iff, insert_fresh present]
    exact ⟨row, List.mem_append_right _ List.mem_cons_self, rfl⟩

theorem mem_insert_iff (table : UniqueTable key) (row other : Row) :
    other ∈ (table.insert row).rows ↔
      other ∈ table.rows ∨ other = row ∧ table.has (key row) ≠ true := by
  by_cases present : table.has (key row) = true
  · rw [insert_present present]
    simp [present]
  · rw [insert_fresh present, List.mem_append, List.mem_singleton, and_iff_left present]

/-! The same rows with other columns beside the key. -/
section Columns
variable {Other : Type} {kept : Other → Key}

def project (table : UniqueTable key) (columns : Row → Other)
    (keeps : ∀ row, kept (columns row) = key row) : UniqueTable kept :=
  ⟨table.rows.map columns, by
    rw [List.map_map, show kept ∘ columns = key from funext keeps]
    exact table.unique⟩

variable (table : UniqueTable key) (columns : Row → Other)
  (keeps : ∀ row, kept (columns row) = key row)

theorem has_project (k : Key) : (table.project columns keeps).has k = table.has k := by
  rw [has, has, project, List.map_map, show kept ∘ columns = key from funext keeps]

theorem insert_project (row : Row) : (table.insert row).project columns keeps =
    (table.project columns keeps).insert (columns row) := by
  by_cases present : table.has (key row) = true
  · have there : (table.project columns keeps).has (kept (columns row)) = true := by
      rw [has_project, keeps, present]
    rw [insert_present present, insert_present there]
  · have absent : ¬ (table.project columns keeps).has (kept (columns row)) = true := by
      rw [has_project, keeps]
      exact present
    rw [insert, dif_neg present, insert, dif_neg absent]
    simp [project]

end Columns

/-- The row with a key. -/
def find (table : UniqueTable key) (k : Key) : Option Row := table.rows.find? (key · = k)

theorem find_iff (table : UniqueTable key) (k : Key) (row : Row) :
    table.find k = some row ↔ row ∈ table.rows ∧ key row = k := by
  constructor
  · intro found
    exact ⟨List.mem_of_find?_eq_some found, by simpa using List.find?_some found⟩
  · rintro ⟨member, same⟩
    cases found : table.find k with
    | none => simpa [same] using List.find?_eq_none.mp found row member
    | some other =>
        have keyed : key other = k := by simpa using List.find?_some found
        rw [row_unique table (List.mem_of_find?_eq_some found) member (keyed.trans same.symm)]

theorem has_find (table : UniqueTable key) (k : Key) :
    table.has k = true ↔ (table.find k).isSome = true := by
  rw [has_iff, Option.isSome_iff_exists]
  constructor
  · rintro ⟨row, member, same⟩
    exact ⟨row, (find_iff _ _ _).mpr ⟨member, same⟩⟩
  · rintro ⟨row, found⟩
    exact ⟨row, (find_iff _ _ _).mp found⟩

theorem find_insert (table : UniqueTable key) (row : Row) (k : Key) :
    (table.insert row).find k = (table.find k).or (if key row = k then some row else none) := by
  by_cases present : table.has (key row) = true
  · rw [insert_present present]
    by_cases same : key row = k
    · cases same
      obtain ⟨kept, found⟩ := Option.isSome_iff_exists.mp ((has_find _ _).mp present)
      rw [found]
      rfl
    · rw [if_neg same, Option.or_none]
  · rw [find, insert_fresh present, List.find?_append, find, List.find?_singleton]
    simp

end UniqueTable

end PrivateTransfer
