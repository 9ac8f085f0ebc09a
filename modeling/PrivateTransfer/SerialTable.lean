import Mathlib.Data.List.Nodup
import Mathlib.Data.List.Pairwise

/-!
A database table with nothing but a serial key: every insert draws the next id, also
one that is rolled back, so the ids rise from row to row and may leave gaps. The
query for the latest row sorts by id, which is the order the rows were inserted in.
-/

namespace PrivateTransfer

structure SerialTable (Row : Type) where
  rows : List (Nat × Row)
  next : Nat
  rising : rows.Pairwise fun row later => row.1 < later.1
  drawn : ∀ row ∈ rows, row.1 < next

namespace SerialTable

variable {Row : Type}

def empty : SerialTable Row := ⟨[], 1, List.Pairwise.nil, by simp⟩

/-- The rows without their ids, in the order of the ids. -/
def contents (table : SerialTable Row) : List Row := table.rows.map Prod.snd

def insert (table : SerialTable Row) (row : Row) : SerialTable Row where
  rows := table.rows ++ [(table.next, row)]
  next := table.next + 1
  rising := by
    simp only [List.pairwise_append, List.pairwise_singleton, List.mem_singleton]
    refine ⟨table.rising, trivial, ?_⟩
    rintro old member _ rfl
    exact table.drawn old member
  drawn := by
    intro held member
    rcases List.mem_append.mp member with old | new
    · exact Nat.lt_succ_of_lt (table.drawn held old)
    · rw [List.mem_singleton.mp new]
      exact Nat.lt_succ_self _

/-- What a rolled back insert leaves: its id is gone. -/
def skip (table : SerialTable Row) : SerialTable Row :=
  { table with
    next := table.next + 1
    drawn := fun row member => Nat.lt_succ_of_lt (table.drawn row member) }

@[simp] theorem contents_empty : (empty : SerialTable Row).contents = [] := rfl

@[simp] theorem contents_insert (table : SerialTable Row) (row : Row) :
    (table.insert row).contents = table.contents ++ [row] := by simp [contents, insert]

/-- `SELECT .. WHERE wanted ORDER BY id DESC LIMIT 1`. -/
def latest (table : SerialTable Row) (wanted : Row → Bool) : Option Row :=
  (((table.rows.filter fun row => wanted row.2).mergeSort
    fun row other => decide (other.1 ≤ row.1)).head?).map Prod.snd

theorem id_unique (table : SerialTable Row) {row other : Nat × Row} (first : row ∈ table.rows)
    (second : other ∈ table.rows) (same : row.1 = other.1) : row = other := by
  have ids : (table.rows.map Prod.fst).Nodup := by
    rw [List.Nodup, List.pairwise_map]
    exact table.rising.imp fun less => Nat.ne_of_lt less
  exact List.inj_on_of_nodup_map ids first second same

/-- Sorting by falling id turns the rows around. -/
theorem falling_reverse (table : SerialTable Row) (wanted : Nat × Row → Bool) :
    (table.rows.filter wanted).mergeSort (fun row other => decide (other.1 ≤ row.1)) =
      (table.rows.filter wanted).reverse := by
  have ordered : ((table.rows.filter wanted).mergeSort
      (fun row other => decide (other.1 ≤ row.1))).Pairwise
        fun row other => decide (other.1 ≤ row.1) = true :=
    List.pairwise_mergeSort (by simp; omega) (by simp; omega) _
  have falling : (table.rows.filter wanted).reverse.Pairwise
      fun row other => decide (other.1 ≤ row.1) = true := by
    rw [List.pairwise_reverse]
    exact (table.rising.filter wanted).imp fun less => by simpa using Nat.le_of_lt less
  have held : ∀ row, row ∈ table.rows.filter wanted → row ∈ table.rows :=
    fun row member => (List.mem_filter.mp member).1
  apply List.Perm.eq_of_pairwise _ ordered falling
  · exact (List.mergeSort_perm _ _).trans (List.reverse_perm _).symm
  · intro row other first second above below
    rw [List.mem_mergeSort] at first
    rw [List.mem_reverse] at second
    simp only [decide_eq_true_eq] at above below
    exact id_unique table (held row first) (held other second) (Nat.le_antisymm below above)

/-- The latest row is the one inserted last. -/
theorem latest_last (table : SerialTable Row) (wanted : Row → Bool) :
    table.latest wanted = (table.contents.filter wanted).getLast? := by
  rw [latest, falling_reverse, List.head?_reverse, contents, List.filter_map, List.getLast?_map]
  rfl

end SerialTable

end PrivateTransfer
