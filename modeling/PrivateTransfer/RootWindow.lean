import PrivateTransfer.PoolRuns

/-!
Which roots a withdrawal may use. The program answers from ten slots; the
statement here is about the sequence of pushed roots alone.
-/

namespace PrivateTransfer.RootWindow

open PoolState PoolProgram PoolRuns

/-- The last ten of ten empty roots followed by everything pushed. -/
def recentRoots (pushed : List Bytes32) : List Bytes32 :=
  (List.replicate 10 emptyRoot ++ pushed).drop pushed.length

structure Window (pool : PoolAcc) (pushed : List Bytes32) : Prop where
  index : pool.currentRootIndex.toNat = pushed.length % 10
  current : pool.roots[pool.currentRootIndex.toNat]? =
    some ((emptyRoot :: pushed).getLast (by simp))
  changes : (emptyRoot :: pushed).IsChain (· ≠ ·)
  known : ∀ root, pool.isKnownRoot root = true ↔ root ∈ recentRoots pushed
  stays : ∀ (k : Nat) (inside : k < pushed.length),
    pool.isKnownRoot pushed[k] = true ↔ pushed.length ≤ k + 10 ∨
      ∃ (j : Nat) (later : j < pushed.length),
        k < j ∧ pushed.length ≤ j + 10 ∧ pushed[j] = pushed[k]
  empty : pool.isKnownRoot emptyRoot = true ↔
    pushed.length < 10 ∨ emptyRoot ∈ pushed.drop (pushed.length - 10)

theorem recent_mem_iff (pushed : List Bytes32) (root : Bytes32) :
    root ∈ recentRoots pushed ↔
      (pushed.length < 10 ∧ root = emptyRoot) ∨ root ∈ pushed.drop (pushed.length - 10) := by
  rw [recentRoots, List.drop_append, List.mem_append, List.drop_replicate, List.length_replicate,
    List.mem_replicate]
  constructor
  · rintro (⟨room, same⟩ | later)
    · exact Or.inl ⟨by omega, same⟩
    · exact Or.inr later
  · rintro (⟨room, same⟩ | later)
    · exact Or.inl ⟨by omega, same⟩
    · exact Or.inr later

/-- A pushed root is recent for ten pushes, its own among them, and again if repushed. -/
theorem pushed_recent_iff (pushed : List Bytes32) (k : Nat) (inside : k < pushed.length) :
    pushed[k] ∈ recentRoots pushed ↔ pushed.length ≤ k + 10 ∨
      ∃ (j : Nat) (later : j < pushed.length),
        k < j ∧ pushed.length ≤ j + 10 ∧ pushed[j] = pushed[k] := by
  rw [recent_mem_iff, List.mem_drop_iff_getElem]
  constructor
  · rintro (⟨short, _⟩ | ⟨i, within, same⟩)
    · exact Or.inl (by omega)
    · -- found in the window: as push `k` itself, or as a later push of the same root
      by_cases recent : pushed.length ≤ k + 10
      · exact Or.inl recent
      · exact Or.inr ⟨pushed.length - 10 + i, by omega, by omega, by omega, same⟩
  · rintro (recent | ⟨j, later, _, recent, same⟩)
    · right
      have offset : pushed.length - 10 + (k - (pushed.length - 10)) = k := by omega
      exact ⟨k - (pushed.length - 10), by omega, by simp only [offset]⟩
    · right
      have offset : pushed.length - 10 + (j - (pushed.length - 10)) = j := by omega
      exact ⟨j - (pushed.length - 10), by omega, by simp only [offset, same]⟩

variable {verifier : List UInt8 → Bool} {deployment : Deployment}

theorem follows_window {history : List (Transaction deployment)} {pool : PoolAcc}
    (follows : Follows history pool) : Window pool (pushedRoots history) := by
  have known : ∀ root, pool.isKnownRoot root = true ↔ root ∈ recentRoots (pushedRoots history) := by
    intro root
    have beyond : (rootHistory (pushedRoots history)).length - rootHistorySize =
        (pushedRoots history).length := by
      rw [history_length, Nat.add_sub_cancel_left]
    rw [known_root_iff, RingBuffer.holds_mem_iff follows.rooted.window, beyond]
    rfl
  constructor
  · exact follows.rooted.position
  · exact current_root follows.rooted
  · exact follows.changing
  · exact known
  · intro k inside
    rw [known, pushed_recent_iff]
  · rw [known, recent_mem_iff, and_iff_left rfl]

/-- After any run, acceptance of a root is a matter of the last ten pushes. -/
theorem root_window (launch : Launch verifier deployment)
    (calls : List (Transaction deployment)) :
    ∃ pool, (launch.run calls).pool = some pool ∧
      Window pool (pushedRoots (launch.history calls)) := by
  obtain ⟨pool, stored, follows⟩ := run_follows launch calls
  exact ⟨pool, stored, follows_window follows⟩

end PrivateTransfer.RootWindow
