import Mathlib.Data.List.Basic

/-!
Runs of a machine whose calls either commit a new state or fail and leave the
old one. A run keeps going after a failure; its history is the list of calls
that committed, and the final state is a function of that history alone.
-/

namespace PrivateTransfer.Runs

variable {State Call Failure : Type} (step : State → Call → Except Failure State)

/-- One call as the environment sees it: a failed call is rolled back. -/
def commit (state : State) (call : Call) : State :=
  match step state call with
  | .ok next => next
  | .error _ => state

def run (state : State) (calls : List Call) : State := calls.foldl (commit step) state

def accepted : State → List Call → List Call
  | _, [] => []
  | state, call :: rest =>
      match step state call with
      | .ok next => call :: accepted next rest
      | .error _ => accepted state rest

/-- The committed calls of a run, with the state they lead to. -/
inductive Trace (start : State) : List Call → State → Prop
  | none : Trace start [] start
  | snoc {history : List Call} {before after : State} {call : Call} :
      Trace start history before → step before call = .ok after →
        Trace start (history ++ [call]) after

theorem trace_cons {start middle final : State} {call : Call} {history : List Call}
    (first : step start call = .ok middle) (rest : Trace step middle history final) :
    Trace step start (call :: history) final := by
  induction rest with
  | none => exact Trace.snoc Trace.none first
  | snoc _ last ih => exact Trace.snoc ih last

theorem run_trace (state : State) (calls : List Call) :
    Trace step state (accepted step state calls) (run step state calls) := by
  induction calls generalizing state with
  | nil => exact Trace.none
  | cons call rest ih =>
      cases outcome : step state call with
      | ok next => simpa [accepted, run, commit, outcome] using trace_cons step outcome (ih next)
      | error _ => simpa [accepted, run, commit, outcome] using ih state

@[simp] theorem run_append (state : State) (first second : List Call) :
    run step state (first ++ second) = run step (run step state first) second := by
  simp [run]

theorem accepted_append (state : State) (first second : List Call) :
    accepted step state (first ++ second) =
      accepted step state first ++ accepted step (run step state first) second := by
  induction first generalizing state with
  | nil => rfl
  | cons call rest ih =>
      cases outcome : step state call with
      | ok next => simpa [accepted, run, commit, outcome] using ih next
      | error _ => simpa [accepted, run, commit, outcome] using ih state

theorem accepted_subset (state : State) (calls : List Call) (call : Call)
    (member : call ∈ accepted step state calls) : call ∈ calls := by
  induction calls generalizing state with
  | nil => simp [accepted] at member
  | cons head rest ih =>
      cases outcome : step state head with
      | ok next =>
          rw [accepted, outcome] at member
          rcases List.mem_cons.mp member with same | later
          · exact same ▸ List.mem_cons_self
          · exact List.mem_cons_of_mem _ (ih next later)
      | error _ =>
          rw [accepted, outcome] at member
          exact List.mem_cons_of_mem _ (ih state member)

theorem trace_run {start final : State} {history : List Call}
    (trace : Trace step start history final) : run step start history = final := by
  induction trace with
  | none => rfl
  | snoc _ last ih =>
      rw [run_append, ih]
      simp [run, commit, last]

/-- A history can be cut at any of its calls. -/
theorem trace_cut {start final : State} {history before after : List Call} {call : Call}
    (trace : Trace step start history final) (cut : history = before ++ call :: after) :
    ∃ middle next, Trace step start before middle ∧ step middle call = .ok next := by
  induction trace generalizing after with
  | none => exact absurd cut.symm (by simp)
  | snoc earlier last ih =>
      rcases List.eq_nil_or_concat after with rfl | ⟨front, newest, rfl⟩
      · -- the cut falls on the newest call
        obtain ⟨rfl, same⟩ := List.append_inj' cut rfl
        obtain rfl := List.singleton_inj.mp same
        exact ⟨_, _, earlier, last⟩
      · rw [List.concat_eq_append, ← List.cons_append, ← List.append_assoc] at cut
        exact ih (List.append_inj' cut rfl).1

/-- What every committed call preserves holds after the whole run. -/
theorem trace_invariant {Good : State → Prop} {start final : State} {history : List Call}
    (trace : Trace step start history final) (initial : Good start)
    (kept : ∀ before call after, Good before → step before call = .ok after → Good after) :
    Good final := by
  induction trace with
  | none => exact initial
  | snoc _ last ih => exact kept _ _ _ ih last

theorem run_invariant (Good : State → Prop) (state : State) (calls : List Call)
    (initial : Good state)
    (kept : ∀ before call after, Good before → step before call = .ok after → Good after) :
    Good (run step state calls) :=
  trace_invariant step (run_trace step state calls) initial kept

/-! Runs in which nothing fails. -/
section Committed

def allCommit : State → List Call → Bool
  | _, [] => true
  | state, call :: rest =>
      match step state call with
      | .ok next => allCommit next rest
      | .error _ => false

theorem all_commit_accepted (state : State) (calls : List Call)
    (committed : allCommit step state calls = true) : accepted step state calls = calls := by
  induction calls generalizing state with
  | nil => rfl
  | cons call rest ih =>
      cases outcome : step state call with
      | ok next =>
          rw [allCommit, outcome] at committed
          rw [accepted, outcome]
          exact congrArg (call :: ·) (ih next committed)
      | error _ =>
          rw [allCommit, outcome] at committed
          exact absurd committed Bool.false_ne_true

/-- A machine that commits whatever another one does replays its runs. -/
theorem all_commit_mono (other : State → Call → Except Failure State) (state : State)
    (calls : List Call) (committed : allCommit step state calls = true)
    (follows : ∀ before, ∀ call ∈ calls, ∀ after,
      step before call = .ok after → other before call = .ok after) :
    allCommit other state calls = true := by
  induction calls generalizing state with
  | nil => rfl
  | cons call rest ih =>
      cases outcome : step state call with
      | ok next =>
          rw [allCommit, outcome] at committed
          rw [allCommit, follows state call List.mem_cons_self next outcome]
          exact ih next committed fun before later member =>
            follows before later (List.mem_cons_of_mem _ member)
      | error _ =>
          rw [allCommit, outcome] at committed
          exact absurd committed Bool.false_ne_true

theorem all_commit_cons {state : State} {call : Call} {rest : List Call}
    (committed : allCommit step state (call :: rest) = true) :
    step state call = .ok (commit step state call) ∧
      allCommit step (commit step state call) rest = true := by
  rw [commit]
  cases outcome : step state call with
  | ok next =>
      rw [allCommit, outcome] at committed
      exact ⟨rfl, committed⟩
  | error _ =>
      rw [allCommit, outcome] at committed
      exact absurd committed Bool.false_ne_true

theorem all_commit_singleton (state : State) (call : Call)
    (committed : allCommit step state [call] = true) :
    step state call = .ok (commit step state call) :=
  (all_commit_cons step committed).1

end Committed

end PrivateTransfer.Runs
