import PrivateTransfer.Prover

/-!
The temporary witness file of `handle_prove`. The file is written, handed to `sunspot`
and removed by one statement in the middle of the handler; a `?` before that statement
and a client that disconnects at an `.await` both end the request without it. A file
operation that has begun goes on by itself when its request is cancelled.
-/

namespace PrivateTransfer.WitnessFiles

open Prover (ProveResponse StatusCode base64)

/-- Where a request stands: at one of its awaits, or at its end. -/
inductive Stage where
  | received
  | writing (witness : List UInt8)
  | proving
  | removing (status : Except String Unit)
  | readingProof
  | readingPublicWitness (proof : List UInt8)
  | answered (response : ProveResponse)
  | refused (status : StatusCode) (message : String)
  | cancelled

/-- What an await comes to. A write that is broken off may have created the file, with a part
of the witness in it. -/
inductive Outcome where
  | started
  | written
  | writeFails (part : Option (List UInt8)) (error : String)
  | unstartable (error : String)
  | ended (status : Except String Unit)
  | removed
  | removeFails
  | read (bytes : List UInt8)
  | readFails (error : String)
  | cancelledWriting (part : Option (List UInt8))
  | cancelledProving
  | cancelledRemoving (removed : Bool)
  | cancelledReading

abbrev File := Option (List UInt8)

def PartOf (witness : List UInt8) (part : File) : Prop :=
  ∀ bytes, part = some bytes → bytes <+: witness

/-- Behind `remove_file`, whose own result is ignored. -/
def afterRemoval : Except String Unit → Stage
  | .ok () => .readingProof
  | .error stderr => .refused .internalServerError ("sunspot error: " ++ stderr)

/-- One await of a request, and its witness file before and after. -/
inductive Moves (payload : String) : Stage → File → Outcome → Stage → File → Prop
  | start {file : File} (witness : List UInt8)
      (decoded : Base64.decode payload.toList = some witness) :
      Moves payload .received file .started (.writing witness) file
  | badPayload {file : File} (error : String) (unread : Base64.decode payload.toList = none) :
      Moves payload .received file .started
        (.refused .badRequest ("Invalid base64: " ++ error)) file
  | written {file : File} (witness : List UInt8) :
      Moves payload (.writing witness) file .written .proving (some witness)
  | writeFails {file : File} (witness : List UInt8) (part : File) (error : String)
      (torn : PartOf witness part) :
      Moves payload (.writing witness) file (.writeFails part error)
        (.refused .internalServerError ("Write failed: " ++ error)) part
  | unstartable {file : File} (error : String) :
      Moves payload .proving file (.unstartable error)
        (.refused .internalServerError ("sunspot failed: " ++ error)) file
  | ended {file : File} (status : Except String Unit) :
      Moves payload .proving file (.ended status) (.removing status) file
  | removed {file : File} (status : Except String Unit) :
      Moves payload (.removing status) file .removed (afterRemoval status) none
  | removeFails {file : File} (status : Except String Unit) :
      Moves payload (.removing status) file .removeFails (afterRemoval status) file
  | readProof {file : File} (proof : List UInt8) :
      Moves payload .readingProof file (.read proof) (.readingPublicWitness proof) file
  | readProofFails {file : File} (error : String) :
      Moves payload .readingProof file (.readFails error)
        (.refused .internalServerError ("Read proof failed: " ++ error)) file
  | readPublicWitness {file : File} (proof publicWitness : List UInt8) :
      Moves payload (.readingPublicWitness proof) file (.read publicWitness)
        (.answered ⟨base64 proof, base64 publicWitness⟩) file
  | readPublicWitnessFails {file : File} (proof : List UInt8) (error : String) :
      Moves payload (.readingPublicWitness proof) file (.readFails error)
        (.refused .internalServerError ("Read pw failed: " ++ error)) file
  | cancelledWriting {file : File} (witness : List UInt8) (part : File)
      (torn : PartOf witness part) :
      Moves payload (.writing witness) file (.cancelledWriting part) .cancelled part
  | cancelledProving {file : File} :
      Moves payload .proving file .cancelledProving .cancelled file
  | cancelledRemoving {file : File} (status : Except String Unit) (removed : Bool) :
      Moves payload (.removing status) file (.cancelledRemoving removed) .cancelled
        (if removed then none else file)
  | cancelledReadingProof {file : File} :
      Moves payload .readingProof file .cancelledReading .cancelled file
  | cancelledReadingPublicWitness {file : File} (proof : List UInt8) :
      Moves payload (.readingPublicWitness proof) file .cancelledReading .cancelled file

/-- The requests by number, each with a file under a name of its own. -/
structure System where
  files : Nat → File
  stages : Nat → Stage

abbrev Action := Nat × Outcome

/-- The names are fresh, so none of the files exists. -/
def initial : System where
  files := fun _ => none
  stages := fun _ => .received

def System.set (system : System) (request : Nat) (stage : Stage) (file : File) : System where
  files := Function.update system.files request file
  stages := Function.update system.stages request stage

section Runs
variable (payload : Nat → String)

inductive Step (system : System) : Action → System → Prop
  | move (request : Nat) {outcome : Outcome} {stage : Stage} {file : File}
      (moves : Moves (payload request) (system.stages request) (system.files request) outcome
        stage file) :
      Step system (request, outcome) (system.set request stage file)

/-- The awaits of any number of requests, in the order in which they came to their ends. -/
inductive Run : List Action → System → Prop
  | start : Run [] initial
  | next {actions : List Action} {before after : System} {action : Action}
      (earlier : Run actions before) (step : Step payload before action after) :
      Run (actions ++ [action]) after

end Runs

/-- No longer in flight. -/
def Finished : Stage → Prop
  | .answered _ | .refused _ _ | .cancelled => True
  | _ => False

def NoWitnessLeft (system : System) : Prop :=
  ∀ request, Finished (system.stages request) → system.files request = none

/-- The ends of an await that take the request past its clean-up, or the clean-up past
the file. -/
def Leaves : Outcome → Prop
  | .writeFails part _ | .cancelledWriting part => part ≠ none
  | .unstartable _ | .removeFails | .cancelledProving => True
  | .cancelledRemoving removed => removed = false
  | _ => False

section Tracking

/-- The file of a request against whether one of its awaits has left it behind. -/
def Tracks (left : Prop) : Stage → File → Prop
  | .received, file | .writing _, file => file = none ∧ ¬ left
  | .proving, file | .removing _, file => file ≠ none ∧ ¬ left
  | _, file => file ≠ none ↔ left

theorem tracks_finished {left : Prop} {stage : Stage} {file : File}
    (tracks : Tracks left stage file) (finished : Finished stage) : file ≠ none ↔ left := by
  cases stage with
  | answered response => exact tracks
  | refused status message => exact tracks
  | cancelled => exact tracks
  | received | writing witness | proving | removing status | readingProof
  | readingPublicWitness proof => exact finished.elim

theorem tracks_removal {left : Prop} {file : File} (status : Except String Unit)
    (same : file ≠ none ↔ left) : Tracks left (afterRemoval status) file := by
  cases status <;> exact same

/-- One await keeps the account of its request's file. -/
theorem tracks_move {payload : String} {left : Prop} {before after : Stage} {file next : File}
    {outcome : Outcome} (tracks : Tracks left before file)
    (moves : Moves payload before file outcome after next) :
    Tracks (left ∨ Leaves outcome) after next := by
  cases moves with
  | start witness decoded => exact ⟨tracks.1, by simpa [Leaves] using tracks.2⟩
  | badPayload error unread => simp [Tracks, Leaves, tracks.1, tracks.2]
  | written witness => exact ⟨nofun, by simpa [Leaves] using tracks.2⟩
  | writeFails witness part error torn => simp [Tracks, Leaves, tracks.2]
  | unstartable error => simp [Tracks, Leaves, tracks.1]
  | ended status => exact ⟨tracks.1, by simpa [Leaves] using tracks.2⟩
  | removed status => exact tracks_removal status (by simp [Leaves, tracks.2])
  | removeFails status => exact tracks_removal status (by simp [Leaves, tracks.1])
  | readProof proof => simpa [Tracks, Leaves] using tracks
  | readProofFails error => simpa [Tracks, Leaves] using tracks
  | readPublicWitness proof publicWitness => simpa [Tracks, Leaves] using tracks
  | readPublicWitnessFails proof error => simpa [Tracks, Leaves] using tracks
  | cancelledWriting witness part torn => simp [Tracks, Leaves, tracks.2]
  | cancelledProving => simp [Tracks, Leaves, tracks.1]
  | cancelledRemoving status removed => cases removed <;> simp [Tracks, Leaves, tracks.1, tracks.2]
  | cancelledReadingProof => simpa [Tracks, Leaves] using tracks
  | cancelledReadingPublicWitness proof => simpa [Tracks, Leaves] using tracks

/-- Whether an await of the request has left its file, in the run so far. -/
def LeftIn (actions : List Action) (request : Nat) : Prop :=
  ∃ outcome, (request, outcome) ∈ actions ∧ Leaves outcome

theorem left_snoc (actions : List Action) (action : Action) (request : Nat) :
    LeftIn (actions ++ [action]) request ↔
      LeftIn actions request ∨ (request = action.1 ∧ Leaves action.2) := by
  constructor
  · rintro ⟨outcome, member, leaves⟩
    rcases List.mem_append.mp member with earlier | last
    · exact Or.inl ⟨outcome, earlier, leaves⟩
    · obtain rfl := List.mem_singleton.mp last
      exact Or.inr ⟨rfl, leaves⟩
  · rintro (⟨outcome, earlier, leaves⟩ | ⟨rfl, leaves⟩)
    · exact ⟨outcome, List.mem_append_left _ earlier, leaves⟩
    · exact ⟨action.2, List.mem_append_right _ List.mem_cons_self, leaves⟩

variable {payload : Nat → String}

theorem run_tracks {actions : List Action} {system : System} (run : Run payload actions system)
    (request : Nat) :
    Tracks (LeftIn actions request) (system.stages request) (system.files request) := by
  induction run with
  | start =>
      refine ⟨rfl, ?_⟩
      rintro ⟨outcome, member, _⟩
      exact absurd member List.not_mem_nil
  | next earlier step ih =>
      obtain ⟨mover, moves⟩ := step
      rw [left_snoc]
      by_cases own : request = mover
      · subst own
        simpa [System.set] using tracks_move ih moves
      · simpa [System.set, own] using ih

/-- A request that is over has left its file exactly if one of its awaits did. -/
theorem no_witness_left_iff {actions : List Action} {system : System}
    (run : Run payload actions system) :
    NoWitnessLeft system ↔
      ∀ request, Finished (system.stages request) → ∀ outcome, (request, outcome) ∈ actions →
        ¬ Leaves outcome := by
  have account : ∀ request, Finished (system.stages request) →
      (system.files request = none ↔ ¬ LeftIn actions request) := by
    intro request finished
    rw [← tracks_finished (run_tracks run request) finished, not_not]
  constructor
  · intro none request finished outcome member leaves
    exact (account request finished).mp (none request finished) ⟨outcome, member, leaves⟩
  · intro clean request finished
    apply (account request finished).mpr
    rintro ⟨outcome, member, leaves⟩
    exact clean request finished outcome member leaves

end Tracking

/-! The handler with the two shared files in view takes these steps, between those of its
`sunspot`; what is left of a file after `remove_file` is nothing or the file. -/
section Views

def viewStage : Prover.Stage → Stage
  | .received => .received
  | .decoded witness => .writing witness
  | .saved | .proving _ => .proving
  | .ended (.ok _) => .removing (.ok ())
  | .ended (.error stderr) => .removing (.error stderr)
  | .cleaned _ => .readingProof
  | .proofRead _ proof => .readingPublicWitness proof
  | .answered _ response => .answered response
  | .refused status message => .refused status message

def view (system : Prover.System) : System where
  files := system.files.witness
  stages := fun request => viewStage (system.stages request)

theorem view_set (system : Prover.System) (request : Nat) (stage : Prover.Stage) (file : File) :
    view { system.setStage request stage with
      files := { system.files with
        witness := Function.update system.files.witness request file } } =
      (view system).set request (viewStage stage) file := by
  have stages : (fun other => viewStage (Function.update system.stages request stage other)) =
      Function.update (fun other => viewStage (system.stages other)) request (viewStage stage) := by
    funext other
    by_cases same : other = request
    · subst same
      simp
    · simp [same]
  simp only [view, Prover.System.setStage, System.set, stages]

theorem view_stage (system : Prover.System) (request : Nat) (stage : Prover.Stage) :
    view (system.setStage request stage) =
      (view system).set request (viewStage stage) ((view system).files request) := by
  rw [← view_set]
  simp [view, Prover.System.setStage]

theorem view_kept {system : Prover.System} {request : Nat} {stage next : Prover.Stage}
    (at_stage : system.stages request = stage) (same : viewStage next = viewStage stage) :
    view (system.setStage request next) = view system := by
  rw [view_stage, same]
  simp [System.set, view, ← at_stage]

variable {payload : Nat → String} {sunspot : List UInt8 → List UInt8 → List UInt8 → Prop}

/-- An await of the handler seen on the witness files. -/
theorem view_moves {before : Prover.System} {request : Nat} {stage : Prover.Stage}
    (next : Prover.Stage) {file : File} {outcome : Outcome}
    (at_stage : before.stages request = stage)
    (moves : Moves (payload request) (viewStage stage) (before.files.witness request) outcome
      (viewStage next) file) :
    Step payload (view before) (request, outcome)
      ((view before).set request (viewStage next) file) := by
  apply Step.move
  have seen : (view before).stages request = viewStage stage := congrArg viewStage at_stage
  rw [seen]
  exact moves

/-- A file does not exist before its write, and `remove_file` leaves nothing or the file. -/
structure Tidy (before after : Prover.System) : Prop where
  fresh : ∀ request witness, before.stages request = .decoded witness →
    before.files.witness request = none
  removal : ∀ request result, before.stages request = .ended result →
    after.files.witness request = none ∨
      after.files.witness request = before.files.witness request

/-- The two ends of `remove_file`. -/
theorem view_removes {before : Prover.System} {request : Nat}
    {result : Except String Prover.Output} (next : Prover.Stage) (kept : File)
    (ended : before.stages request = .ended result) {status : Except String Unit}
    (seen : viewStage (.ended result) = .removing status)
    (past : viewStage next = afterRemoval status)
    (either : kept = none ∨ kept = before.files.witness request) :
    ∃ moved, Step payload (view before) moved
      ((view before).set request (viewStage next) kept) := by
  rcases either with rfl | rfl
  · refine ⟨(request, .removed), view_moves next ended ?_⟩
    rw [seen, past]
    exact .removed status
  · refine ⟨(request, .removeFails), view_moves next ended ?_⟩
    rw [seen, past]
    exact .removeFails status

theorem prover_step {before after : Prover.System} {action : Prover.Action}
    (step : Prover.Step payload sunspot before action after)
    (tidy : Tidy before after) :
    view after = view before ∨ ∃ moved, Step payload (view before) moved (view after) := by
  cases step with
  | decode request witness at_start read =>
      rw [view_stage]
      exact Or.inr ⟨_, view_moves (.decoded witness) at_start (.start witness read)⟩
  | badPayload request error at_start unread =>
      rw [view_stage]
      exact Or.inr ⟨_, view_moves (.refused _ _) at_start (.badPayload error unread)⟩
  | save request witness decoded =>
      rw [view_set]
      exact Or.inr ⟨_, view_moves .saved decoded (.written witness)⟩
  | saveFails request witness error decoded =>
      have absent : (view before).files request = none := tidy.fresh request witness decoded
      rw [view_stage, absent]
      exact Or.inr ⟨_, view_moves (.refused _ _) decoded (.writeFails witness none error nofun)⟩
  | spawn request witness saved stored => exact Or.inl (view_kept saved rfl)
  | spawnFails request error saved =>
      rw [view_stage]
      exact Or.inr ⟨_, view_moves (.refused _ _) saved (.unstartable error)⟩
  | writeProof request command proof proving fresh => exact Or.inl (view_kept proving rfl)
  | writePublicWitness request command publicWitness proving fresh =>
      exact Or.inl (view_kept proving rfl)
  | succeed request output proving made =>
      rw [view_stage]
      exact Or.inr ⟨_, view_moves (.ended (.ok output)) proving (.ended (.ok ()))⟩
  | fail request command stderr proving =>
      rw [view_stage]
      exact Or.inr ⟨_, view_moves (.ended (.error stderr)) proving (.ended (.error stderr))⟩
  | cleanUp request output kept ended =>
      have either := tidy.removal request _ ended
      simp only [Function.update_self] at either
      rw [view_set]
      exact Or.inr (view_removes (.cleaned output) kept ended rfl rfl either)
  | cleanUpFailed request stderr kept ended =>
      have either := tidy.removal request _ ended
      simp only [Function.update_self] at either
      rw [view_set]
      exact Or.inr (view_removes (.refused _ _) kept ended rfl rfl either)
  | readProof request output proof cleaned stored =>
      rw [view_stage]
      exact Or.inr ⟨_, view_moves (.proofRead output proof) cleaned (.readProof proof)⟩
  | readProofFails request output error cleaned =>
      rw [view_stage]
      exact Or.inr ⟨_, view_moves (.refused _ _) cleaned (.readProofFails error)⟩
  | readPublicWitness request output proof publicWitness proofRead stored =>
      rw [view_stage]
      exact Or.inr ⟨_, view_moves (.answered output _) proofRead
        (.readPublicWitness proof publicWitness)⟩
  | readPublicWitnessFails request output proof error proofRead =>
      rw [view_stage]
      exact Or.inr ⟨_, view_moves (.refused _ _) proofRead
        (.readPublicWitnessFails proof error)⟩

end Views

section Samples

def samplePayload (_ : Nat) : String := "AA=="

theorem sample_decoded : Base64.decode (samplePayload 0).toList = some [0] := by decide +kernel

/-- A request that loses its proof, but only behind the removal of its file. -/
def lateActions : List Action :=
  [(0, .started), (0, .written), (0, .ended (.ok ())), (0, .removed), (0, .readFails "")]

theorem late_run : ∃ system, Run samplePayload lateActions system ∧
    Finished (system.stages 0) := by
  have started := Run.start.next (Step.move 0 (.start [0] sample_decoded))
  have written := started.next (Step.move 0 (.written [0]))
  have ended := written.next (Step.move 0 (.ended (.ok ())))
  have removed := ended.next (Step.move 0 (.removed (.ok ())))
  have unread := removed.next (Step.move 0 (.readProofFails ""))
  exact ⟨_, unread, trivial⟩

theorem late_leaves_none :
    ∃ system, Finished (system.stages 0) ∧ NoWitnessLeft system := by
  obtain ⟨system, run, finished⟩ := late_run
  refine ⟨system, finished, (no_witness_left_iff run).mpr ?_⟩
  intro request _ outcome member
  simp only [lateActions, List.mem_cons, List.not_mem_nil, or_false, Prod.mk.injEq] at member
  rcases member with ⟨_, rfl⟩ | ⟨_, rfl⟩ | ⟨_, rfl⟩ | ⟨_, rfl⟩ | ⟨_, rfl⟩ <;> simp [Leaves]

/-- `sunspot` cannot be started: the request is refused and the witness stays. -/
theorem unstartable_leaves :
    ∃ actions system, Run samplePayload actions system ∧ Finished (system.stages 0) ∧
      system.files 0 = some [0] ∧ ¬ NoWitnessLeft system := by
  have started := Run.start.next (Step.move 0 (.start [0] sample_decoded))
  have written := started.next (Step.move 0 (.written [0]))
  have refused := written.next (Step.move 0 (.unstartable "No such file or directory"))
  refine ⟨_, _, refused, trivial, rfl, ?_⟩
  intro none
  have gone := none 0 trivial
  cases gone

end Samples

end PrivateTransfer.WitnessFiles
