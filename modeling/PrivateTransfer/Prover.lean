import PrivateTransfer.Base64
import PrivateTransfer.Interleaving

/-!
`handle_prove` of the prover, for any number of requests at once. The witness
file of a request has a name of its own; `sunspot prove` always writes its proof
and its public witness to the same two files, which the handler reads back one
after the other.
-/

namespace PrivateTransfer.Prover

open Interleaving

structure ProveResponse where
  proof : String
  publicWitness : String
  deriving DecidableEq

inductive StatusCode where
  | badRequest
  | internalServerError
  deriving DecidableEq

/-- A `sunspot prove` that has not ended, and what it has written so far. -/
structure Command where
  witness : List UInt8
  proof : Option (List UInt8)
  publicWitness : Option (List UInt8)

/-- What a `sunspot prove` made of its witness. -/
structure Output where
  witness : List UInt8
  proof : List UInt8
  publicWitness : List UInt8

/-- Where a request stands. `Output` is carried along to say what is its own. -/
inductive Stage where
  | received
  | decoded (witness : List UInt8)
  | saved
  | proving (command : Command)
  | ended (result : Except String Output)
  | cleaned (output : Output)
  | proofRead (output : Output) (proof : List UInt8)
  | answered (output : Output) (response : ProveResponse)
  | refused (status : StatusCode) (message : String)

/-- The witness files by request, `target/withdrawal.proof` and `target/withdrawal.pw`. -/
structure Files where
  witness : Nat → Option (List UInt8)
  proof : Option (List UInt8)
  publicWitness : Option (List UInt8)

structure System where
  files : Files
  stages : Nat → Stage

inductive Action where
  | handle (request : Nat)
  | writeProof (request : Nat) (proof : List UInt8)
  | writePublicWitness (request : Nat) (publicWitness : List UInt8)

def System.setStage (system : System) (request : Nat) (stage : Stage) : System :=
  { system with stages := Function.update system.stages request stage }

def base64 (bytes : List UInt8) : String := String.ofList (Base64.encode bytes)

section Steps
variable (payload : Nat → String) (sunspot : List UInt8 → List UInt8 → List UInt8 → Prop)

/-- One step of one request or of its `sunspot`. A `sunspot` that succeeds has written both
files; one that fails may have written either. -/
inductive Step (system : System) : Action → System → Prop
  | decode (request : Nat) (witness : List UInt8) (at_start : system.stages request = .received)
      (read : Base64.decode (payload request).toList = some witness) :
      Step system (.handle request) (system.setStage request (.decoded witness))
  | badPayload (request : Nat) (error : String) (at_start : system.stages request = .received)
      (unread : Base64.decode (payload request).toList = none) :
      Step system (.handle request)
        (system.setStage request (.refused .badRequest ("Invalid base64: " ++ error)))
  | save (request : Nat) (witness : List UInt8)
      (decoded : system.stages request = .decoded witness) :
      Step system (.handle request)
        { system.setStage request .saved with
          files := { system.files with
            witness := Function.update system.files.witness request (some witness) } }
  | saveFails (request : Nat) (witness : List UInt8) (error : String)
      (decoded : system.stages request = .decoded witness) :
      Step system (.handle request)
        (system.setStage request (.refused .internalServerError ("Write failed: " ++ error)))
  | spawn (request : Nat) (witness : List UInt8) (saved : system.stages request = .saved)
      (stored : system.files.witness request = some witness) :
      Step system (.handle request) (system.setStage request (.proving ⟨witness, none, none⟩))
  | spawnFails (request : Nat) (error : String) (saved : system.stages request = .saved) :
      Step system (.handle request)
        (system.setStage request (.refused .internalServerError ("sunspot failed: " ++ error)))
  | writeProof (request : Nat) (command : Command) (proof : List UInt8)
      (proving : system.stages request = .proving command) (fresh : command.proof = none) :
      Step system (.writeProof request proof)
        { system.setStage request (.proving { command with proof := some proof }) with
          files := { system.files with proof := some proof } }
  | writePublicWitness (request : Nat) (command : Command) (publicWitness : List UInt8)
      (proving : system.stages request = .proving command) (fresh : command.publicWitness = none) :
      Step system (.writePublicWitness request publicWitness)
        { system.setStage request
            (.proving { command with publicWitness := some publicWitness }) with
          files := { system.files with publicWitness := some publicWitness } }
  | succeed (request : Nat) (output : Output)
      (proving : system.stages request =
        .proving ⟨output.witness, some output.proof, some output.publicWitness⟩)
      (made : sunspot output.witness output.proof output.publicWitness) :
      Step system (.handle request) (system.setStage request (.ended (.ok output)))
  | fail (request : Nat) (command : Command) (stderr : String)
      (proving : system.stages request = .proving command) :
      Step system (.handle request) (system.setStage request (.ended (.error stderr)))
  | cleanUp (request : Nat) (output : Output) (kept : Option (List UInt8))
      (ended : system.stages request = .ended (.ok output)) :
      Step system (.handle request)
        { system.setStage request (.cleaned output) with
          files := { system.files with
            witness := Function.update system.files.witness request kept } }
  | cleanUpFailed (request : Nat) (stderr : String) (kept : Option (List UInt8))
      (ended : system.stages request = .ended (.error stderr)) :
      Step system (.handle request)
        { system.setStage request
            (.refused .internalServerError ("sunspot error: " ++ stderr)) with
          files := { system.files with
            witness := Function.update system.files.witness request kept } }
  | readProof (request : Nat) (output : Output) (proof : List UInt8)
      (cleaned : system.stages request = .cleaned output)
      (stored : system.files.proof = some proof) :
      Step system (.handle request) (system.setStage request (.proofRead output proof))
  | readProofFails (request : Nat) (output : Output) (error : String)
      (cleaned : system.stages request = .cleaned output) :
      Step system (.handle request)
        (system.setStage request (.refused .internalServerError ("Read proof failed: " ++ error)))
  | readPublicWitness (request : Nat) (output : Output) (proof publicWitness : List UInt8)
      (proofRead : system.stages request = .proofRead output proof)
      (stored : system.files.publicWitness = some publicWitness) :
      Step system (.handle request)
        (system.setStage request (.answered output ⟨base64 proof, base64 publicWitness⟩))
  | readPublicWitnessFails (request : Nat) (output : Output) (proof : List UInt8)
      (error : String) (proofRead : system.stages request = .proofRead output proof) :
      Step system (.handle request)
        (system.setStage request (.refused .internalServerError ("Read pw failed: " ++ error)))

/-- Nothing has been handled; the files are whatever earlier runs left. -/
def initial (files : Files) : System where
  files := files
  stages := fun _ => .received

def Reachable (files : Files) (allowed : System → Action → Prop) : System → Prop :=
  Interleaving.Reachable (Step payload sunspot) allowed (initial files)

/-- What `sunspot` made of the witness this request sent. -/
def Own (request : Nat) (output : Output) : Prop :=
  Base64.decode (payload request).toList = some output.witness ∧
    sunspot output.witness output.proof output.publicWitness

/-- Every successful response carries what was made of the request's own witness. -/
def OwnProofs (system : System) : Prop :=
  ∀ request output response, system.stages request = .answered output response →
    Own payload sunspot request output ∧
      response = ⟨base64 output.proof, base64 output.publicWitness⟩

end Steps

/-- The proof a request has written and not read yet. -/
def awaitedProof : Stage → Option (List UInt8)
  | .proving command => command.proof
  | .ended (.ok output) => some output.proof
  | .cleaned output => some output.proof
  | _ => none

def awaitedPublicWitness : Stage → Option (List UInt8)
  | .proving command => command.publicWitness
  | .ended (.ok output) => some output.publicWitness
  | .cleaned output => some output.publicWitness
  | .proofRead output _ => some output.publicWitness
  | _ => none

/-- No file is overwritten with something else between a request's own `sunspot` and its read. -/
def Undisturbed (system : System) : Action → Prop
  | .handle _ => True
  | .writeProof request proof => ∀ other, other ≠ request →
      ∀ own, awaitedProof (system.stages other) = some own → own = proof
  | .writePublicWitness request publicWitness => ∀ other, other ≠ request →
      ∀ own, awaitedPublicWitness (system.stages other) = some own → own = publicWitness

/-! What every step keeps while nobody overwrites what another has still to read. -/
section Invariant
variable {payload : Nat → String} {sunspot : List UInt8 → List UInt8 → List UInt8 → Prop}

/-- What a request knows at each stage, with the witness file it has saved. -/
def Follows (payload : Nat → String) (sunspot : List UInt8 → List UInt8 → List UInt8 → Prop)
    (request : Nat) (file : Option (List UInt8)) : Stage → Prop
  | .received => True
  | .decoded witness => Base64.decode (payload request).toList = some witness
  | .saved => ∃ witness, Base64.decode (payload request).toList = some witness ∧
      file = some witness
  | .proving command => Base64.decode (payload request).toList = some command.witness
  | .ended (.ok output) => Own payload sunspot request output
  | .ended (.error _) => True
  | .cleaned output => Own payload sunspot request output
  | .proofRead output proof => Own payload sunspot request output ∧ proof = output.proof
  | .answered output response => Own payload sunspot request output ∧
      response = ⟨base64 output.proof, base64 output.publicWitness⟩
  | .refused _ _ => True

structure Sound (payload : Nat → String)
    (sunspot : List UInt8 → List UInt8 → List UInt8 → Prop) (system : System) : Prop where
  follows : ∀ request, Follows payload sunspot request (system.files.witness request)
    (system.stages request)
  proof : Holds system.files.proof awaitedProof system.stages
  publicWitness : Holds system.files.publicWitness awaitedPublicWitness system.stages

theorem initial_sound (files : Files) : Sound payload sunspot (initial files) := by
  constructor
  · exact fun _ => trivial
  · exact fun _ _ awaited => nomatch awaited
  · exact fun _ _ awaited => nomatch awaited

/-- A step of one request moves its stage and its witness file, and leaves the others' be. -/
theorem follows_step {system : System} (sound : Sound payload sunspot system) (request : Nat)
    (stage : Stage) (file : Option (List UInt8))
    (own : Follows payload sunspot request file stage) :
    ∀ other, Follows payload sunspot other
      (Function.update system.files.witness request file other)
      (Function.update system.stages request stage other) := by
  intro other
  by_cases same : other = request
  · cases same
    rw [Function.update_self, Function.update_self]
    exact own
  · rw [Function.update_of_ne same, Function.update_of_ne same]
    exact sound.follows other

/-- A step that overwrites neither shared file and awaits nothing new in them. -/
theorem sound_handle {system : System} (sound : Sound payload sunspot system) (request : Nat)
    {stage : Stage} (file : Option (List UInt8)) (own : Follows payload sunspot request file stage)
    (proof : ∀ bytes, awaitedProof stage = some bytes →
      awaitedProof (system.stages request) = some bytes)
    (publicWitness : ∀ bytes, awaitedPublicWitness stage = some bytes →
      awaitedPublicWitness (system.stages request) = some bytes) :
    Sound payload sunspot
      { system.setStage request stage with
        files := { system.files with
          witness := Function.update system.files.witness request file } } := by
  constructor
  · exact follows_step sound request stage file own
  · exact holds_update sound.proof proof
  · exact holds_update sound.publicWitness publicWitness

theorem sound_stage {system : System} (sound : Sound payload sunspot system) (request : Nat)
    {stage : Stage}
    (own : Follows payload sunspot request (system.files.witness request) stage)
    (proof : ∀ bytes, awaitedProof stage = some bytes →
      awaitedProof (system.stages request) = some bytes)
    (publicWitness : ∀ bytes, awaitedPublicWitness stage = some bytes →
      awaitedPublicWitness (system.stages request) = some bytes) :
    Sound payload sunspot (system.setStage request stage) := by
  have moved := sound_handle sound request (system.files.witness request) own proof publicWitness
  rwa [Function.update_eq_self] at moved

/-- What a request knows before its step. -/
theorem follows_at {system : System} (sound : Sound payload sunspot system) {request : Nat}
    {stage : Stage} (at_stage : system.stages request = stage) :
    Follows payload sunspot request (system.files.witness request) stage :=
  at_stage ▸ sound.follows request

theorem step_sound {before after : System} {action : Action} (sound : Sound payload sunspot before)
    (undisturbed : Undisturbed before action) (step : Step payload sunspot before action after) :
    Sound payload sunspot after := by
  cases step with
  | decode request witness at_start read => exact sound_stage sound request read nofun nofun
  | badPayload request error at_start unread => exact sound_stage sound request trivial nofun nofun
  | save request witness decoded =>
      have read := follows_at sound decoded
      exact sound_handle sound request (some witness) ⟨witness, read, rfl⟩ nofun nofun
  | saveFails request witness error decoded => exact sound_stage sound request trivial nofun nofun
  | spawn request witness saved stored =>
      obtain ⟨sent, read, file⟩ := follows_at sound saved
      cases stored.symm.trans file
      exact sound_stage sound request read nofun nofun
  | spawnFails request error saved => exact sound_stage sound request trivial nofun nofun
  -- only the two writes need the condition
  | writeProof request command proof proving fresh =>
      have read : Base64.decode (payload request).toList = some command.witness :=
        follows_at sound proving
      have own := follows_step sound request (.proving { command with proof := some proof })
        (before.files.witness request) read
      rw [Function.update_eq_self] at own
      refine ⟨own, holds_write rfl undisturbed, holds_update sound.publicWitness ?_⟩
      rw [proving]
      exact fun _ awaited => awaited
  | writePublicWitness request command publicWitness proving fresh =>
      have read : Base64.decode (payload request).toList = some command.witness :=
        follows_at sound proving
      have own := follows_step sound request
        (.proving { command with publicWitness := some publicWitness })
        (before.files.witness request) read
      rw [Function.update_eq_self] at own
      refine ⟨own, holds_update sound.proof ?_, holds_write rfl undisturbed⟩
      rw [proving]
      exact fun _ awaited => awaited
  | succeed request output proving made =>
      refine sound_stage sound request ⟨follows_at sound proving, made⟩ ?_ ?_
      · rw [proving]
        exact fun _ awaited => awaited
      · rw [proving]
        exact fun _ awaited => awaited
  | fail request command stderr proving => exact sound_stage sound request trivial nofun nofun
  | cleanUp request output kept ended =>
      refine sound_handle sound request kept (follows_at sound ended) ?_ ?_
      · rw [ended]
        exact fun _ awaited => awaited
      · rw [ended]
        exact fun _ awaited => awaited
  | cleanUpFailed request stderr kept ended =>
      exact sound_handle sound request kept trivial nofun nofun
  | readProof request output proof cleaned stored =>
      -- what is in the file is still what this request's own `sunspot` wrote
      have own := sound.proof request output.proof (by rw [cleaned]; rfl)
      refine sound_stage sound request ⟨follows_at sound cleaned, ?_⟩ nofun ?_
      · exact Option.some.inj (stored.symm.trans own)
      · rw [cleaned]
        exact fun _ awaited => awaited
  | readProofFails request output error cleaned =>
      exact sound_stage sound request trivial nofun nofun
  | readPublicWitness request output proof publicWitness proofRead stored =>
      obtain ⟨made, same⟩ := follows_at sound proofRead
      have own := sound.publicWitness request output.publicWitness
        (by rw [proofRead]; rfl)
      cases same
      cases stored.symm.trans own
      exact sound_stage sound request ⟨made, rfl⟩ nofun nofun
  | readPublicWitnessFails request output proof error proofRead =>
      exact sound_stage sound request trivial nofun nofun

/-- While no `sunspot` overwrites a file another request has still to read, every request
is answered with its own proof. -/
theorem undisturbed_own_proofs (payload : Nat → String)
    (sunspot : List UInt8 → List UInt8 → List UInt8 → Prop) (files : Files) (system : System)
    (reached : Reachable payload sunspot files Undisturbed system) :
    OwnProofs payload sunspot system := by
  have sound := reachable_invariant (initial_sound files)
    (fun _ _ _ sound undisturbed step => step_sound sound undisturbed step) reached
  intro request output response answered
  exact follows_at sound answered

end Invariant

/-! Two requests, with a `sunspot` whose public witness is the witness itself. -/
section Samples

def samplePayload (request : Nat) : String := if request = 0 then "AA==" else "AQ=="

def sampleSunspot (witness proof publicWitness : List UInt8) : Prop :=
  proof = 7 :: witness ∧ publicWitness = witness

def noFiles : Files := ⟨fun _ => none, none, none⟩

theorem sample_decoded : Base64.decode (samplePayload 0).toList = some [0] ∧
    Base64.decode (samplePayload 1).toList = some [1] := by
  decide +kernel

/-- Only the writes of `sunspot` are ever held back. -/
theorem reached_handle {files : Files} {before after : System} (request : Nat)
    (earlier : Reachable samplePayload sampleSunspot files Undisturbed before)
    (step : Step samplePayload sampleSunspot before (.handle request) after) :
    Reachable samplePayload sampleSunspot files Undisturbed after :=
  earlier.next (show Undisturbed before (.handle request) from trivial) step

/-- Requests that have only been received have no file to lose. -/
theorem received_undisturbed {system : System} {request : Nat}
    (received : ∀ other, other ≠ request → system.stages other = .received)
    (bytes : List UInt8) : Undisturbed system (.writeProof request bytes) ∧
      Undisturbed system (.writePublicWitness request bytes) := by
  constructor
  · intro other apart own awaited
    rw [received other apart] at awaited
    cases awaited
  · intro other apart own awaited
    rw [received other apart] at awaited
    cases awaited

theorem alone_answered :
    ∃ system, Reachable samplePayload sampleSunspot noFiles Undisturbed system ∧
      system.stages 0 = .answered ⟨[0], [7, 0], [0]⟩ ⟨base64 [7, 0], base64 [0]⟩ := by
  have begun : Reachable samplePayload sampleSunspot noFiles Undisturbed _ := .start
  have decoded := reached_handle 0 begun (Step.decode 0 [0] rfl sample_decoded.1)
  have saved := reached_handle 0 decoded (Step.save 0 [0] rfl)
  have spawned := reached_handle 0 saved (Step.spawn 0 [0] rfl rfl)
  have proved := spawned.next (received_undisturbed (fun other apart => by
    simp [System.setStage, initial, apart]) [7, 0]).1 (Step.writeProof 0 _ [7, 0] rfl rfl)
  have written := proved.next (received_undisturbed (fun other apart => by
    simp [System.setStage, initial, apart]) [0]).2 (Step.writePublicWitness 0 _ [0] rfl rfl)
  have succeeded := reached_handle 0 written (Step.succeed 0 ⟨[0], [7, 0], [0]⟩ rfl ⟨rfl, rfl⟩)
  have cleaned := reached_handle 0 succeeded (Step.cleanUp 0 _ none rfl)
  have read := reached_handle 0 cleaned (Step.readProof 0 _ [7, 0] rfl rfl)
  exact ⟨_, reached_handle 0 read (Step.readPublicWitness 0 _ _ [0] rfl rfl), rfl⟩

/-- A request that is alone is answered with its own proof. -/
theorem alone_own_proofs :
    ∃ system, system.stages 0 = .answered ⟨[0], [7, 0], [0]⟩ ⟨base64 [7, 0], base64 [0]⟩ ∧
      OwnProofs samplePayload sampleSunspot system := by
  obtain ⟨system, reached, answered⟩ := alone_answered
  exact ⟨system, answered,
    undisturbed_own_proofs samplePayload sampleSunspot noFiles system reached⟩

/-- Two requests run `sunspot`, one after the other, before the first one reads. -/
theorem overlapped_swapped :
    ∃ system, Reachable samplePayload sampleSunspot noFiles (fun _ _ => True) system ∧
      ¬ OwnProofs samplePayload sampleSunspot system := by
  have begun : Reachable samplePayload sampleSunspot noFiles (fun _ _ => True) _ := .start
  have decoded := begun.next trivial (Step.decode 0 [0] rfl sample_decoded.1)
  have saved := decoded.next trivial (Step.save 0 [0] rfl)
  have spawned := saved.next trivial (Step.spawn 0 [0] rfl rfl)
  have proved := spawned.next trivial (Step.writeProof 0 _ [7, 0] rfl rfl)
  have written := proved.next trivial (Step.writePublicWitness 0 _ [0] rfl rfl)
  have succeeded := written.next trivial
    (Step.succeed 0 ⟨[0], [7, 0], [0]⟩ rfl ⟨rfl, rfl⟩)
  -- the second request writes both files before the first one looks
  have second := succeeded.next trivial (Step.decode 1 [1] rfl sample_decoded.2)
  have secondSaved := second.next trivial (Step.save 1 [1] rfl)
  have secondSpawned := secondSaved.next trivial (Step.spawn 1 [1] rfl rfl)
  have overwritten := secondSpawned.next trivial (Step.writeProof 1 _ [7, 1] rfl rfl)
  have replaced := overwritten.next trivial (Step.writePublicWitness 1 _ [1] rfl rfl)
  have cleaned := replaced.next trivial (Step.cleanUp 0 ⟨[0], [7, 0], [0]⟩ none rfl)
  have read := cleaned.next trivial (Step.readProof 0 _ [7, 1] rfl rfl)
  have answered := read.next trivial (Step.readPublicWitness 0 _ _ [1] rfl rfl)
  refine ⟨_, answered, ?_⟩
  intro own
  have swapped := (own 0 ⟨[0], [7, 0], [0]⟩ ⟨base64 [7, 1], base64 [1]⟩ rfl).2
  exact absurd swapped (by decide +kernel)

end Samples

end PrivateTransfer.Prover
