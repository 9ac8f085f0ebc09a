import Mathlib.Data.List.Forall2
import Mathlib.Logic.Function.Basic
import PrivateTransfer.DepositClient

/-!
`frontend/src/stores/deposits.ts` over `services/storage.ts`. Every tab holds a list of
its own and all share the item in `localStorage`; an action reads the item, writes it
back, and repeats the change on the tab's list by other means. The stored list depends
on the actions alone, never on what a tab has in memory.
-/

namespace PrivateTransfer.NotesStore

open ClientHex
open DepositClient (DepositNote)

/-! `services/storage.ts`. The item is absent or a list the app has written. -/
section Storage

abbrev Item := Option (List DepositNote)

def getDepositNotes (item : Item) : List DepositNote := item.getD []

def saveDepositNote (item : Item) (note : DepositNote) : DepositNote × Item :=
  (note, some (getDepositNotes item ++ [note]))

def markNoteAsUsed (item : Item) (nullifierHash : String) : Option DepositNote × Item :=
  let notes := getDepositNotes item
  match notes.findIdx? (·.nullifierHash == nullifierHash) with
  | none => (none, item)
  | some index =>
      match notes[index]? with
      | none => (none, item)
      | some existingNote =>
          let updatedNote := { existingNote with used := true }
          (some updatedNote, some (notes.set index updatedNote))

def removeDepositNote (item : Item) (nullifierHash : String) : Bool × Item :=
  let notes := getDepositNotes item
  let filtered := notes.filter (·.nullifierHash != nullifierHash)
  if filtered.length = notes.length then (false, item) else (true, some filtered)

def clearDepositNotes (_ : Item) : Item := none

end Storage

/-! The store's actions, on the list of one tab and the item. -/
section Actions

structure View where
  notes : List DepositNote
  item : Item

structure NewNote where
  nullifierSecret : List UInt8
  secret : List UInt8
  amount : Nat
  commitment : List UInt8
  nullifierHash : List UInt8

/-- `id` is what `crypto.randomUUID()` answers, `timestamp` what `Date.now()` does. -/
def NewNote.note (made : NewNote) (id : String) (timestamp : Nat) : DepositNote where
  id := id
  nullifierSecret := bytesToHex made.nullifierSecret
  secret := bytesToHex made.secret
  amount := made.amount
  commitment := bytesToHex made.commitment
  nullifierHash := bytesToHex made.nullifierHash
  timestamp := timestamp
  used := false

def loadNotes (view : View) : View := { view with notes := getDepositNotes view.item }

def addNote (view : View) (made : NewNote) (id : String) (timestamp : Nat) : DepositNote × View :=
  let (saved, item) := saveDepositNote view.item (made.note id timestamp)
  (saved, ⟨view.notes ++ [saved], item⟩)

def markUsed (view : View) (nullifierHash : String) : Bool × View :=
  match markNoteAsUsed view.item nullifierHash with
  | (none, item) => (false, { view with item })
  | (some updated, item) =>
      match view.notes.findIdx? (·.nullifierHash == nullifierHash) with
      | none => (true, { view with item })
      | some index => (true, ⟨view.notes.set index updated, item⟩)

def removeNote (view : View) (nullifierHash : String) : Bool × View :=
  let (result, item) := removeDepositNote view.item nullifierHash
  if result then (result, ⟨view.notes.filter (·.nullifierHash != nullifierHash), item⟩)
  else (result, { view with item })

def clearAll (view : View) : View := ⟨[], clearDepositNotes view.item⟩

inductive Action where
  | loadNotes
  | addNote (made : NewNote) (id : String) (timestamp : Nat)
  | markUsed (nullifierHash : String)
  | removeNote (nullifierHash : String)
  | clearAll

def act (view : View) : Action → View
  | .loadNotes => loadNotes view
  | .addNote made id timestamp => (addNote view made id timestamp).2
  | .markUsed nullifierHash => (markUsed view nullifierHash).2
  | .removeNote nullifierHash => (removeNote view nullifierHash).2
  | .clearAll => clearAll view

end Actions

/-! Tabs by number, each with a list it may have loaded long ago. -/
section Tabs

structure Browser where
  memory : Nat → List DepositNote
  item : Item

abbrev Turn := Nat × Action

def Browser.stored (browser : Browser) : List DepositNote := getDepositNotes browser.item

def turn (browser : Browser) (next : Turn) : Browser :=
  let view := act ⟨browser.memory next.1, browser.item⟩ next.2
  ⟨Function.update browser.memory next.1 view.notes, view.item⟩

/-- The store's own last statement when a tab sets it up. -/
def opened (browser : Browser) (tab : Nat) : Browser := turn browser (tab, .loadNotes)

def run (browser : Browser) (turns : List Turn) : Browser := turns.foldl turn browser

theorem run_append (browser : Browser) (before after : List Turn) :
    run browser (before ++ after) = run (run browser before) after := List.foldl_append

end Tabs

/-! What an action is to a list of notes, in its own terms. -/
section Meaning

def flagUsed (nullifierHash : String) : List DepositNote → List DepositNote
  | [] => []
  | note :: rest =>
      if note.nullifierHash = nullifierHash then { note with used := true } :: rest
      else note :: flagUsed nullifierHash rest

def Action.applied : Action → List DepositNote → List DepositNote
  | loadNotes, notes => notes
  | addNote made id timestamp, notes => notes ++ [made.note id timestamp]
  | markUsed nullifierHash, notes => flagUsed nullifierHash notes
  | removeNote nullifierHash, notes => notes.filter (·.nullifierHash != nullifierHash)
  | clearAll, _ => []

/-- The index update that two pieces of code make is `flagUsed`. -/
theorem flag_found (nullifierHash : String) (notes : List DepositNote) :
    match notes.findIdx? (·.nullifierHash == nullifierHash) with
    | none => flagUsed nullifierHash notes = notes
    | some index => ∃ existing, notes[index]? = some existing ∧
        notes.set index { existing with used := true } = flagUsed nullifierHash notes := by
  induction notes with
  | nil => rfl
  | cons note rest ih =>
      rw [List.findIdx?_cons]
      by_cases same : note.nullifierHash = nullifierHash
      · simp [same, flagUsed]
      · cases found : rest.findIdx? (·.nullifierHash == nullifierHash) with
        | none => simpa [same, flagUsed, found] using ih
        | some index => simpa [same, flagUsed, found] using ih

/-- A filter that drops nothing is not written back, and need not be. -/
theorem filter_kept {nullifierHash : String} {notes : List DepositNote}
    (same : (notes.filter (·.nullifierHash != nullifierHash)).length = notes.length) :
    notes.filter (·.nullifierHash != nullifierHash) = notes :=
  List.filter_eq_self.mpr (List.length_filter_eq_length_iff.mp same)

theorem stored_mark (item : Item) (nullifierHash : String) :
    getDepositNotes (markNoteAsUsed item nullifierHash).2 =
      flagUsed nullifierHash (getDepositNotes item) := by
  have found := flag_found nullifierHash (getDepositNotes item)
  rw [markNoteAsUsed]
  cases position : (getDepositNotes item).findIdx? (·.nullifierHash == nullifierHash) with
  | none =>
      rw [position] at found
      simp only [found]
  | some index =>
      rw [position] at found
      obtain ⟨existing, present, flagged⟩ := found
      simp only [present, ← flagged]
      rfl

theorem stored_remove (item : Item) (nullifierHash : String) :
    getDepositNotes (removeDepositNote item nullifierHash).2 =
      (getDepositNotes item).filter (·.nullifierHash != nullifierHash) := by
  rw [removeDepositNote]
  split
  · rename_i same
    exact (filter_kept same).symm
  · rfl

theorem mark_item (view : View) (nullifierHash : String) :
    (markUsed view nullifierHash).2.item = (markNoteAsUsed view.item nullifierHash).2 := by
  rw [markUsed]
  rcases markNoteAsUsed view.item nullifierHash with ⟨_ | updated, item⟩
  · rfl
  · dsimp only
    split <;> rfl

theorem remove_item (view : View) (nullifierHash : String) :
    (removeNote view nullifierHash).2.item = (removeDepositNote view.item nullifierHash).2 := by
  rw [removeNote]
  rcases removeDepositNote view.item nullifierHash with ⟨_ | _, item⟩ <;> rfl

/-- What is in memory does not reach the item. -/
theorem act_item (left right : View) (same : left.item = right.item) (action : Action) :
    (act left action).item = (act right action).item := by
  cases action with
  | loadNotes => exact same
  | addNote made id timestamp => simp only [act, addNote, same]
  | markUsed nullifierHash => simp only [act, mark_item, same]
  | removeNote nullifierHash => simp only [act, remove_item, same]
  | clearAll => rfl

/-- The stored list after an action. -/
theorem stored_act (view : View) (action : Action) :
    getDepositNotes (act view action).item = action.applied (getDepositNotes view.item) := by
  cases action with
  | loadNotes => rfl
  | addNote made id timestamp => rfl
  | markUsed nullifierHash => rw [act, mark_item, stored_mark, Action.applied]
  | removeNote nullifierHash => rw [act, remove_item, stored_remove, Action.applied]
  | clearAll => rfl

/-- The list of a tab that is up to date goes through the same change. -/
theorem notes_act {view : View} (current : view.notes = getDepositNotes view.item)
    (action : Action) : (act view action).notes = action.applied (getDepositNotes view.item) := by
  cases action with
  | loadNotes => rfl
  | addNote made id timestamp =>
      rw [act, addNote, current]
      rfl
  | clearAll => rfl
  | markUsed nullifierHash =>
      have found := flag_found nullifierHash (getDepositNotes view.item)
      rw [act, markUsed, markNoteAsUsed, current]
      cases position :
          (getDepositNotes view.item).findIdx? (·.nullifierHash == nullifierHash) with
      | none =>
          rw [position] at found
          exact found.symm
      | some index =>
          rw [position] at found
          obtain ⟨existing, present, flagged⟩ := found
          simp only [present]
          exact flagged
  | removeNote nullifierHash =>
      rw [act, removeNote, removeDepositNote]
      by_cases same : ((getDepositNotes view.item).filter
          (·.nullifierHash != nullifierHash)).length = (getDepositNotes view.item).length
      · simp only [if_pos same, Bool.false_eq_true, if_false, current]
        exact (filter_kept same).symm
      · simp only [if_neg same, if_true, current]
        rfl

end Meaning

/-! What becomes of the notes there are. -/
section Survival

/-- The same note, and still used if it was. -/
structure Later (before after : DepositNote) : Prop where
  same : after = { before with used := after.used }
  used : before.used = true → after.used = true

def Action.removes : Action → String → Bool
  | removeNote nullifierHash, other => nullifierHash == other
  | clearAll, _ => true
  | _, _ => false

/-- Some turn removes the note's nullifier hash or clears the list. -/
def removed (turns : List Turn) (note : DepositNote) : Bool :=
  turns.any fun next => next.2.removes note.nullifierHash

/-- The notes that no turn removed come first, in their order, then whatever was added. -/
def Survive (turns : List Turn) (before after : List DepositNote) : Prop :=
  ∃ flagged added, after = flagged ++ added ∧
    List.Forall₂ Later (before.filter fun note => !removed turns note) flagged

theorem later_refl (note : DepositNote) : Later note note := ⟨rfl, id⟩

theorem later_flag {before after : DepositNote} (later : Later before after) :
    Later before { after with used := true } := by
  refine ⟨?_, fun _ => rfl⟩
  rw [later.same]

theorem flag_later (nullifierHash : String) {before after : List DepositNote}
    (later : List.Forall₂ Later before after) :
    List.Forall₂ Later before (flagUsed nullifierHash after) := by
  induction later with
  | nil => exact .nil
  | cons first rest ih =>
      rw [flagUsed]
      split
      · exact .cons (later_flag first) rest
      · exact .cons first ih

/-- The first match is in front or behind. -/
theorem flag_append (nullifierHash : String) (front back : List DepositNote) :
    flagUsed nullifierHash (front ++ back) = flagUsed nullifierHash front ++ back ∨
      flagUsed nullifierHash (front ++ back) = front ++ flagUsed nullifierHash back := by
  induction front with
  | nil => exact Or.inr rfl
  | cons note rest ih =>
      rw [List.cons_append, flagUsed, flagUsed]
      split
      · exact Or.inl rfl
      · rcases ih with there | behind
        · exact Or.inl (congrArg (note :: ·) there)
        · exact Or.inr (congrArg (note :: ·) behind)

theorem filter_later (keep : String → Bool) {before after : List DepositNote}
    (later : List.Forall₂ Later before after) :
    List.Forall₂ Later (before.filter (keep ·.nullifierHash))
      (after.filter (keep ·.nullifierHash)) := by
  refine List.rel_filter ?_ later
  intro left right related
  rw [related.same]

theorem removed_snoc (turns : List Turn) (last : Turn) (note : DepositNote) :
    removed (turns ++ [last]) note =
      (removed turns note || last.2.removes note.nullifierHash) := by
  simp [removed]

theorem filter_snoc (turns : List Turn) (last : Turn) (notes : List DepositNote) :
    (notes.filter fun note => !removed (turns ++ [last]) note) =
      (notes.filter fun note => !removed turns note).filter
        fun note => !last.2.removes note.nullifierHash := by
  rw [List.filter_filter]
  congr 1
  funext note
  rw [removed_snoc, Bool.not_or, Bool.and_comm]

theorem survive_act {turns : List Turn} {before after : List DepositNote}
    (survive : Survive turns before after) (last : Turn) :
    Survive (turns ++ [last]) before (last.2.applied after) := by
  obtain ⟨flagged, added, rfl, later⟩ := survive
  rw [Survive, filter_snoc]
  obtain ⟨tab, action⟩ := last
  -- only the two removing actions drop anything of what was there
  have whole : ∀ notes : List DepositNote, (notes.filter fun _ => !false) = notes := by simp
  cases action with
  | loadNotes => exact ⟨flagged, added, rfl, by simpa [Action.removes] using later⟩
  | addNote made id timestamp =>
      refine ⟨flagged, added ++ [made.note id timestamp], by simp [Action.applied], ?_⟩
      simpa [Action.removes] using later
  | markUsed nullifierHash =>
      rcases flag_append nullifierHash flagged added with front | back
      · refine ⟨_, added, front, ?_⟩
        simpa [Action.removes] using flag_later nullifierHash later
      · exact ⟨flagged, _, back, by simpa [Action.removes] using later⟩
  | removeNote nullifierHash =>
      refine ⟨_, _, List.filter_append .., ?_⟩
      have kept := filter_later (fun other => !(nullifierHash == other)) later
      simpa [Action.removes, bne, Bool.beq_comm] using kept
  | clearAll => exact ⟨[], [], rfl, by simp [Action.removes]⟩

theorem stored_turn (browser : Browser) (next : Turn) :
    (turn browser next).stored = next.2.applied browser.stored := stored_act _ _

theorem run_survive (browser : Browser) (turns : List Turn) :
    Survive turns browser.stored (run browser turns).stored := by
  induction turns using List.reverseRecOn with
  | nil =>
      refine ⟨browser.stored, [], (List.append_nil _).symm, ?_⟩
      simpa [removed] using List.forall₂_same.mpr fun note _ => later_refl note
  | append_singleton turns last ih =>
      rw [run_append, run, List.foldl_cons, List.foldl_nil, stored_turn]
      exact survive_act ih last

/-- Two browsers with one item keep one item, whatever their tabs hold and whichever of
them take the turns. -/
theorem run_item {left right : Browser} (same : left.item = right.item) (tab : Nat)
    (turns : List Turn) :
    (run left turns).item = (run right (turns.map fun next => (tab, next.2))).item := by
  induction turns generalizing left right with
  | nil => exact same
  | cons next rest ih => exact ih (act_item _ _ same next.2)

theorem memory_turn (browser : Browser) (next : Turn) :
    (turn browser next).memory next.1 = (act ⟨browser.memory next.1, browser.item⟩ next.2).notes :=
  Function.update_self ..

theorem run_current {browser : Browser} {tab : Nat} (current : browser.memory tab = browser.stored)
    {turns : List Turn} (own : ∀ next ∈ turns, next.1 = tab) :
    (run browser turns).memory tab = (run browser turns).stored := by
  induction turns generalizing browser with
  | nil => exact current
  | cons next rest ih =>
      obtain rfl : next.1 = tab := own next List.mem_cons_self
      refine ih ?_ fun later member => own later (List.mem_cons_of_mem _ member)
      rw [stored_turn, memory_turn]
      exact @notes_act ⟨browser.memory next.1, browser.item⟩ current next.2

/-- The notes of a browser, over one run of any of its tabs. -/
structure Keeps (browser : Browser) (turns : List Turn) : Prop where
  alone : ∀ (other : Browser) (tab : Nat), other.item = browser.item →
    (run browser turns).item = (run other (turns.map fun next => (tab, next.2))).item
  kept : ∀ before after, turns = before ++ after →
    Survive after (run browser before).stored (run browser turns).stored
  added : ∀ before tab made id timestamp after,
    turns = before ++ (tab, .addNote made id timestamp) :: after →
    (∀ next ∈ after, next.2.removes (made.note id timestamp).nullifierHash = false) →
    ∃ note ∈ (run browser turns).stored, Later (made.note id timestamp) note
  single : ∀ tab, (∀ next ∈ turns, next.1 = tab) →
    (run (opened browser tab) turns).memory tab = (run (opened browser tab) turns).stored

theorem survive_member {turns : List Turn} {before after : List DepositNote}
    (survive : Survive turns before after) {note : DepositNote} (present : note ∈ before)
    (spared : removed turns note = false) : ∃ later ∈ after, Later note later := by
  obtain ⟨flagged, added, rfl, later⟩ := survive
  have staying : note ∈ before.filter fun note => !removed turns note :=
    List.mem_filter.mpr ⟨present, by rw [spared]; rfl⟩
  obtain ⟨i, inside, rfl⟩ := List.getElem_of_mem staying
  have width : i < flagged.length := later.length_eq ▸ inside
  exact ⟨flagged[i], List.mem_append_left _ (List.getElem_mem width), later.get inside width⟩

theorem notes_survive (browser : Browser) (turns : List Turn) : Keeps browser turns := by
  refine ⟨?_, ?_, ?_, ?_⟩
  · intro other tab same
    exact run_item same.symm tab turns
  · rintro before after rfl
    rw [run_append]
    exact run_survive (run browser before) after
  · rintro before tab made id timestamp after rfl spared
    rw [run_append, run, List.foldl_cons]
    have stored := stored_turn (run browser before) (tab, .addNote made id timestamp)
    refine survive_member (run_survive _ after) ?_ ?_
    · rw [stored]
      exact List.mem_append_right _ List.mem_cons_self
    · rw [removed, List.any_eq_false]
      intro next member
      rw [spared next member]
      exact Bool.false_ne_true
  · intro tab own
    exact run_current (memory_turn browser (tab, .loadNotes)) own

end Survival

end PrivateTransfer.NotesStore
