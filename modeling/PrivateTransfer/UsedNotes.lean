import PrivateTransfer.Broadcast
import PrivateTransfer.Contracts
import PrivateTransfer.NotesStore
import PrivateTransfer.Redemption
import PrivateTransfer.SentData

/-!
The `used` of a stored note and the ledger. `withdraw` runs in any number of tabs, beside
everything else that is done to the stored notes and everybody's transactions; the backend
and the prover may answer anything.
-/

namespace PrivateTransfer.UsedNotes

open Borsh Broadcast ClientHex InstructionData Interleaving NoteText PoolProgram Script SentData
open WithdrawFlow
open DepositClient (DepositNote)
open Issuance (callOf)
open NotesStore (Browser getDepositNotes)

/-! What `withdraw` knows before it marks a note. -/
section Script
variable (poseidon2Permutation : Vector Field 4 → Vector Field 4) (keyOf : String → Option Pubkey)

/-- `PACKET_DATA_SIZE`: the network carries no larger transaction. -/
def packetDataSize : Nat := 1232

def call (transaction : WithdrawTransaction) : Option WithdrawArgs :=
  callOf withdrawDiscriminator withdrawArgs transaction.data

/-- The arguments are those the form asks for. -/
structure Orders (form : Form) (args : WithdrawArgs) : Prop where
  nullifierHash : ∃ nullifierSecret, hexToBytes form.nullifierSecretHex = some nullifierSecret ∧
    computeNullifierHash poseidon2Permutation nullifierSecret = some args.nullifierHash
  recipient : keyOf form.recipientAddress = some args.toKey
  amount : args.amount = UInt64.ofNat form.amountLamports

abbrev Known := Told WithdrawTransaction

/-- A note is marked only when a transaction that withdraws it is confirmed. -/
def withdrawing : Contract Request Request.Answer String Known where
  can request answer :=
    match request, answer with
    | .publicKey address, .ok key => keyOf address = some key
    | _, _ => True
  told known request answer :=
    match request, answer with
    | .sendRawTransaction transaction, answer => known.send transaction answer
    | .confirmTransaction signature _, answer => known.confirm signature answer
    | _, _ => known
  may known request :=
    match request with
    | .markUsed nullifierHash => ∃ transaction, known.landed = some transaction ∧
        (transaction.data.length ≤ packetDataSize → ∃ args, call transaction = some args ∧
          bytesToHex args.nullifierHash.toList = nullifierHash)
    | _ => True

/-- The confirmed transaction is the one the form asks for. -/
def Done (form : Form) (known : Known) (_ : Nat) : Prop :=
  ∃ transaction, known.landed = some transaction ∧
    (transaction.data.length ≤ packetDataSize → ∃ args, call transaction = some args ∧
      Orders poseidon2Permutation keyOf form args)

/-- What the draft has taken from the form. -/
structure Drafted (form : Form) (draft : Draft) : Prop where
  nullifierHash : ∃ nullifierSecret, hexToBytes form.nullifierSecretHex = some nullifierSecret ∧
    computeNullifierHash poseidon2Permutation nullifierSecret = some draft.inputs.nullifierHash
  recipient : keyOf form.recipientAddress = some draft.recipient
  amount : draft.inputs.amount = form.amountLamports

variable {poseidon2Permutation keyOf} {Value After : Type} {ends : Known → After → Prop}
  {known : Known} {config : Config} {form : Form} {draft : Draft}

theorem keeps_or_throw {message : String} {found : Option Value} {next : Value → Flow After}
    (rest : ∀ value, found = some value → Keeps (withdrawing keyOf) ends known (next value)) :
    Keeps (withdrawing keyOf) ends known (orThrow message found >>= next) := by
  cases found with
  | none => exact keeps_fail
  | some value => exact rest value rfl

theorem keeps_or_fail {message : String} {holds : Bool} {next : Unit → Flow After}
    (rest : Keeps (withdrawing keyOf) ends known (next ())) :
    Keeps (withdrawing keyOf) ends known (orFail holds message >>= next) := by
  cases holds with
  | false => exact keeps_fail
  | true => exact rest

theorem gather_keeps :
    Keeps (withdrawing keyOf) (fun _ draft => Drafted poseidon2Permutation keyOf form draft) known
      (gather poseidon2Permutation config form) := by
  rw [gather]
  apply keeps_perform trivial
  intro connected _
  apply keeps_or_throw
  intro wallet _
  apply keeps_or_throw
  intro nullifierSecret read
  apply keeps_perform trivial
  intro _ _
  apply keeps_or_throw
  intro localNullifierHash hashed
  apply keeps_perform trivial
  intro notes _
  apply keeps_or_throw
  intro note _
  apply keeps_or_fail
  apply keeps_perform trivial
  intro entries _
  apply keeps_or_throw
  intro sortedCommitments _
  apply keeps_or_fail
  apply keeps_or_throw
  intro leafIndex _
  apply keeps_perform trivial
  intro proofResponse _
  apply keeps_or_throw
  intro merkleProof _
  apply keeps_or_throw
  intro latestRoot _
  apply keeps_perform trivial
  intro _ _
  apply keeps_or_throw
  intro nullifierHash again
  apply keeps_perform trivial
  intro recipient decoded
  apply keeps_or_throw
  intro secret _
  exact keeps_pure ⟨⟨nullifierSecret, read, again⟩, decoded, rfl⟩

theorem submit_keeps (drafted : Drafted poseidon2Permutation keyOf form draft)
    (proofOnly : List UInt8) :
    Keeps (withdrawing keyOf) (Done poseidon2Permutation keyOf form) known
      (submit config draft proofOnly) := by
  rw [submit]
  apply keeps_or_throw
  intro data written
  apply keeps_perform trivial
  intro latest _
  apply keeps_or_fail
  apply keeps_perform trivial
  intro _ _
  apply keeps_perform trivial
  intro signature _
  apply keeps_perform trivial
  intro failed _
  -- the data is what the transaction carries, and reads as the draft
  have carries : ∀ small : data.length ≤ packetDataSize, ∃ args, callOf withdrawDiscriminator
      withdrawArgs data = some args ∧ args.nullifierHash = draft.inputs.nullifierHash ∧
        args.toKey = draft.recipient ∧ args.amount = UInt64.ofNat draft.inputs.amount := by
    intro small
    obtain ⟨read, reads⟩ := withdraw_data_read written (Nat.lt_of_le_of_lt small (by decide))
    exact ⟨_, reads, rfl, rfl, rfl⟩
  cases failed with
  | some err => exact keeps_fail
  | none =>
      have landed := known.confirm_own (withdrawTransaction config draft latest data) signature
      apply keeps_perform
      · refine ⟨_, landed, fun small => ?_⟩
        obtain ⟨args, reads, nullifierHash, _⟩ := carries small
        exact ⟨args, reads, by rw [nullifierHash]⟩
      · intro _ _
        refine ⟨trivial, fun balance _ => ?_⟩
        cases balance with
        | error failure => trivial
        | ok lamports =>
            refine ⟨_, landed, fun small => ?_⟩
            obtain ⟨args, reads, nullifierHash, recipient, amount⟩ := carries small
            refine ⟨args, reads, ?_, ?_, ?_⟩
            · rw [nullifierHash]
              exact drafted.nullifierHash
            · rw [recipient]
              exact drafted.recipient
            · rw [amount, drafted.amount]

/-- Whatever it is answered, `withdraw` marks nothing and ends well with nothing but its own
withdrawal confirmed. -/
theorem withdraw_keeps :
    Keeps (withdrawing keyOf) (Done poseidon2Permutation keyOf form) known
      (WithdrawFlow.withdraw poseidon2Permutation config form) := by
  rw [WithdrawFlow.withdraw]
  apply keeps_bind gather_keeps
  intro known draft drafted
  apply keeps_perform trivial
  intro witness _
  apply keeps_perform trivial
  intro proofOnly _
  exact submit_keeps drafted proofOnly

end Script

/-! The tabs, the network and the ledger. -/
section System
variable (poseidon2Permutation : Vector Field 4 → Vector Field 4) (config : Config)
  (keyOf : String → Option Pubkey) (verifier : List UInt8 → Bool) (deployment : Deployment)

structure System where
  chain : Chain
  browser : Browser
  network : Network WithdrawTransaction

/-- What is neither the tab's, the address decoder's nor the network's to answer. -/
def Elsewhere : Request → Prop
  | .wallet | .hashes | .api _ | .execute _ | .latestBlockhash | .signTransaction _
  | .balance _ => True
  | .notes | .publicKey _ | .sendRawTransaction _ | .confirmTransaction _ _ | .markUsed _ => False

/-- The answers a tab can be given, and what the system is then. -/
inductive Answers (system : System) (tab : Nat) :
    (request : Request) → Except String request.Answer → System → Prop
  | notes : Answers system tab .notes (.ok (system.browser.memory tab)) system
  | publicKey (address : String) (key : Pubkey) (decoded : keyOf address = some key) :
      Answers system tab (.publicKey address) (.ok key) system
  | noKey (address failure : String) (undecoded : keyOf address = none) :
      Answers system tab (.publicKey address) (.error failure) system
  | sent (transaction : WithdrawTransaction) (answer : Except String String)
      (network : Network WithdrawTransaction)
      (taken : system.network.Takes transaction answer network) :
      Answers system tab (.sendRawTransaction transaction) answer { system with network }
  | asked (signature : String) (latest : DepositClient.Blockhash)
      (answer : Except String (Option String))
      (confirms : system.network.Confirms signature answer) :
      Answers system tab (.confirmTransaction signature latest) answer system
  | marked (nullifierHash : String) :
      Answers system tab (.markUsed nullifierHash) (.ok ())
        { system with browser := NotesStore.turn system.browser (tab, .markUsed nullifierHash) }
  | unmarked (nullifierHash failure : String) :
      Answers system tab (.markUsed nullifierHash) (.error failure) system
  | elsewhere (request : Request) (answer : Except String request.Answer)
      (free : Elsewhere request) : Answers system tab request answer system

inductive Move
  | store (tab : Nat) (action : NotesStore.Action)
  | land (signature : String)
  | transact (tx : Transaction deployment)

/-- Nothing but `withdraw` calls `markUsed`. -/
inductive Moves (system : System) : Move deployment → System → Prop
  | store (tab : Nat) (action : NotesStore.Action)
      (other : ∀ nullifierHash, action ≠ .markUsed nullifierHash) :
      Moves system (.store tab action)
        { system with browser := NotesStore.turn system.browser (tab, action) }
  | land (signature : String) (transaction : WithdrawTransaction) (clock : Option Int64)
      (tx : Transaction deployment) (after : Chain)
      (underway : system.network.sent signature = some transaction)
      (small : transaction.data.length ≤ packetDataSize)
      (read : Redemption.received deployment clock transaction = some tx)
      (taken : process verifier deployment system.chain tx = .ok after) :
      Moves system (.land signature)
        { system with chain := after, network := system.network.land signature }
  | transact (tx : Transaction deployment) (after : Chain)
      (taken : process verifier deployment system.chain tx = .ok after) :
      Moves system (.transact tx) { system with chain := after }

/-- A run of `withdraw` is one of a tab, for what its form held. -/
def tabs : Setting System (Nat × Form) (Move deployment) Request Request.Answer String Nat where
  script task := WithdrawFlow.withdraw poseidon2Permutation config task.2
  answers system task := Answers keyOf system task.1
  moves := Moves verifier deployment

def opened (chain : Chain) (browser : Browser) : System := ⟨chain, browser, Network.silent⟩

end System

/-! What becomes of the marks. -/
section Marks

/-- Some record on the ledger is that of the note. -/
def Recorded (chain : Chain) (nullifierHash : String) : Prop :=
  ∃ hash record, bytesToHex hash.toList = nullifierHash ∧ chain.records hash = some record

def Held (browser : Browser) (note : DepositNote) : Prop :=
  note ∈ browser.stored ∨ ∃ tab, note ∈ browser.memory tab

def Marked (chain : Chain) (browser : Browser) : Prop :=
  ∀ note, Held browser note → note.used = true → Recorded chain note.nullifierHash

theorem mem_flag {nullifierHash : String} {notes : List DepositNote} {note : DepositNote}
    (member : note ∈ NotesStore.flagUsed nullifierHash notes) :
    note ∈ notes ∨ note.nullifierHash = nullifierHash := by
  induction notes with
  | nil => cases member
  | cons first rest ih =>
      rw [NotesStore.flagUsed] at member
      split at member
      · rename_i same
        rcases List.mem_cons.mp member with rfl | behind
        · exact Or.inr same
        · exact Or.inl (List.mem_cons_of_mem _ behind)
      · rcases List.mem_cons.mp member with rfl | behind
        · exact Or.inl List.mem_cons_self
        · exact (ih behind).imp_left (List.mem_cons_of_mem _)

theorem applied_used {action : NotesStore.Action} {notes : List DepositNote} {note : DepositNote}
    (member : note ∈ action.applied notes) (used : note.used = true) :
    note ∈ notes ∨ action = .markUsed note.nullifierHash := by
  cases action with
  | loadNotes => exact Or.inl member
  | addNote made id timestamp =>
      rcases List.mem_append.mp member with there | added
      · exact Or.inl there
      · rw [List.mem_singleton.mp added] at used
        cases used
  | markUsed nullifierHash =>
      rcases mem_flag member with there | rfl
      · exact Or.inl there
      · exact Or.inr rfl
  | removeNote nullifierHash => exact Or.inl (List.mem_of_mem_filter member)
  | clearAll => cases member

theorem marked_note {item : NotesStore.Item} {nullifierHash : String} {note : DepositNote}
    (marked : (NotesStore.markNoteAsUsed item nullifierHash).1 = some note) :
    note.nullifierHash = nullifierHash := by
  rw [NotesStore.markNoteAsUsed] at marked
  split at marked
  · cases marked
  · rename_i index position
    obtain ⟨inside, same, _⟩ := List.findIdx?_eq_some_iff_getElem.mp position
    rw [List.getElem?_eq_getElem inside] at marked
    obtain rfl := Option.some.inj marked
    exact beq_iff_eq.mp same

/-- The list of a tab may be older than the item; marking takes the note from the item. -/
theorem act_used {view : NotesStore.View} {action : NotesStore.Action} {note : DepositNote}
    (member : note ∈ (NotesStore.act view action).notes) (used : note.used = true) :
    note ∈ view.notes ∨ note ∈ getDepositNotes view.item ∨
      action = .markUsed note.nullifierHash := by
  cases action with
  | loadNotes => exact Or.inr (Or.inl member)
  | addNote made id timestamp =>
      rcases List.mem_append.mp member with there | added
      · exact Or.inl there
      · rw [List.mem_singleton.mp added] at used
        cases used
  | markUsed nullifierHash =>
      rw [NotesStore.act, NotesStore.markUsed] at member
      rcases saved : NotesStore.markNoteAsUsed view.item nullifierHash with ⟨_ | updated, item⟩
      · rw [saved] at member
        exact Or.inl member
      · rw [saved] at member
        dsimp only at member
        split at member
        · exact Or.inl member
        · rcases List.mem_or_eq_of_mem_set member with there | rfl
          · exact Or.inl there
          · have same : note.nullifierHash = nullifierHash :=
              marked_note (congrArg Prod.fst saved)
            rw [same]
            exact Or.inr (Or.inr rfl)
  | removeNote nullifierHash =>
      rw [NotesStore.act, NotesStore.removeNote] at member
      dsimp only at member
      split at member
      · exact Or.inl (List.mem_of_mem_filter member)
      · exact Or.inl member
  | clearAll => cases member

/-- A turn adds no used note but the one it marks. -/
theorem turn_used {browser : Browser} {next : NotesStore.Turn} {note : DepositNote}
    (held : Held (NotesStore.turn browser next) note) (used : note.used = true) :
    Held browser note ∨ next.2 = .markUsed note.nullifierHash := by
  rcases held with stored | ⟨tab, memory⟩
  · rw [NotesStore.stored_turn] at stored
    exact (applied_used stored used).imp_left Or.inl
  · by_cases own : tab = next.1
    · subst own
      rw [NotesStore.memory_turn] at memory
      rcases act_used memory used with there | stored | marks
      · exact Or.inl (Or.inr ⟨next.1, there⟩)
      · exact Or.inl (Or.inl stored)
      · exact Or.inr marks
    · have kept : (NotesStore.turn browser next).memory tab = browser.memory tab :=
        Function.update_of_ne own ..
      rw [kept] at memory
      exact Or.inl (Or.inr ⟨tab, memory⟩)

theorem marked_turn {chain : Chain} {browser : Browser} {next : NotesStore.Turn}
    (marked : Marked chain browser)
    (recorded : ∀ nullifierHash, next.2 = .markUsed nullifierHash → Recorded chain nullifierHash) :
    Marked chain (NotesStore.turn browser next) := by
  intro note held used
  rcases turn_used held used with there | marks
  · exact marked note there used
  · exact recorded note.nullifierHash marks

end Marks

/-! What holds of every run. -/
section Runs
variable {poseidon2Permutation : Vector Field 4 → Vector Field 4} {config : Config}
  {keyOf : String → Option Pubkey} {verifier : List UInt8 → Bool} {deployment : Deployment}

/-- The ledger has the record that a transaction asks for. -/
def Paid (deployment : Deployment) (chain : Chain) (transaction : WithdrawTransaction) : Prop :=
  transaction.data.length ≤ packetDataSize ∧ ∃ args timestamp, call transaction = some args ∧
    chain.records args.nullifierHash = some (recordOf deployment args timestamp)

/-- No record is lost. -/
def Extends (before after : Chain) : Prop :=
  ∀ hash record, before.records hash = some record → after.records hash = some record

theorem process_extends {before after : Chain} {tx : Transaction deployment}
    (taken : process verifier deployment before tx = .ok after) : Extends before after :=
  fun _ _ stored => Accounting.step_keeps_record (process_step taken) stored

theorem paid_extends {before after : Chain} (extended : Extends before after)
    (transaction : WithdrawTransaction) (paid : Paid deployment before transaction) :
    Paid deployment after transaction := by
  obtain ⟨small, args, timestamp, reads, stored⟩ := paid
  exact ⟨small, args, timestamp, reads, extended _ _ stored⟩

theorem marked_extends {before after : Chain} (extended : Extends before after)
    {browser : Browser} (marked : Marked before browser) : Marked after browser := by
  intro note held used
  obtain ⟨hash, record, same, stored⟩ := marked note held used
  exact ⟨hash, record, same, extended _ _ stored⟩

/-- A transaction that takes effect leaves the record it asks for. -/
theorem lands_pays {chain after : Chain} {transaction : WithdrawTransaction}
    {clock : Option Int64} {tx : Transaction deployment}
    (small : transaction.data.length ≤ packetDataSize)
    (read : Redemption.received deployment clock transaction = some tx)
    (taken : process verifier deployment chain tx = .ok after) :
    Paid deployment after transaction := by
  rw [Redemption.received] at read
  split at read
  · cases read
  · obtain ⟨args, reads, rfl⟩ := Option.map_eq_some_iff.mp read
    obtain ⟨_, _, _, _, timestamp, _, rfl⟩ :=
      PoolRuns.step_withdraws (process_step taken) rfl
    exact ⟨small, args, timestamp, reads, Function.update_self ..⟩

def Knows (deployment : Deployment) (system : System) (known : Known) : Prop :=
  Rightly (Paid deployment system.chain) system.network known

/-- What holds between any two events. -/
structure Good (deployment : Deployment) (system : System) : Prop where
  settled : Settled (Paid deployment system.chain) system.network
  marked : Marked system.chain system.browser

/-- A script may mark what the ledger has. -/
theorem may_recorded {system : System} {known : Known} (knows : Knows deployment system known)
    {nullifierHash : String} (may : (withdrawing keyOf).may known (.markUsed nullifierHash)) :
    Recorded system.chain nullifierHash := by
  obtain ⟨transaction, landed, marks⟩ := may
  obtain ⟨small, args, timestamp, reads, stored⟩ := knows.landed transaction landed
  obtain ⟨own, again, same⟩ := marks small
  rw [reads] at again
  obtain rfl := Option.some.inj again
  exact ⟨args.nullifierHash, _, same, stored⟩

theorem moves_upheld {before after : System} {move : Move deployment}
    (good : Good deployment before) (moved : Moves verifier deployment before move after) :
    Good deployment after ∧ ∀ known, Knows deployment before known →
      Knows deployment after known := by
  cases moved with
  | store tab action other =>
      refine ⟨⟨good.settled, marked_turn good.marked ?_⟩, fun known knows => knows⟩
      exact fun nullifierHash marks => absurd marks (other nullifierHash)
  | land signature transaction clock tx chain underway small read taken =>
      have extended := process_extends taken
      have still := @paid_extends deployment _ _ extended
      refine ⟨⟨?_, marked_extends extended good.marked⟩, ?_⟩
      · exact land_settled good.settled still underway (lands_pays small read taken)
      · exact fun known knows => land_rightly knows still
  | transact tx chain taken =>
      have extended := process_extends taken
      have still := @paid_extends deployment _ _ extended
      exact ⟨⟨settled_mono good.settled still, marked_extends extended good.marked⟩,
        fun known knows => rightly_mono knows still⟩

theorem answers_upheld {system after : System} {tab : Nat} {request : Request}
    {answer : Except String request.Answer} {known : Known} (good : Good deployment system)
    (knows : Knows deployment system known) (may : (withdrawing keyOf).may known request)
    (answered : Answers keyOf system tab request answer after) :
    (withdrawing keyOf).can request answer ∧ Good deployment after ∧
      Knows deployment after ((withdrawing keyOf).told known request answer) ∧
      ∀ other, Knows deployment system other → Knows deployment after other := by
  cases answered with
  | notes => exact ⟨trivial, good, knows, fun _ others => others⟩
  | publicKey address key decoded => exact ⟨decoded, good, knows, fun _ others => others⟩
  | noKey address failure undecoded => exact ⟨trivial, good, knows, fun _ others => others⟩
  | sent transaction answer network taken =>
      exact ⟨trivial, ⟨takes_settled good.settled taken, good.marked⟩, takes_rightly knows taken,
        fun _ others => takes_others others taken⟩
  | asked signature latest answer confirms =>
      exact ⟨trivial, good, confirms_rightly good.settled knows confirms, fun _ others => others⟩
  | marked nullifierHash =>
      refine ⟨trivial, ⟨good.settled, marked_turn good.marked fun other marks => ?_⟩, knows,
        fun _ others => others⟩
      obtain rfl := NotesStore.Action.markUsed.inj marks
      exact may_recorded knows may
  | unmarked nullifierHash failure => exact ⟨trivial, good, knows, fun _ others => others⟩
  | elsewhere request answer free =>
      cases request <;>
        first
          | exact free.elim
          | exact ⟨trivial, good, knows, fun _ others => others⟩

theorem tabs_uphold :
    Upholds (tabs poseidon2Permutation config keyOf verifier deployment)
      (fun _ => withdrawing keyOf) (Good deployment) (Knows deployment) Told.nothing
      (fun task => Done poseidon2Permutation keyOf task.2) where
  begins _ := nothing_rightly
  keeps _ := withdraw_keeps
  moves _ _ _ good moved := moves_upheld good moved
  answers _ _ _ _ _ _ good knows may answered := answers_upheld good knows may answered

/-- The record a form asks for: no other withdrawal can have this hash any more. -/
structure Withdrawn (poseidon2Permutation : Vector Field 4 → Vector Field 4)
    (keyOf : String → Option Pubkey) (chain : Chain) (form : Form) : Prop where
  recorded : ∃ nullifierSecret nullifierHash record,
    hexToBytes form.nullifierSecretHex = some nullifierSecret ∧
    computeNullifierHash poseidon2Permutation nullifierSecret = some nullifierHash ∧
    chain.records nullifierHash = some record ∧
    keyOf form.recipientAddress = some record.recipient ∧
    record.amount = UInt64.ofNat form.amountLamports

/-- In every run of any number of tabs beside everything else, a note that a tab or the
storage has as used is withdrawn on the ledger, and a `withdraw` that ends without an error
has paid the amount of its form to the recipient of its form. -/
theorem used_notes_recorded {chain : Chain} {browser : Browser} (marked : Marked chain browser)
    {shared : Shared System (Nat × Form) Request Request.Answer String Nat}
    (reached : Reachable (Step (tabs poseidon2Permutation config keyOf verifier deployment))
      (fun _ _ => True) (rested (opened chain browser)) shared) :
    Marked shared.state.chain shared.state.browser ∧
      ∀ number tab form balance,
        shared.sessions number = some ((tab, form), .done (.ok balance)) →
          Withdrawn poseidon2Permutation keyOf shared.state.chain form := by
  have start : Good deployment (opened chain browser) := ⟨silent_settled, marked⟩
  obtain ⟨good, ended⟩ := reachable_upheld tabs_uphold start reached
  refine ⟨good.marked, ?_⟩
  intro number tab form balance held
  obtain ⟨known, knows, transaction, landed, fulfils⟩ := ended number (tab, form) balance held
  obtain ⟨small, args, timestamp, reads, stored⟩ := knows.landed transaction landed
  obtain ⟨own, again, orders⟩ := fulfils small
  rw [reads] at again
  obtain rfl := Option.some.inj again
  obtain ⟨nullifierSecret, read, hashed⟩ := orders.nullifierHash
  exact ⟨nullifierSecret, args.nullifierHash, _, read, hashed, stored, orders.recipient,
    orders.amount⟩

end Runs

/-! A `withdraw` that all are willing to serve. -/
section Through
variable {poseidon2Permutation : Vector Field 4 → Vector Field 4} {config : Config}
  {keyOf : String → Option Pubkey} {verifier : List UInt8 → Bool} {deployment : Deployment}
  {world : World} {form : Form} {draft : Draft} {transaction : WithdrawTransaction}

/-- Neither the network nor the stored notes are changed by it. -/
def Quiet : Request → Prop
  | .sendRawTransaction _ | .confirmTransaction _ _ | .markUsed _ => False
  | _ => True

/-- A world that has the notes of a tab and decodes addresses. -/
structure Sees (keyOf : String → Option Pubkey) (world : World) (notes : List DepositNote) :
    Prop where
  notes : world .notes = .ok notes
  keys : ∀ address, (world (.publicKey address)).toOption = keyOf address

theorem sees_answers {system : System} {tab : Nat}
    (sees : Sees keyOf world (system.browser.memory tab)) {request : Request}
    (quiet : Quiet request) : Answers keyOf system tab request (world request) system := by
  cases request with
  | notes =>
      rw [sees.notes]
      exact Answers.notes
  | publicKey address =>
      have decoded := sees.keys address
      cases held : world (.publicKey address) with
      | ok key =>
          rw [held] at decoded
          exact Answers.publicKey address key decoded.symm
      | error failure =>
          rw [held] at decoded
          exact Answers.noKey address failure decoded.symm
  | sendRawTransaction transaction => exact quiet.elim
  | confirmTransaction signature latest => exact quiet.elim
  | markUsed nullifierHash => exact quiet.elim
  | _ => exact Answers.elsewhere _ _ trivial

theorem gather_quiet (request : Request)
    (asked : Asks world (gather poseidon2Permutation config form) request) : Quiet request := by
  cases request with
  | sendRawTransaction _ | confirmTransaction _ _ | markUsed _ =>
      simp only [gather, asks_bind, asks_ask, asks_pure, asks_or_throw, asks_or_fail, reduceCtorEq,
        or_self, and_false, exists_false] at asked
  | _ => exact trivial

/-- Everyone answers as far as the signature. -/
structure Signs (poseidon2Permutation : Vector Field 4 → Vector Field 4) (world : World)
    (config : Config) (form : Form) (draft : Draft) (transaction : WithdrawTransaction) :
    Prop where
  gathers : ∃ leafIndex, Gathers poseidon2Permutation world config form leafIndex draft
  proves : ∃ file proof data latest, world (.execute draft.inputs) = .ok file ∧
    world (.api (.withdraw (String.ofList (Base64.encode file)))) = .ok proof ∧
    withdrawData proof draft.inputs.nullifierHash draft.inputs.root draft.recipient
      draft.inputs.amount = some data ∧
    world .latestBlockhash = .ok latest ∧
    transaction = withdrawTransaction config draft latest data
  able : draft.wallet.signs = true
  signed : world (.signTransaction transaction) = .ok ()

/-- What `submit` does behind the signature. -/
def hand (draft : Draft) (latest : DepositClient.Blockhash) (transaction : WithdrawTransaction) :
    Flow Nat := do
  let signature ← ask (.sendRawTransaction transaction)
  let failed : Option String ← ask (.confirmTransaction signature latest)
  match failed with
  | some err => fail ("Transaction failed on-chain: " ++ err)
  | none => do
      ask (.markUsed (bytesToHex draft.inputs.nullifierHash.toList))
      ask (.balance draft.wallet.address)

/-- One run of `withdraw` in a tab, the others where they are. -/
def running (system : System) (sessions : Nat → Option ((Nat × Form) × Flow Nat))
    (number tab : Nat) (form : Form) (left : Flow Nat) :
    Shared System (Nat × Form) Request Request.Answer String Nat :=
  ⟨system, Function.update sessions number (some ((tab, form), left))⟩

variable {system : System} {sessions : Nat → Option ((Nat × Form) × Flow Nat)} {number tab : Nat}

theorem ask_goes_on {request : Request} {answer : request.Answer}
    (answered : world request = .ok answer) (quiet : Quiet request)
    (rest : request.Answer → Flow Nat) (sees : Sees keyOf world (system.browser.memory tab)) :
    Reachable (Step (tabs poseidon2Permutation config keyOf verifier deployment)) (fun _ _ => True)
      (running system sessions number tab form (ask request >>= rest))
      (running system sessions number tab form (rest answer)) := by
  apply script_goes_on (ends_ask.mpr answered)
  intro other asked _
  rw [asks_ask.mp asked]
  exact sees_answers sees quiet

theorem signs_goes_on (signs : Signs poseidon2Permutation world config form draft transaction)
    (sees : Sees keyOf world (system.browser.memory tab)) :
    ∃ latest, Reachable (Step (tabs poseidon2Permutation config keyOf verifier deployment))
      (fun _ _ => True)
      (running system sessions number tab form
        (WithdrawFlow.withdraw poseidon2Permutation config form))
      (running system sessions number tab form (hand draft latest transaction)) := by
  obtain ⟨file, proof, data, latest, executed, proved, written, dated, rfl⟩ := signs.proves
  refine ⟨latest, ?_⟩
  apply reachable_trans (script_goes_on (ends_gather.mpr signs.gathers)
    (fun request asked _ => sees_answers sees (gather_quiet request asked)) _ number sessions)
  apply reachable_trans (ask_goes_on executed trivial _ sees)
  apply reachable_trans (ask_goes_on proved trivial _ sees)
  have opens : submit config draft proof = ask .latestBlockhash >>= fun latest =>
      ask (.signTransaction (withdrawTransaction config draft latest data)) >>= fun _ =>
        hand draft latest (withdrawTransaction config draft latest data) := by
    rw [submit, written]
    simp only [signs.able]
    rfl
  rw [opens]
  apply reachable_trans (ask_goes_on dated trivial _ sees)
  exact ask_goes_on signs.signed trivial _ sees

/-- A withdrawal that is signed and that the program takes comes to its end, and its note is
marked. -/
theorem withdraw_goes_through
    (signs : Signs poseidon2Permutation world config form draft transaction)
    (sees : Sees keyOf world (system.browser.memory tab)) (free : sessions number = none)
    {signature : String} (own : system.network.Own signature transaction)
    (small : transaction.data.length ≤ packetDataSize) {clock : Option Int64}
    {tx : Transaction deployment}
    (read : Redemption.received deployment clock transaction = some tx) {after : Chain}
    (taken : process verifier deployment system.chain tx = .ok after) (lamports : Nat) :
    ∃ final, Reachable (Step (tabs poseidon2Permutation config keyOf verifier deployment))
        (fun _ _ => True) ⟨system, sessions⟩ final ∧
      final.sessions number = some ((tab, form), .done (.ok lamports)) ∧
      final.state.chain = after ∧ final.state.browser = NotesStore.turn system.browser
        (tab, .markUsed (bytesToHex draft.inputs.nullifierHash.toList)) := by
  have begun : Reachable (Step (tabs poseidon2Permutation config keyOf verifier deployment))
      (fun _ _ => True) ⟨system, sessions⟩ _ :=
    Reachable.start.next trivial (Step.begin number (tab, form) free)
  obtain ⟨latest, signed⟩ := signs_goes_on signs sees
  have handed := reachable_trans begun signed
  have sent := handed.next trivial (Step.reply number _ _ _ _ _ (Function.update_self ..)
    (Answers.sent transaction _ _ (.accepted signature own)))
  have landed := sent.next trivial (Step.move _ _ (Moves.land signature transaction clock tx after
    (Function.update_self ..) small read taken))
  have confirmed := landed.next trivial (Step.reply number _ _ _ _ _ (Function.update_self ..)
    (Answers.asked signature latest _ (.confirmed List.mem_cons_self)))
  have marked := confirmed.next trivial (Step.reply number _ _ _ _ _ (Function.update_self ..)
    (Answers.marked _))
  have ended := marked.next trivial (Step.reply number _ _ _ _ _ (Function.update_self ..)
    (Answers.elsewhere _ (.ok lamports) trivial))
  exact ⟨_, ended, Function.update_self .., rfl, rfl⟩

end Through

/-! A note of an empty pool that somebody has paid into, before a verifier that takes
everything: one tab withdraws it. -/
section Sample
open Verifier (sampleDeployment payer)

def freshPool : Chain := ⟨some (handlerPool payer), fun _ => none, fun _ => 10_000_000_000, []⟩

def sampleNote : DepositNote where
  id := "note"
  nullifierSecret := bytesToHex [7]
  secret := bytesToHex [8]
  amount := 1_000_000_000
  commitment := bytesToHex [9]
  nullifierHash := bytesToHex (bytesOf 7).toList
  timestamp := 0
  used := false

def sampleBrowser : Browser := ⟨fun _ => [sampleNote], some [sampleNote]⟩

def sampleKeyOf (address : String) : Option Pubkey :=
  if address = "recipient" then some payer else none

def sampleForm : Form := ⟨bytesToHex [7], bytesToHex [8], 1_000_000_000, "recipient"⟩

def sampleConfig : Config :=
  ⟨"pool", sampleDeployment.pool, sampleDeployment.poolVault, sampleDeployment.nullifierRecord⟩

def sampleWorld : World
  | .wallet => .ok (some ⟨payer, true⟩)
  | .hashes => .ok ()
  | .notes => .ok [sampleNote]
  | .api (.getCommitments _) => .ok [⟨0, bytesToHex [9]⟩]
  | .api (.getProof _ _) => .ok ⟨[], [], bytesToHex Bytes32.zero.toList⟩
  | .api (.withdraw _) => .ok [1]
  | .publicKey address => if address = "recipient" then .ok payer else .error "Non-base58 character"
  | .execute _ => .ok []
  | .latestBlockhash => .ok ⟨"", 0⟩
  | .signTransaction _ => .ok ()
  | .sendRawTransaction _ => .ok ""
  | .confirmTransaction _ _ => .ok none
  | .markUsed _ => .ok ()
  | .balance _ => .ok 0

def sampleDraft : Draft where
  wallet := ⟨payer, true⟩
  recipient := payer
  inputs :=
    { root := Bytes32.zero.toList, nullifierHash := bytesOf 7
      recipient := WithdrawClient.reduceToField payer, amount := 1_000_000_000
      nullifierSecret := [7], secret := [8], merkleProof := [], isEven := [] }

def sampleData : List UInt8 :=
  withdrawDiscriminator ++ ((littleEndian 4 1 ++ [1]) ++ ((bytesOf 7).toList ++
    (Bytes32.zero.toList ++ (payer.toList ++ littleEndian 8 1_000_000_000))))

def sampleTransaction : WithdrawTransaction :=
  withdrawTransaction sampleConfig sampleDraft ⟨"", 0⟩ sampleData

theorem sample_gathers :
    Gathers id sampleWorld sampleConfig sampleForm 0 sampleDraft := by
  have located : [[9]].findIdx? (sameHex sampleNote.commitment) = some 0 := by
    rw [List.findIdx?_cons, sampleNote, same_hex_iff.mpr rfl]
    rfl
  have locates : Locates id sampleWorld sampleConfig sampleForm ⟨payer, true⟩ [7] (bytesOf 7) 0 :=
    Locates.intro _ _ _ _ [sampleNote] sampleNote [⟨0, bytesToHex [9]⟩] [[9]] rfl
      (hex_round_trip _) rfl (by decide) rfl (by simp [sampleNote]) rfl rfl
      (by simp [DepositClient.existingCommitments]) located
  exact Gathers.intro _ _ _ _ _ [] Bytes32.zero.toList payer [8] locates rfl rfl
    (hex_round_trip _) rfl (hex_round_trip _)

theorem sample_signs :
    Signs id sampleWorld sampleConfig sampleForm sampleDraft sampleTransaction where
  gathers := ⟨0, sample_gathers⟩
  proves := ⟨[], [1], sampleData, ⟨"", 0⟩, rfl, rfl, withdraw_data_bytes .., rfl, rfl⟩
  able := rfl
  signed := rfl

theorem sample_taken :
    ((Redemption.received sampleDeployment (some 5) sampleTransaction).map fun tx =>
      (process (fun _ => true) sampleDeployment freshPool tx).isOk) = some true := by
  decide +kernel

theorem sample_small : sampleTransaction.data.length ≤ packetDataSize := by
  decide +kernel

theorem sample_held {note : DepositNote} (held : Held sampleBrowser note) : note = sampleNote := by
  rcases held with stored | ⟨tab, memory⟩
  · exact List.mem_singleton.mp stored
  · exact List.mem_singleton.mp memory

theorem sample_note_recorded :
    ∃ shared, Reachable (Step (tabs id sampleConfig sampleKeyOf (fun _ => true) sampleDeployment))
        (fun _ _ => True) (rested (opened freshPool sampleBrowser)) shared ∧
      (∃ note ∈ shared.state.browser.stored, note.used = true) ∧
      Marked shared.state.chain shared.state.browser ∧
      Withdrawn id sampleKeyOf shared.state.chain sampleForm := by
  obtain ⟨tx, read, taken⟩ := Option.map_eq_some_iff.mp sample_taken
  cases committed : process (fun _ => true) sampleDeployment freshPool tx with
  | error refusal =>
      rw [committed] at taken
      cases taken
  | ok after =>
      let before : System := opened freshPool sampleBrowser
      have sees : Sees sampleKeyOf sampleWorld (before.browser.memory 0) := by
        refine ⟨rfl, fun address => ?_⟩
        rw [sampleWorld, sampleKeyOf]
        split <;> rfl
      have unsent : before.network.Own "" sampleTransaction := nofun
      have free : (rested before : Shared System (Nat × Form) Request Request.Answer String
        Nat).sessions 0 = none := rfl
      obtain ⟨final, reached, ended, _, browser⟩ :=
        withdraw_goes_through sample_signs sees free unsent sample_small read committed 0
      have unused : Marked freshPool sampleBrowser := by
        intro note held used
        rw [sample_held held] at used
        cases used
      obtain ⟨marked, withdrawn⟩ := used_notes_recorded unused reached
      refine ⟨final, reached, ?_, marked, withdrawn 0 0 sampleForm 0 ended⟩
      rw [browser, NotesStore.stored_turn]
      exact ⟨{ sampleNote with used := true }, by decide, rfl⟩

end Sample

end PrivateTransfer.UsedNotes
