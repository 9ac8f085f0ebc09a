import PrivateTransfer.Broadcast
import PrivateTransfer.Contracts
import PrivateTransfer.NotesStore
import PrivateTransfer.Redemption
import PrivateTransfer.SentData
import PrivateTransfer.UsedNotes

/-!
The stored notes and the ledger. `deposit` runs in any number of tabs, beside everything
else that is done to the item in `localStorage` and everybody's transactions; the backend
and the merkle service may answer anything.
-/

namespace PrivateTransfer.StoredNotes

open Borsh Broadcast ClientHex DepositClient InstructionData Interleaving PoolProgram PoolRuns
open Script SentData
open Issuance (callOf)
open Redemption (Opening)

/-! What `deposit` knows before it stores a note. -/
section Script
variable (poseidon2Permutation : Vector Field 4 → Vector Field 4)

def call (transaction : DepositTransaction) : Option DepositArgs :=
  callOf depositDiscriminator depositArgs transaction.data

/-- A run of `deposit`: its amount, and what `crypto.getRandomValues` draws for it. -/
structure Task where
  amount : Nat
  firstDraw : Bytes32
  secondDraw : Bytes32

def Task.draw (task : Task) : Nat → Bytes32
  | 0 => task.firstDraw
  | _ => task.secondDraw

/-- The deposit of its own draws, with the amount as far as 64 bits hold it. -/
structure Fulfils (task : Task) (args : DepositArgs) : Prop where
  commitment : args.commitment = bytesOf (Issuance.leafOf poseidon2Permutation task.firstDraw
    task.secondDraw task.amount)
  amount : args.amount = UInt64.ofNat task.amount

/-- The note opens the deposit, which is of its amount as far as 64 bits hold it. -/
structure Issues (note : DepositNote) (args : DepositArgs) : Prop where
  opening : ∃ nullifier secret, Opening poseidon2Permutation note nullifier secret
  commitment : note.commitment = bytesToHex args.commitment.toList
  amount : args.amount = UInt64.ofNat note.amount

/-- What a script was told of its transaction, and the notes that were stored when it looked. -/
structure Known where
  told : Told DepositTransaction
  read : List DepositNote

/-- A note is stored behind those that are there, and only when its deposit is confirmed. -/
def depositing (task : Task) : Contract Request Request.Answer String Known where
  can request answer :=
    match request, answer with
    | .remote (.randomBytes draw), .ok bytes => bytes = task.draw draw
    | _, _ => True
  told known request answer :=
    match request, answer with
    | .sendRawTransaction transaction, answer =>
        { known with told := known.told.send transaction answer }
    | .remote (.confirmTransaction signature _), answer =>
        { known with told := known.told.confirm signature answer }
    | .getItem, .ok stored => { known with read := stored.parsed.getD [] }
    | .getItem, .error _ => { known with read := [] }
    | _, _ => known
  may known request :=
    match request with
    | .setItem notes => ∃ note transaction args, notes = known.read ++ [note] ∧
        known.told.landed = some transaction ∧ call transaction = some args ∧
        Issues poseidon2Permutation note args
    | _ => True

/-- The confirmed deposit is the task's own. -/
def Done (task : Task) (known : Known) (_ : Nat) : Prop :=
  ∃ transaction args, known.told.landed = some transaction ∧ call transaction = some args ∧
    Fulfils poseidon2Permutation task args

/-- A draft whose transaction is the deposit of its note. -/
structure Drafted (task : Task) (draft : Draft) : Prop where
  orders : ∃ args, call draft.transaction = some args ∧ Fulfils poseidon2Permutation task args ∧
    ∀ id timestamp, Issues poseidon2Permutation (noteOf draft id timestamp) args

variable {poseidon2Permutation} {Value After : Type} {ends : Known → After → Prop}
  {known : Known} {config : Config} {amount : Nat} {task : Task} {draft : Draft}

theorem keeps_or_throw {message : String} {found : Option Value} {next : Value → Flow After}
    (rest : ∀ value, found = some value →
      Keeps (depositing poseidon2Permutation task) ends known (next value)) :
    Keeps (depositing poseidon2Permutation task) ends known (orThrow message found >>= next) := by
  cases found with
  | none => exact keeps_fail
  | some value => exact rest value rfl

theorem keeps_or_fail {message : String} {holds : Bool} {next : Unit → Flow After}
    (rest : Keeps (depositing poseidon2Permutation task) ends known (next ())) :
    Keeps (depositing poseidon2Permutation task) ends known (orFail holds message >>= next) := by
  cases holds with
  | false => exact keeps_fail
  | true => exact rest

/-- The secrets the note keeps are those its commitment and its hash were made from. -/
theorem draft_opens {firstDraw secondDraw : Bytes32} {computed : CommitmentResult}
    (hashed : computeCommitment poseidon2Permutation (bytesToFieldElement firstDraw)
      (bytesToFieldElement secondDraw) amount = some computed)
    (latest : Blockhash) (transaction : DepositTransaction) (id : String) (timestamp : Nat) :
    ∃ nullifier secret, Opening poseidon2Permutation
      (noteOf ⟨bytesToFieldElement firstDraw, bytesToFieldElement secondDraw, amount, computed,
        latest, transaction⟩ id timestamp) nullifier secret := by
  have drawn : ∀ draw : Bytes32, bytesToFieldElement draw = bytesOf (fieldOf draw) :=
    WithdrawClient.reduce_bytes
  rw [computeCommitment] at hashed
  split at hashed
  · obtain rfl := Option.some.inj hashed
    refine ⟨fieldOf firstDraw, fieldOf secondDraw, ?_, ?_, ?_, ?_⟩
    · simp only [noteOf, drawn, BackendView.elementHex]
    · simp only [noteOf, drawn, BackendView.elementHex]
    · simp only [noteOf, drawn, fieldOf_bytesOf, BackendView.elementHex]
    · simp only [noteOf, drawn, fieldOf_bytesOf, BackendView.elementHex]
  · cases hashed

theorem draws_computed {firstDraw secondDraw : Bytes32} {computed : CommitmentResult}
    (hashed : computeCommitment poseidon2Permutation (bytesToFieldElement firstDraw)
      (bytesToFieldElement secondDraw) amount = some computed) :
    computed.commitment =
      bytesOf (Issuance.leafOf poseidon2Permutation firstDraw secondDraw amount) := by
  have small : amount < bn254Modulus := by
    rw [computeCommitment] at hashed
    split at hashed
    · rename_i canonical
      exact canonical.2.2
    · cases hashed
  rw [Issuance.drawn_commitment firstDraw secondDraw small] at hashed
  rw [← Option.some.inj hashed]

theorem root_keeps {newCommitment : List UInt8} {existing : List (List UInt8)} :
    Keeps (depositing poseidon2Permutation task) (fun _ _ => True) known
      (fetchNewRootFromMerkle newCommitment existing) := by
  rw [fetchNewRootFromMerkle]
  apply keeps_perform trivial
  intro reply _
  cases reply with
  | refused status text => exact keeps_fail
  | root hex =>
      change Keeps _ _ _ (orThrow "invalid hex" (hexToBytes hex))
      cases hexToBytes hex with
      | none => exact keeps_fail
      | some newRoot => exact keeps_pure trivial

theorem prepare_keeps :
    Keeps (depositing poseidon2Permutation task)
      (fun _ draft => Drafted poseidon2Permutation task draft) known
      (prepare poseidon2Permutation config task.amount) := by
  rw [prepare]
  apply keeps_perform trivial
  intro connected _
  apply keeps_or_throw
  intro wallet _
  apply keeps_or_fail
  apply keeps_perform trivial
  intro firstDraw first
  apply keeps_perform trivial
  intro secondDraw second
  obtain rfl : firstDraw = task.firstDraw := first
  obtain rfl : secondDraw = task.secondDraw := second
  apply keeps_perform trivial
  intro _ _
  generalize hashed : computeCommitment poseidon2Permutation
    (bytesToFieldElement task.firstDraw) (bytesToFieldElement task.secondDraw) task.amount = found
  apply keeps_or_throw
  rintro computed rfl
  apply keeps_perform trivial
  intro entries _
  apply keeps_or_throw
  intro existing _
  apply keeps_bind root_keeps
  intro known newRoot _
  apply keeps_or_throw
  intro data written
  apply keeps_perform trivial
  intro latest _
  apply keeps_or_fail
  apply keeps_perform trivial
  intro _ _
  obtain ⟨read, reads⟩ := deposit_data_read written
  refine keeps_pure ⟨_, reads, ⟨draws_computed hashed, rfl⟩, fun id timestamp => ?_⟩
  exact ⟨draft_opens hashed latest _ id timestamp, rfl, rfl⟩

/-- The note is stored behind whatever could be read. -/
theorem save_keeps {note : DepositNote} {transaction : DepositTransaction} {args : DepositArgs}
    (landed : known.told.landed = some transaction) (orders : call transaction = some args)
    (issues : Issues poseidon2Permutation note args) :
    Keeps (depositing poseidon2Permutation task)
      (fun known _ => known.told.landed = some transaction) known (saveDepositNote note) := by
  rw [saveDepositNote, getDepositNotes, bind_assoc]
  apply keeps_noted trivial
  intro data _
  cases data with
  | error failure =>
      apply keeps_perform
      · exact ⟨note, transaction, args, rfl, landed, orders, issues⟩
      · intro _ _
        exact keeps_pure landed
  | ok stored =>
      change Keeps _ _ _ (orThrow "notes.push is not a function" stored.parsed >>= _)
      cases read : stored.parsed with
      | none => exact keeps_fail
      | some notes =>
          have told : stored.parsed.getD [] = notes := by rw [read]; rfl
          apply keeps_perform
          · refine ⟨note, transaction, args, ?_, landed, orders, issues⟩
            rw [← told]
            rfl
          · intro _ _
            exact keeps_pure landed

theorem submit_keeps (drafted : Drafted poseidon2Permutation task draft) :
    Keeps (depositing poseidon2Permutation task)
      (fun known _ => known.told.landed = some draft.transaction) known
      (submit config draft) := by
  rw [submit]
  apply keeps_perform trivial
  intro signature _
  apply keeps_perform trivial
  intro failed _
  cases failed with
  | some err => exact keeps_fail
  | none =>
      have landed := known.told.confirm_own draft.transaction signature
      obtain ⟨args, orders, _, issues⟩ := drafted.orders
      apply keeps_perform trivial
      intro id _
      exact save_keeps landed orders (issues id config.now)

/-- Whatever it is answered, `deposit` stores its note behind the others when its own deposit
is confirmed, and ends well with nothing less. -/
theorem deposit_keeps :
    Keeps (depositing poseidon2Permutation task) (Done poseidon2Permutation task) known
      (DepositClient.deposit poseidon2Permutation config task.amount) := by
  rw [DepositClient.deposit]
  apply keeps_bind prepare_keeps
  intro known draft drafted
  apply keeps_bind (submit_keeps drafted)
  intro known _ landed
  obtain ⟨args, orders, fulfils, _⟩ := drafted.orders
  refine ⟨trivial, fun balance _ => ?_⟩
  cases balance with
  | error failure => trivial
  | ok lamports => exact ⟨draft.transaction, args, landed, orders, fulfils⟩

end Script

/-! The tabs, the network and the ledger. -/
section System
variable (poseidon2Permutation : Vector Field 4 → Vector Field 4) (config : Config)
  (verifier : List UInt8 → Bool) (deployment : Deployment)

/-- `history` are the transactions that committed. -/
structure System where
  chain : Chain
  history : List (Transaction deployment)
  item : NotesStore.Item
  network : Network DepositTransaction

variable {deployment}

def storedOf : NotesStore.Item → Stored
  | none => .absent
  | some notes => .notes notes

/-- The answers a tab can be given, and what the system is then. The item may change between
what is read of it and what is written. -/
inductive Answers (task : Task) (system : System deployment) :
    (request : Request) → Except String request.Answer → System deployment → Prop
  | sent (transaction : DepositTransaction) (answer : Except String String)
      (network : Network DepositTransaction)
      (taken : system.network.Takes transaction answer network) :
      Answers task system (.sendRawTransaction transaction) answer { system with network }
  | asked (signature : String) (latest : Blockhash) (answer : Except String (Option String))
      (confirms : system.network.Confirms signature answer) :
      Answers task system (.remote (.confirmTransaction signature latest)) answer system
  | read : Answers task system .getItem (.ok (storedOf system.item)) system
  | unread (failure : String) : Answers task system .getItem (.error failure) system
  | written (notes : List DepositNote) :
      Answers task system (.setItem notes) (.ok ()) { system with item := some notes }
  | unwritten (notes : List DepositNote) (failure : String) :
      Answers task system (.setItem notes) (.error failure) system
  | drawn (draw : Nat) : Answers task system (.remote (.randomBytes draw)) (.ok (task.draw draw))
      system
  | elsewhere (call : Remote) (answer : Except String call.Answer)
      (free : ∀ signature latest, call ≠ .confirmTransaction signature latest)
      (undrawn : ∀ draw, call ≠ .randomBytes draw) :
      Answers task system (.remote call) answer system

inductive Move (deployment : Deployment)
  | store (action : NotesStore.Action)
  | land (signature : String)
  | transact (tx : Transaction deployment)

/-- Nothing but `deposit` calls `addNote`. -/
inductive Moves (system : System deployment) : Move deployment → System deployment → Prop
  | store (memory : List DepositNote) (action : NotesStore.Action)
      (other : ∀ made id timestamp, action ≠ .addNote made id timestamp) :
      Moves system (.store action)
        { system with item := (NotesStore.act ⟨memory, system.item⟩ action).item }
  | land (signature : String) (transaction : DepositTransaction) (clock : Option Int64)
      (tx : Transaction deployment) (after : Chain)
      (underway : system.network.sent signature = some transaction)
      (read : Issuance.received deployment clock transaction = some tx)
      (taken : process verifier deployment system.chain tx = .ok after) :
      Moves system (.land signature)
        ⟨after, system.history ++ [tx], system.item, system.network.land signature⟩
  | transact (tx : Transaction deployment) (after : Chain)
      (taken : process verifier deployment system.chain tx = .ok after) :
      Moves system (.transact tx)
        { system with chain := after, history := system.history ++ [tx] }

variable (deployment)

def tabs : Setting (System deployment) Task (Move deployment) Request Request.Answer String
    Nat where
  script task := DepositClient.deposit poseidon2Permutation config task.amount
  answers system task := Answers task system
  moves := Moves verifier

def opened (chain : Chain) (history : List (Transaction deployment)) (item : NotesStore.Item) :
    System deployment :=
  ⟨chain, history, item, Network.silent⟩

end System

/-! What holds of every run. -/
section Runs
variable {poseidon2Permutation : Vector Field 4 → Vector Field 4} {config : Config}
  {verifier : List UInt8 → Bool} {deployment : Deployment}

/-- The note's deposit committed. -/
def Issued (poseidon2Permutation : Vector Field 4 → Vector Field 4)
    (history : List (Transaction deployment)) (note : DepositNote) : Prop :=
  ∃ args ∈ deposits history, Issues poseidon2Permutation note args

def Backed (poseidon2Permutation : Vector Field 4 → Vector Field 4) (system : System deployment) :
    Prop :=
  ∀ note ∈ NotesStore.getDepositNotes system.item, Issued poseidon2Permutation system.history note

/-- The deposit a transaction asks for committed. -/
def Paid (history : List (Transaction deployment)) (transaction : DepositTransaction) : Prop :=
  ∃ args, call transaction = some args ∧ args ∈ deposits history

structure Knows (poseidon2Permutation : Vector Field 4 → Vector Field 4)
    (system : System deployment) (known : Known) : Prop where
  told : Rightly (Paid system.history) system.network known.told
  read : ∀ note ∈ known.read, Issued poseidon2Permutation system.history note

/-- What holds between any two events. -/
structure Good (poseidon2Permutation : Vector Field 4 → Vector Field 4)
    (system : System deployment) : Prop where
  settled : Settled (Paid system.history) system.network
  backed : Backed poseidon2Permutation system

/-! No committed deposit is lost. -/
variable {history : List (Transaction deployment)}

theorem deposits_stay (tx : Transaction deployment) {args : DepositArgs}
    (member : args ∈ deposits history) : args ∈ deposits (history ++ [tx]) := by
  rw [PoolRuns.deposits, List.filterMap_append]
  exact List.mem_append_left _ member

theorem paid_stays (tx : Transaction deployment) (transaction : DepositTransaction)
    (paid : Paid history transaction) : Paid (history ++ [tx]) transaction := by
  obtain ⟨args, reads, member⟩ := paid
  exact ⟨args, reads, deposits_stay tx member⟩

theorem issued_stays (tx : Transaction deployment) {note : DepositNote}
    (issued : Issued poseidon2Permutation history note) :
    Issued poseidon2Permutation (history ++ [tx]) note := by
  obtain ⟨args, member, issues⟩ := issued
  exact ⟨args, deposits_stay tx member, issues⟩

/-- A note stays issued when it is marked. -/
theorem issued_later {before after : DepositNote}
    (later : NotesStore.Later before after)
    (issued : Issued poseidon2Permutation history before) :
    Issued poseidon2Permutation history after := by
  obtain ⟨args, member, ⟨nullifier, secret, opening⟩, commitment, amount⟩ := issued
  rw [later.same]
  exact ⟨args, member, ⟨nullifier, secret, opening.first, opening.second, opening.spends,
    opening.commits⟩, commitment, amount⟩

theorem flag_before {nullifierHash : String} {notes : List DepositNote} {note : DepositNote}
    (member : note ∈ NotesStore.flagUsed nullifierHash notes) :
    ∃ before ∈ notes, NotesStore.Later before note := by
  have later := NotesStore.flag_later nullifierHash
    (List.forall₂_same.mpr fun note (_ : note ∈ notes) => NotesStore.later_refl note)
  obtain ⟨i, inside, rfl⟩ := List.getElem_of_mem member
  have width : i < notes.length := later.length_eq ▸ inside
  exact ⟨notes[i], List.getElem_mem width, later.get width inside⟩

/-- Every stored note was there before, but for what `addNote` adds. -/
theorem applied_before {action : NotesStore.Action} {notes : List DepositNote} {note : DepositNote}
    (other : ∀ made id timestamp, action ≠ .addNote made id timestamp)
    (member : note ∈ action.applied notes) : ∃ before ∈ notes, NotesStore.Later before note := by
  cases action with
  | loadNotes => exact ⟨note, member, NotesStore.later_refl note⟩
  | addNote made id timestamp => exact absurd rfl (other made id timestamp)
  | markUsed nullifierHash => exact flag_before member
  | removeNote nullifierHash =>
      exact ⟨note, List.mem_of_mem_filter member, NotesStore.later_refl note⟩
  | clearAll => cases member

/-- A deposit that takes effect is in the history. -/
theorem lands_pays {transaction : DepositTransaction}
    {clock : Option Int64} {tx : Transaction deployment}
    (read : Issuance.received deployment clock transaction = some tx) :
    Paid (history ++ [tx]) transaction := by
  rw [Issuance.received] at read
  split at read
  · cases read
  · obtain ⟨args, reads, rfl⟩ := Option.map_eq_some_iff.mp read
    refine ⟨args, reads, ?_⟩
    rw [deposits_snoc history rfl]
    exact List.mem_append_right _ (List.mem_singleton_self _)

theorem moves_upheld {before after : System deployment} {move : Move deployment}
    (good : Good poseidon2Permutation before) (moved : Moves verifier before move after) :
    Good poseidon2Permutation after ∧ ∀ known, Knows poseidon2Permutation before known →
      Knows poseidon2Permutation after known := by
  cases moved with
  | store memory action other =>
      refine ⟨⟨good.settled, ?_⟩, fun known knows => ⟨knows.told, knows.read⟩⟩
      intro note member
      rw [NotesStore.stored_act] at member
      obtain ⟨earlier, there, later⟩ := applied_before other member
      exact issued_later later (good.backed earlier there)
  | land signature transaction clock tx chain underway read taken =>
      refine ⟨⟨?_, fun note member => issued_stays tx (good.backed note member)⟩, ?_⟩
      · exact land_settled good.settled (paid_stays tx) underway (lands_pays read)
      · exact fun known knows => ⟨land_rightly knows.told (paid_stays tx),
          fun note member => issued_stays tx (knows.read note member)⟩
  | transact tx chain taken =>
      refine ⟨⟨?_, fun note member => issued_stays tx (good.backed note member)⟩, ?_⟩
      · exact settled_mono good.settled (paid_stays tx)
      · exact fun known knows => ⟨rightly_mono knows.told (paid_stays tx),
          fun note member => issued_stays tx (knows.read note member)⟩

/-- What is written is what was read and one note more. -/
theorem may_backed {system : System deployment} {known : Known}
    (knows : Knows poseidon2Permutation system known) {notes : List DepositNote}
    {task : Task} (may : (depositing poseidon2Permutation task).may known (.setItem notes)) :
    ∀ note ∈ notes, Issued poseidon2Permutation system.history note := by
  obtain ⟨added, transaction, args, rfl, landed, orders, issues⟩ := may
  intro note member
  rcases List.mem_append.mp member with read | single
  · exact knows.read note read
  · obtain rfl := List.mem_singleton.mp single
    obtain ⟨paid, reads, committed⟩ := knows.told.landed transaction landed
    rw [orders] at reads
    obtain rfl := Option.some.inj reads
    exact ⟨args, committed, issues⟩

theorem stored_parsed (item : NotesStore.Item) :
    (storedOf item).parsed.getD [] = NotesStore.getDepositNotes item := by
  cases item <;> rfl

theorem answers_upheld {task : Task} {system after : System deployment} {request : Request}
    {answer : Except String request.Answer} {known : Known}
    (good : Good poseidon2Permutation system)
    (knows : Knows poseidon2Permutation system known)
    (may : (depositing poseidon2Permutation task).may known request)
    (answered : Answers task system request answer after) :
    (depositing poseidon2Permutation task).can request answer ∧ Good poseidon2Permutation after ∧
      Knows poseidon2Permutation after ((depositing poseidon2Permutation task).told known request
        answer) ∧
      ∀ other, Knows poseidon2Permutation system other →
        Knows poseidon2Permutation after other := by
  cases answered with
  | sent transaction answer network taken =>
      exact ⟨trivial, ⟨takes_settled good.settled taken, good.backed⟩,
        ⟨takes_rightly knows.told taken, knows.read⟩,
        fun _ others => ⟨takes_others others.told taken, others.read⟩⟩
  | asked signature latest answer confirms =>
      exact ⟨trivial, good, ⟨confirms_rightly good.settled knows.told confirms, knows.read⟩,
        fun _ others => others⟩
  | read =>
      refine ⟨trivial, good, ⟨knows.told, ?_⟩, fun _ others => others⟩
      intro note member
      change note ∈ (storedOf system.item).parsed.getD [] at member
      rw [stored_parsed] at member
      exact good.backed note member
  | unread failure => exact ⟨trivial, good, ⟨knows.told, nofun⟩, fun _ others => others⟩
  | written notes =>
      exact ⟨trivial, ⟨good.settled, may_backed knows may⟩, ⟨knows.told, knows.read⟩,
        fun _ others => ⟨others.told, others.read⟩⟩
  | unwritten notes failure => exact ⟨trivial, good, knows, fun _ others => others⟩
  | drawn draw => exact ⟨rfl, good, knows, fun _ others => others⟩
  | elsewhere call answer free undrawn =>
      cases call with
      | confirmTransaction signature latest => exact absurd rfl (free signature latest)
      | randomBytes draw => exact absurd rfl (undrawn draw)
      | _ => exact ⟨trivial, good, knows, fun _ others => others⟩

theorem tabs_uphold :
    Upholds (tabs poseidon2Permutation config verifier deployment)
      (depositing poseidon2Permutation) (Good poseidon2Permutation) (Knows poseidon2Permutation)
      ⟨Told.nothing, []⟩ (Done poseidon2Permutation) where
  begins _ := ⟨nothing_rightly, nofun⟩
  keeps _ := deposit_keeps
  moves _ _ _ good moved := moves_upheld good moved
  answers _ _ _ _ _ _ good knows may answered := answers_upheld good knows may answered

/-- In every run of any number of tabs beside everything else, every stored note opens a
deposit that committed, and a `deposit` that ends without an error has committed the one of
its own draws and its amount. -/
theorem stored_notes_issued {chain : Chain} {history : List (Transaction deployment)}
    {item : NotesStore.Item} (backed : Backed poseidon2Permutation
      (opened deployment chain history item))
    {shared : Shared (System deployment) Task Request Request.Answer String Nat}
    (reached : Reachable (Step (tabs poseidon2Permutation config verifier deployment))
      (fun _ _ => True) (rested (opened deployment chain history item)) shared) :
    Backed poseidon2Permutation shared.state ∧
      ∀ number task balance, shared.sessions number = some (task, .done (.ok balance)) →
        ∃ args ∈ deposits shared.state.history, Fulfils poseidon2Permutation task args := by
  have start : Good poseidon2Permutation (opened deployment chain history item) :=
    ⟨silent_settled, backed⟩
  obtain ⟨good, ended⟩ := reachable_upheld tabs_uphold start reached
  refine ⟨good.backed, ?_⟩
  intro number task balance held
  obtain ⟨known, knows, transaction, args, landed, orders, fulfils⟩ :=
    ended number task balance held
  obtain ⟨own, reads, committed⟩ := knows.told.landed transaction landed
  rw [orders] at reads
  obtain rfl := Option.some.inj reads
  exact ⟨args, committed, fulfils⟩

end Runs

/-! A `deposit` that all are willing to serve. -/
section Through
variable {poseidon2Permutation : Vector Field 4 → Vector Field 4} {config : Config}
  {verifier : List UInt8 → Bool} {deployment : Deployment} {weather : Weather} {task : Task}
  {draft : Draft}

/-- A weather with the draws of the task that goes no further than the signature. -/
structure Calm (weather : Weather) (task : Task) : Prop where
  drawn : ∀ draw, weather.answers (.randomBytes draw) = .ok (task.draw draw)
  unsent : ∀ transaction, ∃ failure, weather.send transaction = .error failure
  unconfirmed : ∀ signature latest, ∃ failure,
    weather.answers (.confirmTransaction signature latest) = .error failure
  unread : ∃ failure, weather.readFails = some failure
  unwritten : ∃ failure, weather.writeFails = some failure

theorem calm_answers (calm : Calm weather task) (system : System deployment) (request : Request)
    (browser : DepositClient.Browser) :
    Answers task system request (serve weather request browser).1 system := by
  cases request with
  | remote call =>
      change Answers task system (.remote call) (weather.answers call) system
      cases call with
      | confirmTransaction signature latest =>
          obtain ⟨failure, expired⟩ := calm.unconfirmed signature latest
          rw [expired]
          exact Answers.asked signature latest _ (.expired failure)
      | randomBytes draw =>
          rw [calm.drawn draw]
          exact Answers.drawn draw
      | _ => exact Answers.elsewhere _ _ nofun nofun
  | sendRawTransaction transaction =>
      obtain ⟨failure, refused⟩ := calm.unsent transaction
      rw [serve, refused]
      exact Answers.sent transaction _ _ (.refused failure)
  | getItem =>
      obtain ⟨failure, unread⟩ := calm.unread
      rw [serve, unread]
      exact Answers.unread failure
  | setItem notes =>
      obtain ⟨failure, unwritten⟩ := calm.unwritten
      rw [serve, unwritten]
      exact Answers.unwritten notes failure

/-- A deposit that is signed and that the program takes comes to its end, and its note is
stored. -/
theorem deposit_goes_through {system : System deployment}
    {sessions : Nat → Option (Task × Flow Nat)} {number : Nat}
    (signs : Signs poseidon2Permutation weather config task.amount draft)
    (calm : Calm weather task)
    (free : sessions number = none) {signature : String}
    (own : system.network.Own signature draft.transaction) {clock : Option Int64}
    {tx : Transaction deployment}
    (read : Issuance.received deployment clock draft.transaction = some tx) {after : Chain}
    (taken : process verifier deployment system.chain tx = .ok after) (id : String)
    (lamports : Nat) :
    ∃ final, Reachable (Step (tabs poseidon2Permutation config verifier deployment))
        (fun _ _ => True) ⟨system, sessions⟩ final ∧
      final.sessions number = some (task, .done (.ok lamports)) ∧
      final.state.chain = after ∧ final.state.item =
        some (NotesStore.getDepositNotes system.item ++ [noteOf draft id config.now]) := by
  obtain ⟨chain, history, item, network⟩ := system
  have begun : Reachable (Step (tabs poseidon2Permutation config verifier deployment))
      (fun _ _ => True) ⟨⟨chain, history, item, network⟩, sessions⟩ _ :=
    Reachable.start.next trivial (Step.begin number task free)
  have served : ∀ request ∈ trace (serve weather) (prepare poseidon2Permutation config task.amount)
      ⟨.absent, []⟩, ∀ browser,
      (tabs poseidon2Permutation config verifier deployment).answers ⟨chain, history, item, network⟩
        task request (serve weather request browser).1 ⟨chain, history, item, network⟩ :=
    fun request _ browser => calm_answers calm _ request browser
  have prepared := script_goes_on (signs_prepare signs ⟨.absent, []⟩).run served
    (fun draft => submit config draft >>= fun _ => remote (.balance draft.transaction.payer))
    number sessions
  have signed := reachable_trans begun prepared
  have sent := signed.next trivial (Step.reply number _ _ _ _ _ (Function.update_self ..)
    (Answers.sent draft.transaction _ _ (.accepted signature own)))
  have landed := sent.next trivial (Step.move _ _ (Moves.land signature draft.transaction clock tx
    after (Function.update_self ..) read taken))
  have confirmed := landed.next trivial (Step.reply number _ _ _ _ _ (Function.update_self ..)
    (Answers.asked signature draft.latest _ (.confirmed List.mem_cons_self)))
  have stamped := confirmed.next trivial (Step.reply number _ _ _ _ _ (Function.update_self ..)
    (Answers.elsewhere .randomUUID (.ok id) nofun nofun))
  have looked := stamped.next trivial (Step.reply number _ _ _ _ _ (Function.update_self ..)
    Answers.read)
  cases item with
  | none =>
      have saved := looked.next trivial (Step.reply number _ _ _ _ _ (Function.update_self ..)
        (Answers.written _))
      have ended := saved.next trivial (Step.reply number _ _ _ _ _ (Function.update_self ..)
        (Answers.elsewhere (.balance draft.transaction.payer) (.ok lamports) nofun nofun))
      exact ⟨_, ended, Function.update_self .., rfl, rfl⟩
  | some notes =>
      have saved := looked.next trivial (Step.reply number _ _ _ _ _ (Function.update_self ..)
        (Answers.written _))
      have ended := saved.next trivial (Step.reply number _ _ _ _ _ (Function.update_self ..)
        (Answers.elsewhere (.balance draft.transaction.payer) (.ok lamports) nofun nofun))
      exact ⟨_, ended, Function.update_self .., rfl, rfl⟩

end Through

/-! A pool that nobody has paid into yet, and one tab. -/
section Sample
open UsedNotes (freshPool)
open Verifier (sampleDeployment payer)

def sampleOpening : Field × Field := (7, 8)

def sampleAnswers : (call : Remote) → Except String call.Answer
  | .wallet => .ok (some ⟨payer, true⟩)
  | .root _ => .ok (.root (bytesToHex (bytesOf 9).toList))
  | call => BackendView.drawnAnswers sampleOpening call

def sampleWeather : Weather :=
  ⟨sampleAnswers, fun _ => .error "blocked", some "blocked", some "blocked"⟩

def sampleConfig : Config :=
  ⟨sampleDeployment.pool, sampleDeployment.poolVault, some 10_000_000, "0.01", 0⟩

def sampleComputed : CommitmentResult :=
  ⟨bytesOf (BackendView.leafOf id sampleOpening),
    bytesOf (Circuit.hash1 id sampleOpening.1)⟩

def sampleTransaction : DepositTransaction :=
  depositTransaction sampleConfig ⟨payer, true⟩ ⟨"", 0⟩ (depositDiscriminator ++
    (sampleComputed.commitment.toList ++ ((bytesOf 9).toList ++
      littleEndian 8 BackendView.sampleAmount)))

theorem sample_signs :
    ∃ draft, Signs id sampleWeather sampleConfig BackendView.sampleAmount draft ∧
      draft.transaction = sampleTransaction := by
  have unlisted : existingCommitments [] = some [] := by
    simp [existingCommitments]
  exact ⟨_, Signs.intro ⟨payer, true⟩ _ _ _ _ _ _ _ _ _ rfl rfl (by decide) rfl rfl rfl
    (BackendView.drawn_commitment id sampleOpening) rfl unlisted rfl (hex_round_trip _)
    (deposit_data_bytes ..) rfl rfl, rfl⟩

def sampleTask : Task :=
  ⟨BackendView.sampleAmount, bytesOf sampleOpening.1, bytesOf sampleOpening.2⟩

theorem sample_calm : Calm sampleWeather sampleTask := by
  refine ⟨?_, fun _ => ⟨_, rfl⟩, fun _ _ => ⟨_, rfl⟩, ⟨_, rfl⟩, ⟨_, rfl⟩⟩
  intro draw
  cases draw <;> rfl

theorem sample_taken :
    ((Issuance.received sampleDeployment (some 5) sampleTransaction).map fun tx =>
      (process (fun _ => true) sampleDeployment freshPool tx).isOk) = some true := by
  decide +kernel

theorem sample_note_issued :
    ∃ shared, Reachable (Step (tabs id sampleConfig (fun _ => true) sampleDeployment))
        (fun _ _ => True) (rested (opened sampleDeployment freshPool [] none)) shared ∧
      (∃ note, shared.state.item = some [note]) ∧ Backed id shared.state ∧
      ∃ args ∈ deposits shared.state.history, Fulfils id sampleTask args := by
  obtain ⟨tx, read, taken⟩ := Option.map_eq_some_iff.mp sample_taken
  obtain ⟨draft, signs, same⟩ := sample_signs
  cases committed : process (fun _ => true) sampleDeployment freshPool tx with
  | error refusal =>
      rw [committed] at taken
      cases taken
  | ok after =>
      let before : System sampleDeployment := opened sampleDeployment freshPool [] none
      have unsent : before.network.Own "" draft.transaction := nofun
      have free : (rested before : Shared (System sampleDeployment) Task Request Request.Answer
        String Nat).sessions 0 = none := rfl
      obtain ⟨final, reached, ended, _, item⟩ :=
        deposit_goes_through signs sample_calm free unsent (same ▸ read) committed "note" 0
      have empty : Backed id before := nofun
      obtain ⟨backed, paid⟩ := stored_notes_issued empty reached
      exact ⟨final, reached, ⟨_, item⟩, backed, paid 0 _ 0 ended⟩

end Sample

end PrivateTransfer.StoredNotes
