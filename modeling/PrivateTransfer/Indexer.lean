import PrivateTransfer.EventLog
import PrivateTransfer.TreeRecovery
import PrivateTransfer.UniqueTable

/-!
`backend/src/indexer.rs`: one tick of the indexer as a script over the RPC node,
the database, Redis and the tree. The node, the database and the merkle service
may fail as a tick's weather says; Redis keeps the cursor.
-/

namespace PrivateTransfer.Indexer

open EventLog MerkleService PoolState Script TreeRecovery

abbrev Signature := String

structure Config where
  indexerPageSize : Nat
  indexerMaxPages : Nat
  merkleTreeDepth : Nat

inductive Request where
  | getLastSignature
  | setLastSignature (signature : Signature)
  | getSignaturesForAddress (limit : Nat) (before : Option Signature)
  | getTransaction (signature : Signature)
  | commitmentExists (leafIndex : Int64)
  | saveDeposit (leafIndex : Int64) (commitment newRoot : Bytes32) (txSignature : Signature)
  | addLeaf (leafIndex : Nat) (commitment : Hex64) (depth : Nat)
  | recordDeposit (leafIndex : Int64) (root : Hex64)
  | recordTreeError (error : RedisTree.TreeError)
  | invalidatePool
  | isNullifierUsed (nullifierHash : Bytes32)
  | saveNullifier (nullifierHash : Bytes32) (recipient : Pubkey) (amount : Int64)
      (txSignature : Signature)

/-- A page without a `result` array and a transaction without log messages are `none`. -/
def Answer : Request → Type
  | .getLastSignature => Option Signature
  | .getSignaturesForAddress _ _ => Option (List Signature)
  | .getTransaction _ => Option (List String)
  | .commitmentExists _ | .isNullifierUsed _ => Bool
  | .addLeaf _ _ _ => Hex64
  | .setLastSignature _ | .saveDeposit _ _ _ _ | .recordDeposit _ _ | .recordTreeError _
  | .invalidatePool | .saveNullifier _ _ _ _ => Unit

inductive IndexerError where
  | rpc
  | database
  | redis
  | tree (error : RedisTree.TreeError)
  deriving DecidableEq

abbrev Work (Result : Type) := Program Request Answer IndexerError Result

section Requests

def getLastSignature : Work (Option Signature) := perform Request.getLastSignature

def setLastSignature (signature : Signature) : Work Unit :=
  perform (Request.setLastSignature signature)

def getSignaturesForAddress (limit : Nat) (before : Option Signature) :
    Work (Option (List Signature)) := perform (Request.getSignaturesForAddress limit before)

def getTransaction (signature : Signature) : Work (Option (List String)) :=
  perform (Request.getTransaction signature)

def commitmentExists (leafIndex : Int64) : Work Bool := perform (Request.commitmentExists leafIndex)

def saveDeposit (leafIndex : Int64) (commitment newRoot : Bytes32) (txSignature : Signature) :
    Work Unit := perform (Request.saveDeposit leafIndex commitment newRoot txSignature)

def addLeaf (leafIndex : Nat) (commitment : Hex64) (depth : Nat) : Work Hex64 :=
  perform (Request.addLeaf leafIndex commitment depth)

def recordDeposit (leafIndex : Int64) (root : Hex64) : Work Unit :=
  perform (Request.recordDeposit leafIndex root)

def recordTreeError (error : RedisTree.TreeError) : Work Unit :=
  perform (Request.recordTreeError error)

def invalidatePool : Work Unit := perform Request.invalidatePool

def isNullifierUsed (nullifierHash : Bytes32) : Work Bool :=
  perform (Request.isNullifierUsed nullifierHash)

def saveNullifier (nullifierHash : Bytes32) (recipient : Pubkey) (amount : Int64)
    (txSignature : Signature) : Work Unit :=
  perform (Request.saveNullifier nullifierHash recipient amount txSignature)

end Requests

section ProcessTransaction

/-- The match on the answer of `add_leaf`: a failure is logged and counted. -/
def reportLeaf (leafIndex : Int64) : Except IndexerError Hex64 → Work Unit
  | .ok root => recordDeposit leafIndex root
  | .error (.tree error) => recordTreeError error
  | .error _ => pure ()

def indexDeposit (config : Config) (signature : Signature) (leafIndex : Int64)
    (commitment newRoot : Bytes32) : Work Unit := do
  -- the row comes first and hides the leaf from every later attempt
  saveDeposit leafIndex commitment newRoot signature
  let added ← attempt
    (addLeaf leafIndex.toUInt64.toNat (hexEncode commitment) config.merkleTreeDepth)
  reportLeaf leafIndex added
  let _ ← attempt invalidatePool
  pure ()

def processLog (config : Config) (signature : Signature) (log : String) : Work Unit :=
  match parseLog log with
  | none => pure ()
  | some (.deposit leafIndex commitment newRoot) => do
      let known ← commitmentExists leafIndex
      if known then pure () else indexDeposit config signature leafIndex commitment newRoot
  | some (.withdraw nullifierHash recipient) => do
      let known ← isNullifierUsed nullifierHash
      if known then pure () else saveNullifier nullifierHash recipient 0 signature

/-- `for log in logs`. -/
def processLogs (config : Config) (signature : Signature) : List String → Work Unit
  | [] => pure ()
  | log :: rest => do
      processLog config signature log
      processLogs config signature rest

def processTransaction (config : Config) (signature : Signature) : Work Unit := do
  let logMessages ← getTransaction signature
  match logMessages with
  | none => pure ()
  | some logs => processLogs config signature logs

end ProcessTransaction

section Tick

/-- The inner loop over a page: what comes before the cursor, and whether it was met. -/
def scanPage (lastProcessed : Option Signature) : List Signature → List Signature × Bool
  | [] => ([], false)
  | signature :: rest =>
      if lastProcessed = some signature then ([], true)
      else (signature :: (scanPage lastProcessed rest).1, (scanPage lastProcessed rest).2)

/-- `for _page in 0..max_pages`. -/
def collect (config : Config) (lastProcessed : Option Signature) :
    (pages : Nat) → (before : Option Signature) → (allSigs : List Signature) →
      Work (List Signature)
  | 0, _, allSigs => pure allSigs
  | pages + 1, before, allSigs => do
      let answer ← getSignaturesForAddress config.indexerPageSize before
      let pageSigs := answer.getD []
      let scanned := scanPage lastProcessed pageSigs
      -- an RPC error has no `result` array and ends the pages like a chain without more
      if pageSigs.isEmpty then pure allSigs
      else if scanned.2 then pure (allSigs ++ scanned.1)
      else collect config lastProcessed pages pageSigs.getLast? (allSigs ++ scanned.1)

/-- The loop over the reversed signatures; a failed one is passed over. -/
def processAll (config : Config) :
    List Signature → (newest : Option Signature) → Work (Option Signature)
  | [], newest => pure newest
  | signature :: rest, newest => do
      let processed ← attempt (processTransaction config signature)
      match processed with
      | .error _ => processAll config rest newest
      | .ok _ => processAll config rest (some signature)

def advance : Option Signature → Work Unit
  | none => pure ()
  | some newest => do
      let _ ← attempt (setLastSignature newest)
      pure ()

def tick (config : Config) : Work Unit := do
  -- `unwrap_or(None)`: a cursor that cannot be read counts as none
  let cached ← attempt getLastSignature
  let lastProcessed := cached.toOption.getD none
  let allSigs ← collect config lastProcessed config.indexerMaxPages none []
  if allSigs.isEmpty then pure ()
  else do
    let newest ← processAll config allSigs.reverse none
    advance newest

end Tick

/-! The world a tick runs in. A line of the log is an event the program itself
emitted or anything else any program logged. -/
section World

inductive LogLine where
  | emitted (event : Event)
  | other (text : String)

def LogLine.text : LogLine → String
  | .emitted event => eventLine event
  | .other text => text

def LogLine.event? : LogLine → Option Event
  | .emitted event => some event
  | .other _ => none

/-- A transaction that mentions the pool. One that failed keeps its log. -/
structure Entry where
  signature : Signature
  succeeded : Bool
  logs : List LogLine

/-- The events of the program that took effect. -/
def Entry.events (entry : Entry) : List Event :=
  if entry.succeeded then entry.logs.filterMap LogLine.event? else []

/-- What the indexer reads out of the log. -/
def Entry.payloads (entry : Entry) : List Payload :=
  entry.logs.filterMap fun line => parseLog line.text

structure CommitmentRow where
  leafIndex : Int64
  commitment : Bytes32
  txSignature : Signature

structure NullifierRow where
  nullifierHash : Bytes32
  recipient : Pubkey
  amount : Int64
  txSignature : Signature

structure Tables where
  commitments : UniqueTable CommitmentRow.leafIndex
  nullifiers : UniqueTable NullifierRow.nullifierHash

structure Backend where
  lastSignature : Option Signature
  tables : Tables
  tree : Host

/-- `refused` is a transport error, `empty` an RPC error in the body or no result. -/
inductive Fault where
  | refused
  | empty
  deriving DecidableEq

/-- The failures of one tick: of the `n`-th page, of a transaction and of the
`n`-th query of the database, and the answers of the merkle service. -/
structure Weather where
  page : Nat → Option Fault
  transaction : Signature → Option Fault
  database : Nat → Bool
  answers : HashService

/-- The backend during a tick, with what the tick has asked and reported so far. -/
structure Session where
  backend : Backend
  pages : Nat
  queries : Nat
  asked : List Signature
  reported : List (Int64 × Hex64)

/-- Newest first, at most `limit` signatures, those behind `before` if it is given. -/
def signaturesFor (history : List Entry) (limit : Nat) (before : Option Signature) :
    List Signature :=
  let newest := (history.map Entry.signature).reverse
  match before with
  | none => newest.take limit
  | some signature => ((newest.dropWhile (· ≠ signature)).drop 1).take limit

def logsOf (history : List Entry) (signature : Signature) : Option (List String) :=
  (history.find? (·.signature == signature)).map fun entry => entry.logs.map LogLine.text

def rpcAnswer {Value : Type} (fault : Option Fault) (value : Option Value) :
    Except IndexerError (Option Value) :=
  match fault with
  | none => .ok value
  | some .empty => .ok none
  | some .refused => .error .rpc

variable (history : List Entry) (weather : Weather)

def serve : (request : Request) → Session → Except IndexerError (Answer request) × Session
  | .getLastSignature, session => (.ok session.backend.lastSignature, session)
  | .setLastSignature signature, session =>
      (.ok (), { session with
        backend := { session.backend with lastSignature := some signature } })
  | .getSignaturesForAddress limit before, session =>
      (rpcAnswer (weather.page session.pages) (some (signaturesFor history limit before)),
        { session with pages := session.pages + 1 })
  | .getTransaction signature, session =>
      (rpcAnswer (weather.transaction signature) (logsOf history signature),
        { session with asked := session.asked ++ [signature] })
  | .commitmentExists leafIndex, session =>
      (if weather.database session.queries then .error .database
        else .ok (session.backend.tables.commitments.has leafIndex),
        { session with queries := session.queries + 1 })
  | .isNullifierUsed nullifierHash, session =>
      (if weather.database session.queries then .error .database
        else .ok (session.backend.tables.nullifiers.has nullifierHash),
        { session with queries := session.queries + 1 })
  | .saveDeposit leafIndex commitment _ txSignature, session =>
      if weather.database session.queries then
        (.error .database, { session with queries := session.queries + 1 })
      else
        let commitments := session.backend.tables.commitments.insert
          { leafIndex, commitment, txSignature }
        (.ok (), { session with
          queries := session.queries + 1
          backend := { session.backend with
            tables := { session.backend.tables with commitments } } })
  | .saveNullifier nullifierHash recipient amount txSignature, session =>
      if weather.database session.queries then
        (.error .database, { session with queries := session.queries + 1 })
      else
        let nullifiers := session.backend.tables.nullifiers.insert
          { nullifierHash, recipient, amount, txSignature }
        (.ok (), { session with
          queries := session.queries + 1
          backend := { session.backend with
            tables := { session.backend.tables with nullifiers } } })
  | .addLeaf leafIndex commitment depth, session =>
      let added := run (serveHost weather.answers) (RedisTree.addLeaf leafIndex commitment depth)
        session.backend.tree
      (added.1.mapError .tree, { session with backend := { session.backend with tree := added.2 } })
  | .recordDeposit leafIndex root, session =>
      (.ok (), { session with reported := session.reported ++ [(leafIndex, root)] })
  | .recordTreeError _, session => (.ok (), session)
  | .invalidatePool, session => (.ok (), session)

/-- One tick on the transactions that mention the pool so far. -/
def runTick (config : Config) (backend : Backend) : Session :=
  (run (serve history weather) (tick config) ⟨backend, 0, 0, [], []⟩).2

end World

end PrivateTransfer.Indexer
