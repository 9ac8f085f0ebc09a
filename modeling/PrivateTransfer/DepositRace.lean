import PrivateTransfer.Backing
import PrivateTransfer.CanonicalLeaves
import PrivateTransfer.ClientHex
import PrivateTransfer.Interleaving

/-!
Several depositors, the pool program, the backend and the merkle service, with
every step of theirs in any order. A client fixes the new root from the list it
was answered; the program takes that root and gives out the leaf index later,
without comparing the two.
-/

namespace PrivateTransfer.DepositRace

open ClientHex Indexer MerkleService PoolProgram PoolRuns PoolState TreeRecovery

/-- All services up, and a backend that starts on an empty pool. -/
structure Services (poseidon2Permutation : Vector Field 4 → Vector Field 4) where
  weather : Weather
  config : Config
  start : Session
  answers : ∀ n left right,
    weather.answers n left right = .ok (hashHex poseidon2Permutation left right)
  up : ∀ n, weather.database n = false
  depth : config.merkleTreeDepth = treeDepth
  ready : Ready (hashHex poseidon2Permutation) config.merkleTreeDepth start

/-- How far a client is in `deposit`. -/
inductive Client where
  | idle
  | chosen (commitment : Bytes32) (amount : UInt64)
  | listed (commitment : Bytes32) (amount : UInt64) (existing : List Hex64)
  | ready (existing : List Hex64) (args : DepositArgs)

/-- The ledger with what committed on it, the events the indexer has processed, the
cached answer of `/api/commitments`, the answers still to be cached, and the clients. -/
structure System (deployment : Deployment) where
  chain : PoolProgram.Chain
  history : List (Transaction deployment)
  found : List Found
  cache : Option (List Hex64)
  filling : List (List Hex64)
  clients : Nat → Client

inductive Action (deployment : Deployment) where
  | choose (client : Nat) (commitment : Bytes32) (amount : UInt64)
  | listCached (client : Nat)
  | listDatabase (client : Nat)
  | root (client : Nat) (newRoot : Bytes32)
  | submit (client : Nat) (tx : Transaction deployment)
  | abandon (client : Nat)
  | other (tx : Transaction deployment)
  | fill (response : List Hex64)
  | expire
  | index (txSignature : Signature)

section Steps
variable {poseidon2Permutation : Vector Field 4 → Vector Field 4}
  (services : Services poseidon2Permutation) (verifier : List UInt8 → Bool)
  {deployment : Deployment}

def backend (found : List Found) : Backend :=
  (indexEvents [] services.weather services.config services.start found).backend

def System.setClient (system : System deployment) (client : Nat) (state : Client) :
    System deployment :=
  { system with clients := Function.update system.clients client state }

/-- One step of one party. The merkle service answers with the root of the list it is
sent, and the indexer takes the events of the ledger in order. -/
inductive Step (system : System deployment) : Action deployment → System deployment → Prop
  | choose (client : Nat) (commitment : Bytes32) (amount : UInt64)
      (free : system.clients client = .idle) :
      Step system (.choose client commitment amount)
        (system.setClient client (.chosen commitment amount))
  | listCached (client : Nat) (commitment : Bytes32) (amount : UInt64) (response : List Hex64)
      (waits : system.clients client = .chosen commitment amount)
      (cached : system.cache = some response) :
      Step system (.listCached client)
        (system.setClient client (.listed commitment amount response))
  | listDatabase (client : Nat) (commitment : Bytes32) (amount : UInt64)
      (waits : system.clients client = .chosen commitment amount) (missed : system.cache = none) :
      Step system (.listDatabase client)
        { system.setClient client
            (.listed commitment amount (dbLeaves (backend services system.found).tables)) with
          filling := dbLeaves (backend services system.found).tables :: system.filling }
  | root (client : Nat) (commitment : Bytes32) (amount : UInt64) (existing : List Hex64)
      (tree : MerkleService.Tree Hex64) (root : Hex64) (newRoot : Bytes32)
      (waits : system.clients client = .listed commitment amount existing)
      (built : buildTree (answering (hashHex poseidon2Permutation))
        (existing ++ [hexEncode commitment]) serverTreeDepth = .ok tree)
      (rooted : tree.root = some root) (read : hexToBytes root.text = some newRoot.toList) :
      Step system (.root client newRoot)
        (system.setClient client (.ready existing { commitment, newRoot, amount }))
  | submit (client : Nat) (tx : Transaction deployment) (existing : List Hex64)
      (args : DepositArgs) (next : PoolProgram.Chain)
      (waits : system.clients client = .ready existing args) (sent : depositOf tx = some args)
      (committed : process verifier deployment system.chain tx = .ok next) :
      Step system (.submit client tx)
        { system.setClient client .idle with chain := next, history := system.history ++ [tx] }
  | abandon (client : Nat) : Step system (.abandon client) (system.setClient client .idle)
  | other (tx : Transaction deployment) (next : PoolProgram.Chain) (apart : depositOf tx = none)
      (committed : process verifier deployment system.chain tx = .ok next) :
      Step system (.other tx) { system with chain := next, history := system.history ++ [tx] }
  | fill (response : List Hex64) (front back : List (List Hex64))
      (pending : system.filling = front ++ response :: back) :
      Step system (.fill response)
        { system with cache := some response, filling := front ++ back }
  | expire : Step system .expire { system with cache := none }
  | index (txSignature : Signature) (event : DepositEvent)
      (next : (Accounting.depositEvents system.chain.log)[system.found.length]? = some event) :
      Step system (.index txSignature)
        { system with found := system.found ++ [(txSignature, event)], cache := none }

/-- Nobody has deposited and nothing has been read. -/
def initial (launch : Launch verifier deployment) : System deployment where
  chain := launch.started
  history := []
  found := []
  cache := none
  filling := []
  clients := fun _ => .idle

/-- What is reached by steps that meet a condition. -/
def Reachable (launch : Launch verifier deployment)
    (allowed : System deployment → Action deployment → Prop) : System deployment → Prop :=
  Interleaving.Reachable (Step services verifier) allowed (initial verifier launch)

/-- The accepted commitments, in leaf order. -/
def accepted (system : System deployment) : List Hex64 :=
  (deposits system.history).map fun args => hexEncode args.commitment

/-- Once every accepted deposit has been indexed, the backend's root is known to the
pool, and the pool's current root is that of all accepted commitments. -/
def Consistent (system : System deployment) : Prop :=
  system.found.length = (deposits system.history).length →
    ∃ pool current root known, system.chain.pool = some pool ∧
      (backend services system.found).tree.store.root = some root ∧
      hexToBytes root.text = some known.toList ∧ pool.isKnownRoot known = true ∧
      pool.roots[pool.currentRootIndex.toNat]? = some current ∧
      hexEncode current =
        MerkleTree.root (hashHex poseidon2Permutation) emptyLeaf (accepted system) treeDepth

/-- The root that is submitted was made of the list of everything accepted so far. -/
def UpToDate (system : System deployment) : Action deployment → Prop
  | .submit client _ => ∀ existing args, system.clients client = .ready existing args →
      existing = accepted system
  | _ => True

end Steps

/-! Roots between hex and bytes. -/
section Roots
variable (poseidon2Permutation : Vector Field 4 → Vector Field 4)

theorem root_encoded (leaves : List Hex64) :
    ∃ root, MerkleTree.root (hashHex poseidon2Permutation) emptyLeaf leaves treeDepth =
      hexEncode root := by
  rw [MerkleTree.root, treeDepth, MerkleTree.node_succ]
  exact ⟨_, rfl⟩

theorem read_encoded {bytes known : Bytes32}
    (read : hexToBytes (hexEncode bytes).text = some known.toList) : known = bytes := by
  rw [hex_encode_text, hex_round_trip] at read
  exact (Vector.toList_inj.mp (Option.some.inj read)).symm

/-- The root a client submits is that of the list it was answered and its own commitment. -/
theorem fetched_root {leaves : List Hex64} {tree : MerkleService.Tree Hex64} {root : Hex64}
    {newRoot : Bytes32}
    (built : buildTree (answering (hashHex poseidon2Permutation)) leaves serverTreeDepth = .ok tree)
    (rooted : tree.root = some root) (read : hexToBytes root.text = some newRoot.toList) :
    hexEncode newRoot =
      MerkleTree.root (hashHex poseidon2Permutation) emptyLeaf leaves treeDepth := by
  have nodes := build_tree_nodes (hashHex poseidon2Permutation) leaves
    (show serverTreeDepth ≤ 30 by decide)
  have top := congrArg MerkleService.Tree.root (Except.ok.inj (built.symm.trans nodes))
  obtain ⟨bytes, encoded⟩ := root_encoded poseidon2Permutation leaves
  have same : root = hexEncode bytes := (Option.some.inj (rooted.symm.trans top)).trans encoded
  rw [same] at read
  rw [read_encoded read, encoded]

end Roots

/-! What every step keeps, as long as the roots are up to date. -/
section Invariant
variable {poseidon2Permutation : Vector Field 4 → Vector Field 4}
  {services : Services poseidon2Permutation} {verifier : List UInt8 → Bool}
  {deployment : Deployment} {launch : Launch verifier deployment}

/-- A transaction only appends to the log. -/
theorem log_grows {before after : PoolProgram.Chain} {tx : Transaction deployment}
    (committed : process verifier deployment before tx = .ok after) :
    Accounting.depositEvents before.log <+: Accounting.depositEvents after.log := by
  have appended : before.log <+: after.log := by
    cases process_step committed with
    | pool => exact List.prefix_refl _
    | deposit => exact List.prefix_append _ _
    | withdraw => exact List.prefix_append _ _
    | transfer => exact List.prefix_refl _
  exact appended.filterMap _

structure Sound (launch : Launch verifier deployment)
    (poseidon2Permutation : Vector Field 4 → Vector Field 4) (system : System deployment) :
    Prop where
  trace : Runs.Trace (process verifier deployment) launch.started system.history system.chain
  indexed : system.found.map Prod.snd <+: Accounting.depositEvents system.chain.log
  rooted : ∀ front args, deposits system.history = front ++ [args] → hexEncode args.newRoot =
    MerkleTree.root (hashHex poseidon2Permutation) emptyLeaf (accepted system) treeDepth
  clients : ∀ client existing args, system.clients client = .ready existing args →
    hexEncode args.newRoot = MerkleTree.root (hashHex poseidon2Permutation) emptyLeaf
      (existing ++ [hexEncode args.commitment]) treeDepth

theorem initial_sound (launch : Launch verifier deployment) :
    Sound launch poseidon2Permutation (initial verifier launch) := by
  constructor
  · exact Runs.Trace.none
  · exact List.nil_prefix
  · intro front args last
    exact absurd last (by simp [initial, deposits])
  · intro client existing args ready
    cases ready

/-- A step of one client leaves the others as they were. -/
theorem sound_client {system : System deployment} (sound : Sound launch poseidon2Permutation system)
    (client : Nat) (state : Client)
    (kept : ∀ existing args, state = .ready existing args → hexEncode args.newRoot =
      MerkleTree.root (hashHex poseidon2Permutation) emptyLeaf
        (existing ++ [hexEncode args.commitment]) treeDepth) :
    Sound launch poseidon2Permutation (system.setClient client state) := by
  refine ⟨sound.trace, sound.indexed, sound.rooted, ?_⟩
  refine (Function.forall_update_iff _ fun _ (state : Client) => ∀ existing args,
    state = .ready existing args → hexEncode args.newRoot = MerkleTree.root
      (hashHex poseidon2Permutation) emptyLeaf
      (existing ++ [hexEncode args.commitment]) treeDepth).mpr ⟨kept, ?_⟩
  exact fun other _ => sound.clients other

/-- The indexer has read exactly this deposit next. -/
theorem index_prefix {system : System deployment} {txSignature : Signature} {event : DepositEvent}
    (indexed : system.found.map Prod.snd <+: Accounting.depositEvents system.chain.log)
    (next : (Accounting.depositEvents system.chain.log)[system.found.length]? = some event) :
    (system.found ++ [(txSignature, event)]).map Prod.snd <+:
      Accounting.depositEvents system.chain.log := by
  obtain ⟨rest, whole⟩ := indexed
  rw [← whole, List.getElem?_append_right (by rw [List.length_map]), List.length_map,
    Nat.sub_self] at next
  cases rest with
  | nil => cases next
  | cons first rest =>
      cases next
      refine ⟨rest, ?_⟩
      rw [← whole, List.map_append, List.append_assoc]
      rfl

theorem step_sound {before after : System deployment} {action : Action deployment}
    (sound : Sound launch poseidon2Permutation before) (allowed : UpToDate before action)
    (step : Step services verifier before action after) :
    Sound launch poseidon2Permutation after := by
  cases step with
  | choose client commitment amount free => exact sound_client sound _ _ nofun
  | listCached client commitment amount response waits cached => exact sound_client sound _ _ nofun
  | listDatabase client commitment amount waits missed =>
      have listed := sound_client sound client (.listed commitment amount
        (dbLeaves (backend services before.found).tables)) nofun
      exact ⟨listed.trace, listed.indexed, listed.rooted, listed.clients⟩
  | root client commitment amount existing tree root newRoot waits built rooted read =>
      refine sound_client sound _ _ ?_
      rintro _ _ ⟨⟩
      exact fetched_root poseidon2Permutation built rooted read
  | submit client tx existing args next waits sent committed =>
      have freed := sound_client sound client .idle nofun
      refine ⟨freed.trace.snoc committed, freed.indexed.trans (log_grows committed), ?_,
        freed.clients⟩
      intro front last split
      have extended := deposits_snoc before.history sent
      obtain ⟨_, same⟩ := List.append_inj' (extended.symm.trans split) rfl
      cases List.singleton_inj.mp same
      -- the list the root was made of is the one this commitment is appended to
      have fetched := sound.clients client existing args waits
      rw [allowed existing args waits] at fetched
      rw [fetched, accepted, accepted, extended, List.map_append]
      rfl
  | abandon client => exact sound_client sound _ _ nofun
  | other tx next apart committed =>
      have same := deposits_snoc_other before.history apart
      refine ⟨sound.trace.snoc committed, sound.indexed.trans (log_grows committed), ?_,
        sound.clients⟩
      intro front last split
      have rooted := sound.rooted front last (same.symm.trans split)
      rwa [accepted, same]
  | fill response front back pending =>
      exact ⟨sound.trace, sound.indexed, sound.rooted, sound.clients⟩
  | expire => exact ⟨sound.trace, sound.indexed, sound.rooted, sound.clients⟩
  | index txSignature event next =>
      exact ⟨sound.trace, index_prefix sound.indexed next, sound.rooted, sound.clients⟩

theorem reachable_sound {system : System deployment}
    (reached : Reachable services verifier launch UpToDate system) :
    Sound launch poseidon2Permutation system :=
  Interleaving.reachable_invariant (initial_sound launch)
    (fun _ _ _ sound allowed step => step_sound sound allowed step) reached

/-- With every hash answered, the tree holds what has been indexed. -/
theorem backend_tree (services : Services poseidon2Permutation) {found : List Found}
    (consecutive : Consecutive found) :
    (backend services found).tree.store.root = some
      (MerkleTree.root (hashHex poseidon2Permutation) emptyLeaf (leaves found) treeDepth) := by
  have honest : Honest (hashHex poseidon2Permutation) services.weather.answers :=
    fun n left right => Or.inr (services.answers n left right)
  have answered : ∀ k < found.length, AnswersLeaf (hashHex poseidon2Permutation)
      services.weather.answers services.config.merkleTreeDepth found
      services.start.backend.tree.hashed k := fun k _ j _ => ⟨_, services.answers _ _ _⟩
  have grown := index_events_grown [] services.config honest services.up services.ready consecutive
    found.length (Nat.le_refl _) answered
  have whole := grown.whole.root
  rwa [List.take_length, services.depth] at whole

theorem sound_consistent {system : System deployment}
    (sound : Sound launch poseidon2Permutation system) (begun : deposits system.history ≠ []) :
    Consistent services system := by
  intro all
  obtain ⟨front, args, last⟩ := List.eq_nil_or_concat (deposits system.history)
    |>.resolve_left begun
  rw [List.concat_eq_append] at last
  obtain ⟨pool, stored, follows⟩ := trace_follows launch sound.trace
  have logged := Accounting.trace_log launch sound.trace
  -- everything in the log has been processed
  have found : FoundIn system.chain.log system.found := by
    refine sound.indexed.eq_of_length ?_
    have size := congrArg List.length logged.contents
    rw [List.length_map, List.length_map] at size
    rw [List.length_map, all, size]
  have same : leaves system.found = accepted system := by
    have commitments := congrArg (List.map hexEncode) (found_commitments logged found)
    rwa [List.map_map, List.map_map] at commitments
  have pushed : pushedRoots system.history = front.map DepositArgs.newRoot ++ [args.newRoot] := by
    rw [pushedRoots, last, List.map_append]
    rfl
  have current := current_root follows.rooted
  have newest : (emptyRoot :: pushedRoots system.history).getLast (by simp) = args.newRoot := by
    simp [pushed]
  rw [newest] at current
  have top := backend_tree services (found_consecutive logged found)
  rw [same, ← sound.rooted front args last] at top
  refine ⟨pool, args.newRoot, hexEncode args.newRoot, args.newRoot, stored, top, ?_, ?_, current,
    sound.rooted front args last⟩
  · rw [hex_encode_text, hex_round_trip]
  · rw [known_root_iff]
    exact Vector.mem_of_getElem? current

/-- In every interleaving in which each submitted root was made of all the commitments
accepted before it, the depositors do not get in each other's way, from the first
accepted deposit on. -/
theorem up_to_date_consistent (services : Services poseidon2Permutation)
    (launch : Launch verifier deployment) (system : System deployment)
    (reached : Reachable services verifier launch UpToDate system)
    (begun : deposits system.history ≠ []) : Consistent services system :=
  sound_consistent (reachable_sound reached) begun

end Invariant

/-! Two depositors on the sample deployment, one after the other and at once. -/
section Samples
open Poseidon2 Verifier Backing

def sampleServices : Services poseidon2Permutation where
  weather := calmWeather
  config := ⟨10, 1, 20⟩
  start := initialised
  answers := fun _ _ _ => rfl
  up := fun _ => rfl
  depth := rfl
  ready := initialised_ready

/-- A client that was answered these commitments can submit the root over them and its own. -/
theorem root_step {verifier : List UInt8 → Bool} {system : System sampleDeployment}
    (client : Nat) (commitment : Field) (amount : UInt64) (existing : List Field)
    {newRoot : Bytes32}
    (waits : system.clients client =
      .listed (bytesOf commitment) amount (existing.map hexOf))
    (rooted : fieldOf newRoot = MerkleTree.root (Circuit.hash2 poseidon2Permutation) 0
      (existing ++ [commitment]) treeDepth)
    (canonical : bytesOf (fieldOf newRoot) = newRoot) :
    Step sampleServices verifier system (.root client newRoot)
      (system.setClient client (.ready (existing.map hexOf)
        ⟨bytesOf commitment, newRoot, amount⟩)) := by
  have nodes := build_tree_nodes (hashHex poseidon2Permutation)
    (existing.map hexOf ++ [hexEncode (bytesOf commitment)]) (show serverTreeDepth ≤ 30 by decide)
  refine Step.root client _ amount _ _ (hexEncode newRoot) newRoot waits nodes ?_ ?_
  · have whole : existing.map hexOf ++ [hexEncode (bytesOf commitment)] =
        (existing ++ [commitment]).map hexOf := by
      rw [List.map_append]
      rfl
    rw [whole, ← canonical, rooted]
    exact congrArg some (hash_hex_root poseidon2Permutation (existing ++ [commitment]) 19)
  · rw [hex_encode_text, hex_round_trip]

theorem submits_up_to_date {system : System sampleDeployment} {existing : List Hex64}
    {args : DepositArgs} (client : Nat) (tx : Transaction sampleDeployment)
    (waits : system.clients client = .ready existing args) (same : existing = accepted system) :
    UpToDate system (.submit client tx) := by
  intro listed submitted ready
  cases waits.symm.trans ready
  exact same

/-- The tree of the second depositor alone. -/
def lateValues : List Field :=
  [0x220c4df2359364a5a2a7d17b84afc9ea9f295ea0b1f09af832e23c12aaa24dc0,
   0x0b503b16f2eee15fc55299a365915654e255c2f1e8de0bb8e4e30780006ef29f,
   0x187ad0eb0fa7e7020b1ebdebf879f1478c5f9fe5fc9d3160277a1622830b07c5,
   0x0ea737c11a604c7d0ef05795d54e4b91be698056eecf781b94f11a9f0c0b0442,
   0x10bc59c1f7d8031a92d51972cd56c00a99478e8f23601ac11ff1a60e609b36fb,
   0x188a7fccace0c0b8954e0a6bbc2b742e8f1bf7333fdf6246b7d838408f3786a2,
   0x17cb71894b978030d54ee4767dc6e0231ac586a14a22542eebb89973ebdf2dbf,
   0x16b1d46ce1777874633b340e1e83ac977d3f73dea8c4184b89ff8b8c34ef7b52,
   0x2df71095a9bf964c0f1da209376e492aa0d5fd9ff254fe680e5d6a4fc2e40415,
   0x013a2713f5ca02259683d9168b679eaebb0d6ca98874c4488572aaddaf0d1a21,
   0x2423992b39f0aca543704711d38acc8a1c571d184297f05f6b95a836ee6e1fda,
   0x060dffc2736100d842cffd08deb0e583b1ba8ae0795e1f839bde36d4c6d204f8,
   0x20fb8913babe2088bb1695531ed967474dca8d2fe51527e14299e5a901f1bc50,
   0x28ee7414512dccdee90b24abb423ea0363c98ad299b7ba54efb16dfcd95bdb52,
   0x193a62320e97a5f0d7b46a959b92c0e6564f12fff10c097d7315a5b38bf33b83,
   0x17be89afe4cbfc68f960efce78b482a3c3418c047440383365951b96cbf2766e,
   0x0782136b9011ccabe2062870161be95f0297d924a0c7d6a8ee88515e948c4b36,
   0x2989c3435c286cf48b63efd19e9c4f55d2c388e5dc16e83b52d5213f2ff090a2,
   0x2ba2c7f07992febb056cdbf80c66692b257b57919cf2b5c3c2a8bf2babddea35,
   0x289db2a34867d7c4da405592946beb28da85fd60bca22d00d3803bf4a9fa6844]

theorem late_values :
    MerkleTree.climbsBy (Circuit.hash2 poseidon2Permutation) otherCommitment leftPath lateValues =
      true := by
  decide +kernel

def lateRoot : Bytes32 := bytesOf (lateValues.getLastD 0)

theorem late_root :
    fieldOf lateRoot =
      MerkleTree.root (Circuit.hash2 poseidon2Permutation) 0 [otherCommitment] treeDepth := by
  have single := Authenticity.single_root late_values
  exact (fieldOf_bytesOf _).trans single.symm

def lateDeposit : Transaction sampleDeployment :=
  sampleDeposit (bytesOf otherCommitment) lateRoot 2_000_000_000

def honestLaunch : Launch (fun _ => true) sampleDeployment := sampleLaunch fun _ => true

theorem racers_commit :
    Runs.allCommit (process (fun _ => true) sampleDeployment) honestLaunch.started
      [noteDeposit, lateDeposit] = true := by
  decide +kernel

def noteEvent : DepositEvent := ⟨bytesOf proverCommitment, 0, 1_700_000_000, proverRoot⟩

def lateEvent : DepositEvent := ⟨bytesOf otherCommitment, 1, 1_700_000_000, lateRoot⟩

theorem racers_log :
    Accounting.depositEvents (honestLaunch.run [noteDeposit]).log = [noteEvent] ∧
      Accounting.depositEvents (honestLaunch.run [noteDeposit, lateDeposit]).log =
        [noteEvent, lateEvent] := by
  decide +kernel

theorem alone_reached :
    ∃ system, Reachable sampleServices (fun _ => true) honestLaunch UpToDate system ∧
      system.history = [noteDeposit] ∧ system.found = [("first", noteEvent)] := by
  have committed := (Runs.all_commit_cons _ racers_commit).1
  have begun : Reachable sampleServices (fun _ => true) honestLaunch UpToDate _ := .start
  have chosen := Interleaving.Reachable.next begun (show UpToDate _ (.choose 0 _ _) from trivial)
    (Step.choose 0 (bytesOf proverCommitment) oneSol rfl)
  have listed := Interleaving.Reachable.next chosen (show UpToDate _ (.listDatabase 0) from trivial)
    (Step.listDatabase 0 _ _ rfl rfl)
  have fetched := Interleaving.Reachable.next listed (show UpToDate _ (.root 0 _) from trivial)
    (root_step 0 proverCommitment oneSol [] rfl Authenticity.note_root
      (congrArg bytesOf (fieldOf_bytesOf _)))
  have submitted := Interleaving.Reachable.next fetched (submits_up_to_date 0 noteDeposit rfl rfl)
    (Step.submit 0 noteDeposit _ _ _ rfl rfl committed)
  have next : (Accounting.depositEvents (honestLaunch.run [noteDeposit]).log)[0]? =
      some noteEvent := by
    rw [racers_log.1]
    rfl
  have indexed := Interleaving.Reachable.next submitted
    (show UpToDate _ (.index "first") from trivial) (Step.index "first" noteEvent next)
  exact ⟨_, indexed, rfl, rfl⟩

/-- A depositor on its own is consistent. -/
theorem alone_consistent :
    ∃ system, system.history = [noteDeposit] ∧ system.found.length = 1 ∧
      Consistent sampleServices system := by
  obtain ⟨system, reached, history, found⟩ := alone_reached
  refine ⟨system, history, congrArg List.length found, ?_⟩
  exact up_to_date_consistent sampleServices honestLaunch system reached (by rw [history]; nofun)

/-- Both clients are answered an empty list before either deposit is accepted. -/
theorem racers_reached :
    ∃ system, Reachable sampleServices (fun _ => true) honestLaunch (fun _ _ => True) system ∧
      system.history = [noteDeposit, lateDeposit] ∧
      system.chain = honestLaunch.run [noteDeposit, lateDeposit] ∧
      system.found.length = 2 := by
  obtain ⟨first, rest⟩ := Runs.all_commit_cons _ racers_commit
  have second := Runs.all_commit_singleton _ _ _ rest
  have begun : Reachable sampleServices (fun _ => true) honestLaunch (fun _ _ => True) _ := .start
  have chosen := Interleaving.Reachable.next begun trivial
    (Step.choose 0 (bytesOf proverCommitment) oneSol rfl)
  have joined := Interleaving.Reachable.next chosen trivial
    (Step.choose 1 (bytesOf otherCommitment) 2_000_000_000 rfl)
  have listed := Interleaving.Reachable.next joined trivial (Step.listDatabase 0 _ _ rfl rfl)
  have both := Interleaving.Reachable.next listed trivial (Step.listDatabase 1 _ _ rfl rfl)
  have fetched := Interleaving.Reachable.next both trivial
    (root_step 0 proverCommitment oneSol [] rfl Authenticity.note_root
      (congrArg bytesOf (fieldOf_bytesOf _)))
  have ready := Interleaving.Reachable.next fetched trivial
    (root_step 1 otherCommitment 2_000_000_000 [] rfl late_root
      (congrArg bytesOf (fieldOf_bytesOf _)))
  have submitted := Interleaving.Reachable.next ready trivial
    (Step.submit 0 noteDeposit _ _ _ rfl rfl first)
  have late := Interleaving.Reachable.next submitted trivial
    (Step.submit 1 lateDeposit _ _ _ rfl rfl second)
  have log : ∀ k : Nat, (Accounting.depositEvents
      (honestLaunch.run [noteDeposit, lateDeposit]).log)[k]? = [noteEvent, lateEvent][k]? := by
    rw [racers_log.2]
    exact fun _ => rfl
  have indexed := Interleaving.Reachable.next late trivial (Step.index "first" noteEvent (log 0))
  have both := Interleaving.Reachable.next indexed trivial
    (Step.index "second" lateEvent (log 1))
  exact ⟨_, both, rfl, rfl, rfl⟩

/-- Two deposits made of the same list leave the pool at the root of one of them. -/
theorem racers_inconsistent :
    ∃ system, Reachable sampleServices (fun _ => true) honestLaunch (fun _ _ => True) system ∧
      deposits system.history ≠ [] ∧ ¬ Consistent sampleServices system := by
  obtain ⟨system, reached, history, chain, found⟩ := racers_reached
  refine ⟨system, reached, by rw [history]; nofun, ?_⟩
  intro consistent
  obtain ⟨pool, current, _, _, stored, _, _, _, newest, rooted⟩ := consistent
    (by rw [found, history]; rfl)
  have kept : ((honestLaunch.run [noteDeposit, lateDeposit]).pool.bind fun pool =>
      pool.roots[pool.currentRootIndex.toNat]?) = some lateRoot := by
    decide +kernel
  rw [← chain, stored, Option.bind_some, newest] at kept
  cases kept
  -- the root of both leaves is not the one the pool took last
  have whole := hash_hex_root poseidon2Permutation [proverCommitment, otherCommitment] 19
  have same : accepted system = [proverCommitment, otherCommitment].map hexOf := by
    rw [accepted, history]
    rfl
  rw [same] at rooted
  have fields := (congrArg fieldOfHex (rooted.trans whole)).trans (fieldOfHex_hexOf _)
  have value : fieldOfHex (hexEncode lateRoot) = fieldOf lateRoot := by
    rw [fieldOfHex, hex_encode_value]
    rfl
  have clash : fieldOf lateRoot = fieldOf pairRoot :=
    value.symm.trans (fields.trans pair_root.symm)
  exact absurd clash (by decide +kernel)

end Samples

end PrivateTransfer.DepositRace
