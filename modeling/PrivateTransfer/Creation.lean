import PrivateTransfer.Acceptance

/-!
How a pool comes to be. Before it is created the program takes nothing but its creation,
which the pool page asks for as `generated/instructions/pool.ts` builds it; it is taken
once, and what follows is a run of the pool it created.
-/

namespace PrivateTransfer.Creation

open Acceptance PoolProgram PoolRuns PoolState

/-! The account as a summary of everything committed, from before there is one. -/
section Summary
variable {verifier : List UInt8 → Bool} {deployment : Deployment}

def creationOf (tx : Transaction deployment) : Option InitPool :=
  match tx.instruction with
  | .pool accounts => some accounts
  | _ => none

def creations (history : List (Transaction deployment)) : List InitPool :=
  history.filterMap creationOf

/-- The account summarises the history: not there before the one transaction that
creates it, and the deposits since. -/
def Summarises (history : List (Transaction deployment)) : Option PoolAcc → Prop
  | none => creations history = [] ∧ deposits history = [] ∧ withdrawals history = []
  | some pool => Follows history pool ∧
      ∃ accounts, creations history = [accounts] ∧ pool.authority = accounts.authority

theorem follows_created {history : List (Transaction deployment)} (empty : deposits history = [])
    (authority : Pubkey) : Follows history (handlerPool authority) := by
  have roots : pushedRoots history = [] := by rw [pushedRoots, empty, List.map_nil]
  constructor
  · rw [empty]
    rfl
  · rw [empty]
    rfl
  · rw [empty]
    exact Nat.zero_le _
  · rw [roots]
    refine ⟨rfl, ?_⟩
    have filled : RingBuffer.Holds (Vector.replicate rootHistorySize emptyRoot) _ :=
      RingBuffer.holds_fill emptyRoot
    simpa [handlerPool, rootHistory] using filled
  · rw [roots]
    exact List.isChain_singleton _

theorem next_authority {before : Chain} {tx : Transaction deployment} {accounts : InitDeposit}
    {args : DepositArgs} {pool next : PoolAcc} {lamports : Pubkey → Nat} {timestamp : Int64}
    (checked : Deposits before tx accounts args pool next lamports timestamp) :
    next.authority = pool.authority := by
  have pushed := checked.pushed
  simp only [PoolAcc.addRoot, bind_ok_iff, Except.ok.injEq] at pushed
  obtain ⟨_, _, rfl⟩ := pushed
  rfl

theorem step_summarises {history : List (Transaction deployment)} {before after : Chain}
    {tx : Transaction deployment} (summary : Summarises history before.pool)
    (step : Step verifier before tx after) : Summarises (history ++ [tx]) after.pool := by
  cases step with
  | pool accounts lamports called fresh signed rent =>
      rw [fresh] at summary
      obtain ⟨uncreated, empty, _⟩ := summary
      have other : depositOf tx = none := by rw [depositOf, called]
      have still : deposits (history ++ [tx]) = [] := by rw [deposits_snoc_other _ other, empty]
      refine ⟨follows_created still _, accounts, ?_, rfl⟩
      have created : creationOf tx = some accounts := by rw [creationOf, called]
      simp only [creations] at uncreated
      simp [creations, uncreated, created]
  | deposit accounts args pool next lamports timestamp called checked =>
      rw [checked.loaded] at summary
      obtain ⟨follows, creator, created, authority⟩ := summary
      refine ⟨follows_deposit follows called checked, creator, ?_, ?_⟩
      · simpa [creations, creationOf, called] using created
      · rw [next_authority checked, authority]
  | withdraw accounts args pool rented lamports timestamp called checked =>
      change Summarises _ before.pool
      rw [checked.loaded] at summary ⊢
      obtain ⟨follows, creator, created, authority⟩ := summary
      refine ⟨follows_other follows (by rw [depositOf, called]), creator, ?_, authority⟩
      simpa [creations, creationOf, called] using created
  | transfer sender receiver amount lamports called signed moved =>
      change Summarises _ before.pool
      cases stored : before.pool with
      | none =>
          rw [stored] at summary
          simpa [Summarises, creations, creationOf, deposits, depositOf, withdrawals,
            withdrawalOf, called] using summary
      | some pool =>
          rw [stored] at summary
          obtain ⟨follows, creator, created, authority⟩ := summary
          refine ⟨follows_other follows (by rw [depositOf, called]), creator, ?_, authority⟩
          simpa [creations, creationOf, called] using created

theorem trace_summarises {genesis chain : Chain} (unborn : genesis.pool = none)
    {history : List (Transaction deployment)}
    (trace : Runs.Trace (process verifier deployment) genesis history chain) :
    Summarises history chain.pool := by
  induction trace with
  | none =>
      rw [unborn]
      exact ⟨rfl, rfl, rfl⟩
  | snoc _ last ih => exact step_summarises ih (process_step last)

end Summary

/-! A run cut at the creation of its pool. -/
section Launching
variable {verifier : List UInt8 → Bool} {deployment : Deployment}

/-- The program has not run yet. -/
structure Unborn (chain : Chain) : Prop where
  pool : chain.pool = none
  records : ∀ nullifierHash, chain.records nullifierHash = none
  log : chain.log = []

/-- Nothing of the program's has committed. -/
structure Untouched (history : List (Transaction deployment)) : Prop where
  creations : creations history = []
  deposits : deposits history = []
  withdrawals : withdrawals history = []

/-- A history with the creation of a pool in it, before which the program was untouched
and after which comes a history of that pool. -/
structure Launched (verifier : List UInt8 → Bool) {deployment : Deployment} (genesis : Chain)
    (history : List (Transaction deployment)) (chain : Chain) where
  launch : Launch verifier deployment
  before : List (Transaction deployment)
  after : List (Transaction deployment)
  cut : history = before ++ launch.creation :: after
  untouched : Untouched before
  earlier : Runs.Trace (process verifier deployment) genesis before launch.genesis
  later : Runs.Trace (process verifier deployment) launch.started after chain

theorem untouched_snoc {history : List (Transaction deployment)} (untouched : Untouched history)
    {tx : Transaction deployment} {sender receiver : Pubkey} {amount : UInt64}
    (called : tx.instruction = .transfer sender receiver amount) :
    Untouched (history ++ [tx]) := by
  constructor
  · simpa [Creation.creations, creationOf, called] using untouched.creations
  · rw [deposits_snoc_other history (by rw [depositOf, called]), untouched.deposits]
  · rw [withdrawals_snoc_other history (by rw [withdrawalOf, called]), untouched.withdrawals]

/-- Without a pool the program takes its creation and nothing else. -/
theorem unborn_step {before after : Chain} {tx : Transaction deployment} (unborn : Unborn before)
    (step : Step verifier before tx after) :
    (∃ accounts, tx.instruction = .pool accounts) ∨
      ∃ sender receiver amount, tx.instruction = .transfer sender receiver amount ∧
        Unborn after := by
  cases step with
  | pool accounts lamports called fresh signed rent => exact Or.inl ⟨accounts, called⟩
  | deposit accounts args pool next lamports timestamp called checked =>
      exact absurd (unborn.pool.symm.trans checked.loaded) nofun
  | withdraw accounts args pool rented lamports timestamp called checked =>
      exact absurd (unborn.pool.symm.trans checked.loaded) nofun
  | transfer sender receiver amount lamports called signed moved =>
      exact Or.inr ⟨sender, receiver, amount, called, unborn.pool, unborn.records, unborn.log⟩

theorem trace_launched {genesis chain : Chain} (unborn : Unborn genesis)
    {history : List (Transaction deployment)}
    (trace : Runs.Trace (process verifier deployment) genesis history chain) :
    Unborn chain ∧ Untouched history ∨ Nonempty (Launched verifier genesis history chain) := by
  induction trace with
  | none => exact Or.inl ⟨unborn, rfl, rfl, rfl⟩
  | @snoc history before after tx earlier last ih =>
      rcases ih with ⟨still, untouched⟩ | ⟨⟨launch, front, back, cut, untouched, start, later⟩⟩
      · rcases unborn_step still (process_step last) with
          ⟨accounts, called⟩ | ⟨sender, receiver, amount, called, next⟩
        · -- the pool is created now
          right
          refine ⟨⟨⟨before, tx, accounts, after, still.pool, still.records, still.log, called,
            last⟩, history, [], rfl, untouched, earlier, .none⟩⟩
        · exact Or.inl ⟨next, untouched_snoc untouched called⟩
      · right
        refine ⟨⟨launch, front, back ++ [tx], ?_, untouched, start, later.snoc last⟩⟩
        rw [cut, List.append_assoc, List.cons_append]

end Launching

/-! The instruction of the page. -/
section Initializing

inductive AccountRole where
  | readonly
  | writable
  | readonlySigner
  | writableSigner
  deriving DecidableEq

structure AccountMeta where
  address : Pubkey
  role : AccountRole

/-- `acc.role === 2 || acc.role === 3`. -/
def AccountRole.isSigner (role : AccountRole) : Bool :=
  role == .readonlySigner || role == .writableSigner

/-- `acc.role === 1 || acc.role === 3`. -/
def AccountRole.isWritable (role : AccountRole) : Bool :=
  role == .writable || role == .writableSigner

variable (deployment : Deployment)

def getPoolInstructionAsync (authority : Pubkey) : List AccountMeta :=
  [⟨deployment.pool, .writable⟩, ⟨deployment.poolVault, .writable⟩,
    ⟨authority, .writableSigner⟩, ⟨systemProgramId, .readonly⟩]

/-- The wallet pays, and so signs and is written to whatever the instruction says. -/
def initializeTransaction (wallet : Pubkey) (unowned : wallet ≠ deployment.poolVault)
    (clock : Option Int64) (aborted : Bool) : Transaction deployment where
  signers := wallet :: ((getPoolInstructionAsync deployment wallet).filter fun key =>
    key.role.isSigner).map AccountMeta.address
  writable := wallet :: ((getPoolInstructionAsync deployment wallet).filter fun key =>
    key.role.isWritable).map AccountMeta.address
  clock := clock
  aborted := aborted
  instruction := .pool
    { pool := deployment.pool, poolVault := deployment.poolVault, authority := wallet,
      systemProgram := systemProgramId }
  vaultUnsigned := by
    simp [getPoolInstructionAsync, AccountRole.isSigner, unowned.symm]

end Initializing

section Once
variable {verifier : List UInt8 → Bool} {deployment : Deployment}

theorem trace_bounded {genesis chain : Chain} (bounded : Bounded genesis.lamports)
    {history : List (Transaction deployment)}
    (trace : Runs.Trace (process verifier deployment) genesis history chain) :
    Bounded chain.lamports := by
  induction trace with
  | none => exact bounded
  | snoc _ last ih => exact step_bounded ih (process_step last)

/-- The page's own transaction lacks nothing but the rent. -/
theorem initialize_ok_iff {chain : Chain} (bounded : Bounded chain.lamports) {wallet : Pubkey}
    (unowned : wallet ≠ deployment.poolVault) (clock : Option Int64) (aborted : Bool) :
    (∃ after, process verifier deployment chain
        (initializeTransaction deployment wallet unowned clock aborted) = .ok after) ↔
      aborted = false ∧ chain.pool = none ∧
        deployment.poolRent - chain.lamports deployment.pool ≤ chain.lamports wallet := by
  rw [← transfer_ok_iff bounded wallet deployment.pool]
  simp only [process, pool, initializeTransaction, getPoolInstructionAsync, createAccount, signer,
    mutable, seeds, programId, bind_ok_iff, require_ok_iff, beq_iff_eq, List.contains_iff_mem,
    Except.ok.injEq, Bool.not_eq_true', Option.isSome_eq_false_iff, Option.isNone_iff_eq_none]
  constructor
  · rintro ⟨_, _, unaborted, _, _, _, _, _, _, lamports, ⟨_, fresh, rent⟩, _⟩
    exact ⟨unaborted, fresh, lamports, rent⟩
  · rintro ⟨unaborted, fresh, lamports, rent⟩
    refine ⟨_, (), unaborted, (), List.mem_cons_self, (), trivial, (), trivial, lamports,
      ⟨(), fresh, rent⟩, (), ?_, (), trivial, (), ?_, (), List.mem_cons_self, rfl⟩
    · simp [AccountRole.isWritable]
    · simp [AccountRole.isWritable]

theorem summary_creations {history : List (Transaction deployment)} {pool : Option PoolAcc}
    (summary : Summarises history pool) :
    (creations history).length ≤ 1 ∧ (pool = none ↔ creations history = []) := by
  cases pool with
  | none => exact ⟨by rw [summary.1]; decide, fun _ => summary.1, fun _ => rfl⟩
  | some pool =>
      obtain ⟨_, accounts, created, _⟩ := summary
      rw [created]
      exact ⟨Nat.le_refl 1, nofun, nofun⟩

/-- After any run of anybody's transactions on a ledger the program has not run on, the
page's transaction creates the pool exactly if none has been created and the wallet has
the rent. At most one creation ever commits, its payer stays the authority, and what
commits is that creation, the program untouched before it, and a run of its pool. -/
theorem pool_created_once {genesis : Chain} (unborn : Unborn genesis)
    (bounded : Bounded genesis.lamports) {history : List (Transaction deployment)} {chain : Chain}
    (trace : Runs.Trace (process verifier deployment) genesis history chain) :
    (∀ (wallet : Pubkey) (unowned : wallet ≠ deployment.poolVault) (clock : Option Int64)
        (aborted : Bool),
      (∃ after, process verifier deployment chain
          (initializeTransaction deployment wallet unowned clock aborted) = .ok after) ↔
        aborted = false ∧ creations history = [] ∧
          deployment.poolRent - chain.lamports deployment.pool ≤ chain.lamports wallet) ∧
    (creations history).length ≤ 1 ∧
    (∀ pool, chain.pool = some pool →
      ∃ accounts ∈ creations history, pool.authority = accounts.authority) ∧
    (Untouched history ∧ Unborn chain ∨ Nonempty (Launched verifier genesis history chain)) := by
  have summary := trace_summarises unborn.pool trace
  obtain ⟨once, absent⟩ := summary_creations summary
  refine ⟨?_, once, ?_, ?_⟩
  · intro wallet unowned clock aborted
    rw [initialize_ok_iff (trace_bounded bounded trace), absent]
  · intro pool stored
    rw [stored] at summary
    obtain ⟨_, accounts, created, authority⟩ := summary
    exact ⟨accounts, by rw [created]; exact List.mem_singleton_self accounts, authority⟩
  · exact (trace_launched unborn trace).imp_left And.symm

end Once

/-! The pool of the sample deployment: its payer can create it, and nobody can afterwards. -/
section Sample
open Verifier

theorem sample_created_once :
    (∃ after, process (fun _ => true) sampleDeployment sampleGenesis
      (initializeTransaction sampleDeployment payer (by decide) (some 0) false) =
        .ok after) ∧
    ∀ (wallet : Pubkey) (unowned : wallet ≠ sampleDeployment.poolVault),
      ¬ ∃ after, process (fun _ => true) sampleDeployment
        (sampleLaunch fun _ => true).started
        (initializeTransaction sampleDeployment wallet unowned (some 0) false) =
          .ok after := by
  have unborn : Unborn sampleGenesis := ⟨rfl, fun _ => rfl, rfl⟩
  constructor
  · refine ((pool_created_once unborn sample_bounded .none).1 payer (by decide) (some 0)
      false).mpr ⟨rfl, rfl, ?_⟩
    decide
  · intro wallet unowned taken
    have created := pool_created_once unborn sample_bounded
      (Runs.Trace.none.snoc (sampleLaunch fun _ => true).launched)
    exact absurd ((created.1 wallet unowned (some 0) false).mp taken).2.1 nofun

end Sample

end PrivateTransfer.Creation
