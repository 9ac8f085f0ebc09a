import Mathlib.Logic.Function.Basic

/-!
Transactions handed to a network. Each is known by a signature of its own; it may take
effect once the network has it, whatever its sender was answered, and a sender that asks
for a signature is told so only of one that has. What a sender was told is kept apart from
what is so.
-/

namespace PrivateTransfer.Broadcast

variable {Transaction : Type}

/-- The transactions the network has got, by signature, and the signatures of those that
took effect. -/
structure Network (Transaction : Type) where
  sent : String → Option Transaction
  landed : List String

namespace Network
variable (network : Network Transaction)

def silent : Network Transaction := ⟨fun _ => none, []⟩

def send (signature : String) (transaction : Transaction) : Network Transaction :=
  { network with sent := Function.update network.sent signature (some transaction) }

def land (signature : String) : Network Transaction :=
  { network with landed := signature :: network.landed }

/-- No signature belongs to two transactions. -/
def Own (signature : String) (transaction : Transaction) : Prop :=
  ∀ other, network.sent signature = some other → other = transaction

/-- What a sender can be answered, and what the network has then. -/
inductive Takes (transaction : Transaction) : Except String String → Network Transaction → Prop
  | accepted (signature : String) (own : network.Own signature transaction) :
      Takes transaction (.ok signature) (network.send signature transaction)
  | unanswered (signature failure : String) (own : network.Own signature transaction) :
      Takes transaction (.error failure) (network.send signature transaction)
  | refused (failure : String) : Takes transaction (.error failure) network

/-- What can be answered about a signature: it took effect, it failed, or nothing is known. -/
inductive Confirms (signature : String) : Except String (Option String) → Prop
  | confirmed (landed : signature ∈ network.landed) : Confirms signature (.ok none)
  | failed (err : String) : Confirms signature (.ok (some err))
  | expired (failure : String) : Confirms signature (.error failure)

end Network

/-- What a sender was told: the signature it got for what it sent, and what is confirmed. -/
structure Told (Transaction : Type) where
  sent : Option (String × Transaction)
  landed : Option Transaction

namespace Told
variable (told : Told Transaction)

def nothing : Told Transaction := ⟨none, none⟩

def send (transaction : Transaction) : Except String String → Told Transaction
  | .ok signature => { told with sent := some (signature, transaction) }
  | .error _ => told

def confirm (signature : String) : Except String (Option String) → Told Transaction
  | .ok none =>
      match told.sent with
      | some (own, transaction) =>
          if own = signature then { told with landed := some transaction } else told
      | none => told
  | _ => told

/-- A sender that asks for its own signature is told of its own transaction. -/
theorem confirm_own (transaction : Transaction) (signature : String) :
    ((told.send transaction (.ok signature)).confirm signature (.ok none)).landed =
      some transaction := by
  simp [send, confirm]

end Told

/-! `paid` says of a transaction that its effect is there. -/
section Effects
variable {paid later : Transaction → Prop} {network after : Network Transaction}
  {told : Told Transaction} {transaction : Transaction} {signature : String}

/-- What took effect was sent, and its effect is there. -/
def Settled (paid : Transaction → Prop) (network : Network Transaction) : Prop :=
  ∀ signature ∈ network.landed, ∃ transaction,
    network.sent signature = some transaction ∧ paid transaction

/-- What a sender was told is so. -/
structure Rightly (paid : Transaction → Prop) (network : Network Transaction)
    (told : Told Transaction) : Prop where
  sent : ∀ signature transaction, told.sent = some (signature, transaction) →
    network.sent signature = some transaction
  landed : ∀ transaction, told.landed = some transaction → paid transaction

theorem silent_settled : Settled paid (Network.silent : Network Transaction) := nofun

theorem nothing_rightly : Rightly paid network (Told.nothing : Told Transaction) :=
  ⟨nofun, nofun⟩

theorem settled_mono (settled : Settled paid network)
    (still : ∀ transaction, paid transaction → later transaction) : Settled later network := by
  intro signature landed
  obtain ⟨transaction, sent, effect⟩ := settled signature landed
  exact ⟨transaction, sent, still transaction effect⟩

theorem rightly_mono (rightly : Rightly paid network told)
    (still : ∀ transaction, paid transaction → later transaction) : Rightly later network told :=
  ⟨rightly.sent, fun transaction landed => still transaction (rightly.landed transaction landed)⟩

/-- What the network has got stays with it. -/
theorem send_keeps (own : network.Own signature transaction) {other : String}
    {carried : Transaction} (held : network.sent other = some carried) :
    (network.send signature transaction).sent other = some carried := by
  rw [Network.send]
  by_cases same : other = signature
  · subst same
    rw [own carried held]
    exact Function.update_self ..
  · exact (Function.update_of_ne same ..).trans held

theorem send_settled (settled : Settled paid network) (own : network.Own signature transaction) :
    Settled paid (network.send signature transaction) := by
  intro other landed
  obtain ⟨carried, sent, effect⟩ := settled other landed
  exact ⟨carried, send_keeps own sent, effect⟩

theorem send_rightly (rightly : Rightly paid network told)
    (own : network.Own signature transaction) :
    Rightly paid (network.send signature transaction) told :=
  ⟨fun other carried held => send_keeps own (rightly.sent other carried held), rightly.landed⟩

variable {answer : Except String String}

theorem takes_settled (settled : Settled paid network)
    (taken : network.Takes transaction answer after) : Settled paid after := by
  cases taken with
  | accepted signature own => exact send_settled settled own
  | unanswered signature failure own => exact send_settled settled own
  | refused failure => exact settled

/-- Whatever one sender is answered, the others were told rightly. -/
theorem takes_others (rightly : Rightly paid network told)
    (taken : network.Takes transaction answer after) : Rightly paid after told := by
  cases taken with
  | accepted signature own => exact send_rightly rightly own
  | unanswered signature failure own => exact send_rightly rightly own
  | refused failure => exact rightly

theorem takes_rightly (rightly : Rightly paid network told)
    (taken : network.Takes transaction answer after) :
    Rightly paid after (told.send transaction answer) := by
  have others := takes_others rightly taken
  cases taken with
  | accepted signature own =>
      refine ⟨?_, others.landed⟩
      intro other carried held
      obtain ⟨rfl, rfl⟩ := Prod.mk.inj (Option.some.inj held)
      exact Function.update_self ..
  | unanswered signature failure own => exact others
  | refused failure => exact others

/-- What has a signature of its own and is said to have landed has. -/
theorem confirms_rightly (settled : Settled paid network) (rightly : Rightly paid network told)
    {answer : Except String (Option String)} (confirms : network.Confirms signature answer) :
    Rightly paid network (told.confirm signature answer) := by
  cases confirms with
  | failed err => exact rightly
  | expired failure => exact rightly
  | confirmed landed =>
      rw [Told.confirm]
      split
      · rename_i own carried sent
        split
        · rename_i same
          obtain ⟨held, there, effect⟩ := settled signature landed
          have agrees := rightly.sent own carried sent
          rw [same, there] at agrees
          obtain rfl := Option.some.inj agrees
          refine ⟨rightly.sent, fun other told => ?_⟩
          obtain rfl := Option.some.inj told
          exact effect
        · exact rightly
      · exact rightly

/-- A transaction that the network has takes effect. -/
theorem land_settled (settled : Settled paid network)
    (still : ∀ transaction, paid transaction → later transaction)
    (held : network.sent signature = some transaction) (effect : later transaction) :
    Settled later (network.land signature) := by
  intro other landed
  rcases List.mem_cons.mp landed with rfl | earlier
  · exact ⟨transaction, held, effect⟩
  · exact settled_mono settled still other earlier

theorem land_rightly (rightly : Rightly paid network told)
    (still : ∀ transaction, paid transaction → later transaction) :
    Rightly later (network.land signature) told :=
  ⟨rightly.sent, (rightly_mono rightly still).landed⟩

end Effects

end PrivateTransfer.Broadcast
