import VibemeetBackend.Async.Flow
import VibemeetBackend.Billing.Checkpoint

/-!
# The stores of one call and the commands on them

The Redis keys of a call, its checkpoint and the commands that the billing programs issue.  A
`Reply` is what the environment answers: the outcome of a lock or claim, the clock, and documents of
collections the billing programs only read.
-/

namespace VibemeetBackend.Billing

open Async

/-- `PricingSnapshot`: rates are whole micros per second. -/
structure Pricing where
  pricePerMinute : ℤ
  pricePerSecondMicros : ℕ
  creatorEarningsPerSecondMicros : ℕ

/-- A `User` document as the promotion reads it. -/
structure PromotedUser where
  id : String
  role : String
  coins : ℕ
  introFreeCallCredits : ℕ
  welcomeFreeCallConsumed : Bool

/-- A `Creator` document as the promotion reads it, with the pricing of its price and the user it
belongs to. -/
structure PromotedCreator where
  id : String
  isDisabled : Bool
  pricing : Pricing
  userFirebaseUid : String
  userRole : String

/-- The keys and the checkpoint of a call.  A numeric key holds what `parseInt` reads from it. -/
structure BillingStore where
  session : Option CallSession
  introMicros : Option ℤ
  walletMicros : Option ℤ
  /-- `callUserCoinsKey`, of sessions older than the split balance. -/
  legacyCoins : Option ℤ
  earnings : Option ℤ
  /-- `settledCallKey`. -/
  settled : Bool
  checkpoint : Option Checkpoint

structure BillingReply where
  ok : Bool
  now : ℤ
  intervalMs : ℤ
  pricing : Option Pricing
  user : Option PromotedUser
  creator : Option PromotedCreator

/-- Which code writes all keys at once: the `path` of its metric. -/
inductive RedisPath where
  /-- The seed of a start, which has no metric. -/
  | earlySeed
  | sessionSeed
  | sessionMigration
  | tickPersist

inductive BillingCmd where
  /-- `SET … NX` on the cycle lock. -/
  | lockCycle
  | getSession
  | getIntro
  | getWallet
  | getLegacyCoins
  | getEarnings
  | getSettled
  | getCheckpoint
  /-- `pricingService.snapshotForCreatorCached`. -/
  | getPricing
  /-- The documents of the promotion. -/
  | getUser
  | getCreator
  /-- `ensureRuntimeOwnership`, answered by whether this worker owns the call. -/
  | claimOwnership
  /-- `consumePendingCallEndIfAny`, answered by whether a pending end was found. -/
  | consumePendingEnd
  | clock
  /-- `SETEX` of the session alone. -/
  | persistSession (s : CallSession)
  /-- One `MULTI` of the session and the three balance keys. -/
  | persistAll (path : RedisPath) (s : CallSession) (intro wallet earnings : ℤ)
  | deleteLegacyCoins
  | upsertSnapshot (data : CheckpointSnapshot)
  | upsertCheckpoint (s : CallSession)
  | advanceCursor (data : CheckpointSnapshot) (expectedVersion : ℤ)

def execBilling (c : BillingCmd) (_ : BillingReply) (st : BillingStore) : BillingStore :=
  match c with
  | .persistSession s => { st with session := some s }
  | .persistAll _ s intro wallet earnings =>
    { st with session := some s, introMicros := some intro, walletMicros := some wallet,
              earnings := some earnings }
  | .deleteLegacyCoins => { st with legacyCoins := none }
  | .upsertSnapshot data =>
    { st with checkpoint := upsertBillingCheckpointSnapshot data st.checkpoint }
  | .upsertCheckpoint s => { st with checkpoint := upsertBillingCheckpoint s st.checkpoint }
  | .advanceCursor data v =>
    { st with checkpoint := advanceBillingCheckpointCursor data v st.checkpoint }
  | _ => st

abbrev BillingProg (α : Type) : Type := Prog BillingCmd BillingReply BillingStore α

def issue (c : BillingCmd) : BillingProg (BillingReply × BillingStore) := Prog.command c

/-- Whether a command leaves the stores of the call as they are. -/
def BillingCmd.reads : BillingCmd → Bool
  | .persistSession _ | .persistAll .. | .deleteLegacyCoins | .upsertSnapshot _
  | .upsertCheckpoint _ | .advanceCursor .. => false
  | _ => true

theorem execBilling_reads {c : BillingCmd} (hc : c.reads = true) (r : BillingReply)
    (st : BillingStore) : execBilling c r st = st := by
  cases c <;> first | rfl | cases hc

theorem holds_read {α : Type} {c : BillingCmd} {f : BillingReply × BillingStore → BillingProg α}
    {I : BillingStore → Prop} {Q : α → BillingStore → Prop} {st : BillingStore}
    (hc : c.reads = true) (hst : I st) (h : ∀ r, (f (r, st)).Holds execBilling I Q st) :
    (issue c >>= f).Holds execBilling I Q st := by
  refine Prog.holds_command_bind.2 fun r => ?_
  rw [execBilling_reads hc]
  exact ⟨hst, h r⟩

end VibemeetBackend.Billing
