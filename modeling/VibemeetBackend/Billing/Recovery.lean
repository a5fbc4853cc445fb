import VibemeetBackend.Billing.CheckpointLag
import VibemeetBackend.Billing.Resolver

/-!
# Recovery of a call that lost its Redis keys

A live session that was mirrored to the durable document, or whose values are in the checkpoint, and
what is rebuilt from them.
-/

namespace VibemeetBackend.Billing

variable {cfg : BillingConfig} {env : ResolverEnv} {st : RuntimeStore} {s : CallSession}

def settledDebit (cfg : BillingConfig) (st : RuntimeStore) (now : ℤ) : Option ℕ :=
  (settleInput cfg st now).map SettleInput.targetWalletDebit

def settledCredit (cfg : BillingConfig) (st : RuntimeStore) (now : ℤ) : Option ℕ :=
  (settleInput cfg st now).map SettleInput.targetCredit

def liveInput (cfg : BillingConfig) (st : RuntimeStore) (s : CallSession) : SettleInput :=
  settleInputOf s (resolveAuthoritativeSettlementTotals cfg st) (st.earnings.getD 0)

theorem settled_live (cfg : BillingConfig) (now : ℤ) (hs : st.session = some s) :
    settledDebit cfg st now = some (liveInput cfg st s).targetWalletDebit ∧
      settledCredit cfg st now = some (liveInput cfg st s).targetCredit := by
  have h : settleInput cfg st now = some (liveInput cfg st s) := by
    rw [settleInput, settlementSession, hs]
    rfl
  simp [settledDebit, settledCredit, h]

/-! ### From the durable document -/

/-- The runtime after a recovery stands in for the lost session `s`. -/
structure RecoveryEquivalent (cfg : BillingConfig) (now : ℤ) (st : RuntimeStore) (s : CallSession)
    (recovered : ResolvedBillingRuntime × RuntimeStore) : Prop where
  balance : recovered.1.balanceMicros = (redisRuntime st s).balanceMicros
  session : ∃ s', recovered.2.session = some s' ∧ s'.billingPrice = s.billingPrice ∧
    s'.creatorEarningsPerSecondMicros = s.creatorEarningsPerSecondMicros ∧
    s'.creatorMongoId = s.creatorMongoId ∧ s'.needsFullSessionBootstrap = false
  debit : settledDebit cfg recovered.2 now = settledDebit cfg st now
  credit : settledCredit cfg recovered.2 now = settledCredit cfg st now

theorem resolve_of_durable {doc : DurableCallSession} (hdurable : cfg.durableCallSessionEnabled)
    (hfinal : doc.finalized = false) (hdoc : st.durable = some doc) :
    resolveBillingRuntimeState cfg env st.loseKeys = reconstructedRuntime st.loseKeys doc := by
  have hlive : liveDurable cfg st.loseKeys = some doc := by
    simp [liveDurable, RuntimeStore.loseKeys, hdoc, hdurable, hfinal]
  unfold resolveBillingRuntimeState
  rw [hlive]
  rfl

theorem mirror_finalized (doc : DurableCallSession) (s : CallSession) (now : ℤ) :
    (doc.mirror s now).finalized = doc.finalized := by
  unfold DurableCallSession.mirror
  split <;> rfl

theorem not_recoveryEquivalent (cfg : BillingConfig) (env : ResolverEnv) (st : RuntimeStore)
    (s : CallSession) (doc : DurableCallSession) (mirroredAt : ℤ)
    (hdurable : cfg.durableCallSessionEnabled) (hfinal : doc.finalized = false)
    (hmirror : st.durable = some (doc.mirror s mirroredAt))
    (hlive : s.creatorEarningsPerSecondMicros.isSome) :
    ¬ RecoveryEquivalent cfg env.now st s (resolveBillingRuntimeState cfg env st.loseKeys) := by
  rw [resolve_of_durable hdurable ((mirror_finalized doc s mirroredAt).trans hfinal) hmirror]
  intro h
  obtain ⟨s', hs', -, hrate, -⟩ := h.session
  cases hs'
  rw [← hrate] at hlive
  cases hlive

def sampleSession : CallSession :=
  chargedSession (startedSession (promotedSession sampleConfig
    (earlySession sampleConfig sampleRequest 1000) ⟨"user", "user", 500, 0, true⟩
    ⟨"creator", false, samplePricing, "creator-uid", "creator"⟩
    ⟨false, 0, 500000000, false⟩ 1000) 1000) false 5000000 1500000

def sampleCheckpoint : Checkpoint :=
  { (sampleSession.snapshot 495000000).set Checkpoint.fresh with version := 1 }

def sampleLive : RuntimeStore where
  session := some sampleSession
  introMicros := some 0
  walletMicros := some 495000000
  legacyCoins := none
  earnings := some 1500000
  settled := false
  checkpoint := some sampleCheckpoint
  durable := some ((createDurableCallSessionAtStart sampleSession (some "creator-user") 1000).mirror
    sampleSession 6000)
  ledger := ⟨0, 0, 0⟩
  terminal := none

theorem durable_recovery_restores_spent :
    ¬ RecoveryEquivalent sampleConfig 6000 sampleLive sampleSession
      (resolveBillingRuntimeState sampleConfig ⟨6000, some samplePricing⟩ sampleLive.loseKeys) := by
  intro h
  have hbalance := h.balance
  revert hbalance
  decide +kernel

theorem not_recoveryEquivalent_sample :
    ¬ RecoveryEquivalent sampleConfig 6000 sampleLive sampleSession
      (resolveBillingRuntimeState sampleConfig ⟨6000, some samplePricing⟩ sampleLive.loseKeys) :=
  not_recoveryEquivalent sampleConfig ⟨6000, some samplePricing⟩ sampleLive sampleSession _ 6000 rfl
    rfl rfl rfl

/-! ### From the checkpoint -/

/-- A rebuilt session and its stores stand in for the lost session `s`. -/
structure RebuildFaithful (cfg : BillingConfig) (now : ℤ) (st : RuntimeStore) (s rebuilt : CallSession)
    (st' : RuntimeStore) : Prop where
  deducted : rebuilt.totalDeductedMicros = s.totalDeductedMicros
  earned : rebuilt.totalEarnedMicros = s.totalEarnedMicros
  price : rebuilt.billingPrice = s.billingPrice
  elapsed : rebuilt.elapsedSeconds = s.elapsedSeconds
  split : rebuilt.totalIntroDeductedMicros.getD 0 + rebuilt.totalWalletDeductedMicros.getD 0 =
    rebuilt.totalDeductedMicros
  source : (rebuilt.introPromoActive == some true) = (s.introPromoActive == some true)
  limit : rebuilt.effectiveDurationLimitSeconds = s.effectiveDurationLimitSeconds
  debit : settledDebit cfg st' now = settledDebit cfg st now

def tickRebuiltStore (st : RuntimeStore) (l : LoadedState) : RuntimeStore :=
  { st with
    session := some l.session
    introMicros := some l.introMicros
    walletMicros := some l.walletMicros
    earnings := some l.earningsMicros }

def tickRebuild (cfg : BillingConfig) (env : ResolverEnv) (cp : Checkpoint) : LoadedState :=
  rebuiltState cfg cp (backfilledPricing cp env.pricing).1 (backfilledPricing cp env.pricing).2
    env.now

/-- All three rebuilds from the checkpoint `cp` stand in for the lost session. -/
structure RebuildsAgree (cfg : BillingConfig) (env : ResolverEnv) (st : RuntimeStore)
    (s : CallSession) (cp : Checkpoint) : Prop where
  tick : RebuildFaithful cfg env.now st s (tickRebuild cfg env cp).session
    (tickRebuiltStore st.loseKeys (tickRebuild cfg env cp))
  resolver : ∃ s', (checkpointRuntime cfg env st.loseKeys cp).1.session = some s' ∧
    RebuildFaithful cfg env.now st s s' (checkpointRuntime cfg env st.loseKeys cp).2
  settlement : RebuildFaithful cfg env.now st s
    (buildSettlementSessionFromCheckpoint cp env.now) st.loseKeys

theorem tickRebuild_debit (cfg : BillingConfig) (env : ResolverEnv) (st : RuntimeStore)
    (cp : Checkpoint) :
    settledDebit cfg (tickRebuiltStore st (tickRebuild cfg env cp)) env.now = some 0 := rfl

/-- The rebuild of the tick has a duration limit, and the one of the settlement has none. -/
theorem not_rebuildsAgree (cfg : BillingConfig) (env : ResolverEnv) (st : RuntimeStore)
    (s : CallSession) (cp : Checkpoint) : ¬ RebuildsAgree cfg env st s cp := by
  intro h
  have hlimit : (tickRebuild cfg env cp).session.effectiveDurationLimitSeconds =
      (buildSettlementSessionFromCheckpoint cp env.now).effectiveDurationLimitSeconds :=
    h.tick.limit.trans h.settlement.limit.symm
  cases hlimit

theorem tick_rebuild_loses_debit :
    ¬ RebuildsAgree sampleConfig ⟨6000, some samplePricing⟩ sampleLive sampleSession
      sampleCheckpoint := by
  intro h
  have hdebit := h.tick.debit
  rw [tickRebuild_debit] at hdebit
  revert hdebit
  decide +kernel

end VibemeetBackend.Billing
