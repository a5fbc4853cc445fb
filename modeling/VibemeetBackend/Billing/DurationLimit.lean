import VibemeetBackend.Billing.Conservation
import VibemeetBackend.Billing.Runtime

/-!
# The charge that reaches the duration limit

A cycle computes a charge early and persists it late.  Between the two, a charge that reaches the
duration limit of its call ends the cycle.
-/

namespace VibemeetBackend.Billing

open Async

/-! ### A cycle with its charge -/

/-- What a cycle charges from: its variables before the charge, and the clock it charges up to. -/
structure ChargeInput where
  vars : TickState
  now : ℤ

def ChargeInput.deduct (cfg : BillingConfig) (i : ChargeInput) : ℤ :=
  actualDeduct i.vars (tickDeltaMs cfg i.vars.session i.now)

/-- The deduction, the earnings and the cursor advance that are computed from it. -/
def ChargeInput.charged (cfg : BillingConfig) (i : ChargeInput) : TickState :=
  charge i.vars (i.deduct cfg)

/-- A part of a cycle with what it charged from, if it computed a charge. -/
abbrev TracedProg : Type := BillingProg (Option ChargeInput × BillingTickResult)

def TracedProg.result (p : TracedProg) : BillingProg BillingTickResult := do
  let x ← p
  return x.2

variable {cfg : BillingConfig} {t : TickState} {st : BillingStore}

/-- What the load of a cycle returns, with whether the stored session is of an older schema. -/
inductive LoadedFrom (cfg : BillingConfig) (st : BillingStore) : LoadedState → Bool → Prop
  | rebuilt (cp : Checkpoint) (price rate now : ℤ) (hnone : st.session = none) :
      LoadedFrom cfg st (rebuiltState cfg cp price rate now) false
  | live (raw : CallSession) (now : ℤ) (hraw : st.session = some raw) :
      LoadedFrom cfg st
        (liveState cfg raw st.introMicros st.walletMicros st.legacyCoins st.earnings now)
        (decide (raw.schemaVersion < billingSessionSchemaVersion))
  | merged (raw : CallSession) (now : ℤ) (cp : Checkpoint) (price rate now' : ℤ)
      (hraw : st.session = some raw) (hkeys : ¬ KeysPresent st) (hcp : st.checkpoint = some cp) :
      LoadedFrom cfg st
        (mergeRebuilt
          (liveState cfg raw st.introMicros st.walletMicros st.legacyCoins st.earnings now)
          (rebuiltState cfg cp price rate now'))
        (decide (raw.schemaVersion < billingSessionSchemaVersion))

section load

variable {I : BillingStore → Prop}

end load

/-! ### What is under the keys before the charge -/

variable {s : CallSession}

section repair

variable {I : BillingStore → Prop} {existing : CallSession}

end repair

/-! ### Parts of a cycle -/

variable {P : ChargeInput → BillingStore → Prop}

/-- The balance keys hold the variables of the cycle. -/
structure TickState.Stored (t : TickState) (st : BillingStore) : Prop where
  intro : st.introMicros = some t.introMicros
  wallet : st.walletMicros = some t.walletMicros
  earnings : st.earnings = some t.earningsMicros

/-- The deduction, the earnings and the cursor advance of a charge are under the keys. -/
structure ChargeStored (t : TickState) (st : BillingStore) : Prop where
  keys : t.Stored st
  session : ∃ s, st.session = some s ∧ s.totalDeductedMicros = t.session.totalDeductedMicros ∧
    s.totalEarnedMicros = t.session.totalEarnedMicros ∧
    s.lastProcessedAt = t.session.lastProcessedAt

theorem ChargeStored.emitted (h : ChargeStored t st) (s : CallSession)
    (hs : s.totalDeductedMicros = t.session.totalDeductedMicros ∧
      s.totalEarnedMicros = t.session.totalEarnedMicros ∧
      s.lastProcessedAt = t.session.lastProcessedAt) (now : ℤ) (r : BillingReply) :
    ChargeStored t (execBilling (.persistSession (s.emitted now)) r st) :=
  ⟨⟨h.keys.intro, h.keys.wallet, h.keys.earnings⟩, _, rfl, hs⟩

/-- What session `s` was charged before, with what is due at `now` and can be paid, stays below the
duration limit of the call. -/
def BelowLimit (cfg : BillingConfig) (s : CallSession) (spendMicros now : ℤ) : Prop :=
  ∀ limit, s.effectiveDurationLimitSeconds = some limit →
    s.totalDeductedMicros + min (tickDeltaMs cfg s now * s.billingPrice / 1000) spendMicros <
      limit * s.billingPrice

theorem reached_iff (i : ChargeInput) (hprice : 0 < i.vars.session.billingPrice) :
    durationLimitReached (i.charged cfg).session = false ↔
      BelowLimit cfg i.vars.session i.vars.activeSpendMicros i.now := by
  show durationLimitReached (charge i.vars (i.deduct cfg)).session = false ↔ _
  have hlimit : (charge i.vars (i.deduct cfg)).session.effectiveDurationLimitSeconds =
      i.vars.session.effectiveDurationLimitSeconds := rfl
  rw [durationLimitReached, hlimit]
  unfold BelowLimit
  cases i.vars.session.effectiveDurationLimitSeconds with
  | none => simp
  | some limit =>
    show decide (limit ≤ (i.vars.session.totalDeductedMicros + i.deduct cfg) /
      i.vars.session.billingPrice) = false ↔ _
    rw [decide_eq_false_iff_not, not_le, Int.ediv_lt_iff_lt_mul hprice]
    exact ⟨fun h l hl => Option.some.inj hl ▸ h, fun h => h limit rfl⟩

section live

variable {i : ChargeInput}

/-- The balance key of the side that pays. -/
def BillingStore.spendMicros (st : BillingStore) (s : CallSession) : ℤ :=
  max 0 ((if s.introPromoActive == some true then st.introMicros else st.walletMicros).getD 0)

end live

/-! ### The stored elapsed time -/

structure CallSession.Ahead (limit : ℤ) (s : CallSession) : Prop extends Chargeable s where
  deducted_nonneg : 0 ≤ s.totalDeductedMicros
  limited : s.effectiveDurationLimitSeconds = some limit
  elapsed : s.elapsedSeconds < limit

def LimitAhead (limit : ℤ) (st : BillingStore) : Prop :=
  ∃ s, st.session = some s ∧ s.Ahead limit

/-- The variables of a cycle that loaded such a session. -/
structure TickState.Ahead (limit : ℤ) (t : TickState) : Prop where
  session : t.session.Ahead limit
  rate_nonneg : 0 ≤ t.creatorEarningsPerSecondMicros

section ahead

variable {limit : ℤ} {s : CallSession}

theorem CallSession.Ahead.normalizeV4 (h : s.Ahead limit) : s.normalizeV4.Ahead limit :=
  ⟨h.toChargeable.congr rfl, h.deducted_nonneg, h.limited, h.elapsed⟩

theorem CallSession.Ahead.emitted (h : s.Ahead limit) (now : ℤ) : (s.emitted now).Ahead limit :=
  ⟨h.toChargeable.congr rfl, h.deducted_nonneg, h.limited, h.elapsed⟩

theorem CallSession.Ahead.checkpointed (h : s.Ahead limit) (now : ℤ) :
    (s.checkpointed now).Ahead limit :=
  ⟨h.toChargeable.congr rfl, h.deducted_nonneg, h.limited, h.elapsed⟩

theorem LoadedFrom.ahead {l : LoadedState} {old : Bool} (h : LoadedFrom cfg st l old)
    (hst : LimitAhead limit st) : l.enter.Ahead limit ∧ old = false := by
  obtain ⟨s, hs, hahead⟩ := hst
  have hold : decide (s.schemaVersion < billingSessionSchemaVersion) = false :=
    decide_eq_false (not_lt.2 hahead.current)
  have hmigrated : ∀ e now, (migrateSession cfg s e now).1.Ahead limit := by
    intro e now
    rw [migrateSession_current e now hahead.current]
    exact hahead.normalizeV4
  cases h with
  | rebuilt cp price rate now hnone =>
    simp [hnone] at hs
  | live raw now hraw =>
    rw [hraw, Option.some.injEq] at hs
    obtain rfl := hs
    have h := hmigrated st.earnings now
    exact ⟨⟨h.normalizeV4, h.rate_nonneg⟩, hold⟩
  | merged raw now cp price rate now' hraw _ _ =>
    rw [hraw, Option.some.injEq] at hs
    obtain rfl := hs
    have h := hmigrated st.earnings now
    -- the totals of a rebuild are not negative
    have hmerged : (mergeRebuilt
        (liveState cfg raw st.introMicros st.walletMicros st.legacyCoins st.earnings now)
        (rebuiltState cfg cp price rate now')).session.Ahead limit :=
      ⟨⟨h.current, h.priced, h.rate_nonneg, le_max_left _ _⟩, le_max_left _ _, h.limited,
        h.elapsed⟩
    exact ⟨⟨hmerged.normalizeV4, hmerged.rate_nonneg⟩, hold⟩

end ahead

end VibemeetBackend.Billing
