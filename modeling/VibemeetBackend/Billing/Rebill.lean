import VibemeetBackend.Billing.CursorFloor
import VibemeetBackend.Billing.Recovery

/-!
# The repair of a session that was already charged

`repairSessionPricingIfNeeded` promotes a session that needs a full bootstrap once more, with
`preserveStartTime` and `preserveRuntimeBalances`.  When the session has runtime activity, the
promotion must not make later ticks charge again what was charged before.
-/

namespace VibemeetBackend.Billing

open Async

structure PromotionAnswers where
  live : BillingReply
  user : BillingReply
  creator : BillingReply
  intro : BillingReply
  wallet : BillingReply
  clock : BillingReply
  seed : BillingReply
  checkpoint : BillingReply

def PromotionAnswers.list (a : PromotionAnswers) : List BillingReply :=
  [a.live, a.user, a.creator, a.intro, a.wallet, a.clock, a.seed, a.checkpoint]

def keyBalance (st : BillingStore) : ℤ :=
  max 0 (st.introMicros.getD 0) + max 0 (st.walletMicros.getD 0)

def BillingStore.balanceMicros (st : BillingStore) : ℤ :=
  (liveBalances st.introMicros st.walletMicros st.legacyCoins).1 +
    (liveBalances st.introMicros st.walletMicros st.legacyCoins).2

def seededStore (p : Promotion) (fromRuntime : Bool) (st : BillingStore) : BillingStore :=
  let keys := if fromRuntime then { st with session := some p.session }
    else { st with session := some p.session, introMicros := some p.initialIntroMicros,
                   walletMicros := some p.initialWalletMicros, earnings := some 0 }
  { keys with
    checkpoint := upsertBillingCheckpointSnapshot (p.session.snapshot p.spendableMicros)
      st.checkpoint }

def repairBalances (cfg : BillingConfig) (s : CallSession) (st : BillingStore)
    (user : PromotedUser) (creator : PromotedCreator) : PromotedBalances :=
  runtimeBalances s st.introMicros st.walletMicros (mongoBalances cfg user creator.pricing)

def repairPromotion (cfg : BillingConfig) (s : CallSession) (st : BillingStore)
    (user : PromotedUser) (creator : PromotedCreator) (now : ℤ) : Promotion :=
  let b := repairBalances cfg s st user creator
  { session := promotedSession cfg s user creator b (numOr s.startTime now)
    initialIntroMicros := b.initialIntroMicros
    initialWalletMicros := b.initialWalletMicros }

variable {cfg : BillingConfig} {s : CallSession} {st : BillingStore} {user : PromotedUser}
  {creator : PromotedCreator}

/-- **The repair**, when its participants pass their checks: the store of its promotion. -/
theorem repair_exec (a : PromotionAnswers) (hneeds : s.needsFullSessionBootstrap = true)
    (hlive : st.session.all CallSession.isBootstrappingSession)
    (huser : promotionPayer a.user.user = .ok user)
    (hcreator : promotionCreator s a.creator.creator = .ok creator) :
    (repairSessionPricingIfNeeded cfg s).exec execBilling a.list st =
      (seededStore (repairPromotion cfg s st user creator a.clock.now)
        (repairBalances cfg s st user creator).fromRuntime st,
        some (repairPromotion cfg s st user creator a.clock.now).session) := by
  have hboot : (st.session.any fun s => !s.isBootstrappingSession) = false := by
    cases hs : st.session <;> simp_all
  unfold repairSessionPricingIfNeeded
  rw [if_pos hneeds]
  unfold promoteBootstrappingSession promoteParticipants readBalances promoteWith
  simp only [issue, Prog.command, Prog.act_bind, Prog.ret_bind, Prog.pure_eq, Prog.exec,
    PromotionAnswers.list, execBilling, hboot, huser, hcreator, preservesBalances, Bool.true_or,
    if_true, Bool.false_eq_true, if_false, not_true_eq_false, false_and]
  cases hsource : (repairBalances cfg s st user creator).fromRuntime with
  | true =>
    rw [repairBalances] at hsource
    rw [hsource]
    rfl
  | false =>
    rw [repairBalances] at hsource
    rw [hsource]
    rfl

/-! ### The balances -/

/-- What the `User` document gives a repair. -/
def mongoTotal (cfg : BillingConfig) (user : PromotedUser) (creator : PromotedCreator) : ℤ :=
  (mongoBalances cfg user creator.pricing).initialIntroMicros +
    (mongoBalances cfg user creator.pricing).initialWalletMicros

def repairTotal (cfg : BillingConfig) (s : CallSession) (st : BillingStore) (user : PromotedUser)
    (creator : PromotedCreator) : ℤ :=
  (repairBalances cfg s st user creator).initialIntroMicros +
    (repairBalances cfg s st user creator).initialWalletMicros

theorem balanceMicros_of_keys (h : 0 < keyBalance st) : st.balanceMicros = keyBalance st := by
  unfold BillingStore.balanceMicros liveBalances
  split <;> simp_all [keyBalance]

theorem repairBalances_of_keys (cfg : BillingConfig) (user : PromotedUser)
    (creator : PromotedCreator) (hactive : s.hasRuntimeActivity = true)
    (h : 0 < keyBalance st) :
    (repairBalances cfg s st user creator).fromRuntime = true ∧
      repairTotal cfg s st user creator = keyBalance st := by
  have hruntime : s.hasRuntimeActivity = true ∧
      0 < max 0 (st.introMicros.getD 0) + max 0 (st.walletMicros.getD 0) := ⟨hactive, h⟩
  unfold repairTotal repairBalances runtimeBalances
  rw [if_pos hruntime]
  exact ⟨rfl, rfl⟩

theorem repairBalances_of_empty (cfg : BillingConfig) (s : CallSession) (user : PromotedUser)
    (creator : PromotedCreator) (h : ¬ 0 < keyBalance st) :
    repairBalances cfg s st user creator = mongoBalances cfg user creator.pricing := by
  have hruntime : ¬ (s.hasRuntimeActivity = true ∧
      0 < max 0 (st.introMicros.getD 0) + max 0 (st.walletMicros.getD 0)) := fun hr => h hr.2
  simp [repairBalances, runtimeBalances, hruntime]

theorem balance_after_repair (cfg : BillingConfig) (st : BillingStore) (user : PromotedUser)
    (creator : PromotedCreator) (hactive : s.hasRuntimeActivity = true) (now : ℤ) :
    (seededStore (repairPromotion cfg s st user creator now)
      (repairBalances cfg s st user creator).fromRuntime st).balanceMicros =
      repairTotal cfg s st user creator := by
  by_cases h : 0 < keyBalance st
  · obtain ⟨hsource, htotal⟩ := repairBalances_of_keys cfg user creator hactive h
    rw [hsource, htotal]
    exact balanceMicros_of_keys h
  · have hmongo := repairBalances_of_empty cfg s user creator h
    obtain ⟨hintro, hwallet⟩ := mongoBalances_nonneg cfg user creator.pricing
    have hsource : (repairBalances cfg s st user creator).fromRuntime = false := by
      rw [hmongo]
      rfl
    rw [hsource]
    show max 0 (repairBalances cfg s st user creator).initialIntroMicros +
      max 0 (repairBalances cfg s st user creator).initialWalletMicros = _
    rw [repairTotal, hmongo, max_eq_right hintro, max_eq_right hwallet]

theorem repairTotal_eq_iff (cfg : BillingConfig) (user : PromotedUser) (creator : PromotedCreator)
    (hactive : s.hasRuntimeActivity = true) :
    repairTotal cfg s st user creator = st.balanceMicros ↔
      0 < keyBalance st ∨ mongoTotal cfg user creator = st.balanceMicros := by
  by_cases h : 0 < keyBalance st
  · have htotal := (repairBalances_of_keys cfg user creator hactive h).2
    rw [htotal, balanceMicros_of_keys h]
    exact iff_of_true rfl (.inl h)
  · rw [repairTotal, repairBalances_of_empty cfg s user creator h]
    exact (or_iff_right h).symm

/-! ### The claim of the repair -/

/-- What a repair of the session `s` in `st` must leave: a session `s'` that carries on the charge
of `s`, with balances and initial balances that add up. -/
structure NeverRebills (cfg : BillingConfig) (s : CallSession) (st : BillingStore)
    (s' : CallSession) (after : BillingStore) : Prop where
  stored : after.session = some s'
  cursor : s.lastProcessedAt ≤ s'.lastProcessedAt
  sequence : s'.billingSequence = s.billingSequence
  deducted : s'.totalDeductedMicros = s.totalDeductedMicros
  earned : s'.totalEarnedMicros = s.totalEarnedMicros
  introDeducted : s'.totalIntroDeductedMicros.getD 0 = s.totalIntroDeductedMicros.getD 0
  walletDeducted : s'.totalWalletDeductedMicros.getD 0 = s.totalWalletDeductedMicros.getD 0
  balance : after.balanceMicros + s'.totalDeductedMicros = st.balanceMicros + s.totalDeductedMicros
  initial : s'.initialIntroMicros.getD 0 + s'.initialWalletMicros.getD 0 =
    after.balanceMicros + s'.totalDeductedMicros
  /-- After any later ticks, a tick charges from a cursor that is not before what `s` was charged
  for. -/
  later : ∀ ticks rs, (∀ as ∈ rs :: ticks, ∀ r ∈ as, s.lastProcessedAt ≤ r.now) →
    ∀ l old, ((loadTickState cfg).exec execBilling rs (runTicks cfg ticks after)).2 =
      some (some (l, old)) → s.lastProcessedAt ≤ l.session.lastProcessedAt

/-- Nothing was deducted, the cursor is not past the start to which the promotion moves it, and the
balance keys are not empty or agree with the `User` document. -/
structure RepairHarmless (cfg : BillingConfig) (s : CallSession) (st : BillingStore)
    (user : PromotedUser) (creator : PromotedCreator) (now : ℤ) : Prop where
  undeducted : s.totalDeductedMicros = 0
  cursor : s.lastProcessedAt ≤ numOr s.startTime now
  balance : 0 < keyBalance st ∨ mongoTotal cfg user creator = st.balanceMicros

theorem sequence_pos (hactive : s.hasRuntimeActivity = true) (h : s.totalDeductedMicros = 0) :
    0 < s.billingSequence := by
  simpa [CallSession.hasRuntimeActivity, h] using hactive

theorem repair_atOrAbove (cfg : BillingConfig) (st : BillingStore) (user : PromotedUser)
    (creator : PromotedCreator) {now c : ℤ} (hc : c ≤ numOr s.startTime now) (fromRuntime : Bool) :
    AtOrAbove c (seededStore (repairPromotion cfg s st user creator now) fromRuntime st) := by
  have habove : (repairPromotion cfg s st user creator now).session.Above c :=
    ⟨le_rfl, hc, .inr hc⟩
  refine ⟨?_, ?_⟩
  · intro s' hs'
    cases fromRuntime with
    | true =>
      cases hs'
      exact habove
    | false =>
      cases hs'
      exact habove
  · exact upsertSnapshot_above (.inr hc) (.inr hc)

theorem neverRebills_of_harmless {now : ℤ} (hactive : s.hasRuntimeActivity = true)
    (h : RepairHarmless cfg s st user creator now) :
    NeverRebills cfg s st (repairPromotion cfg s st user creator now).session
      (seededStore (repairPromotion cfg s st user creator now)
        (repairBalances cfg s st user creator).fromRuntime st) := by
  have hseq := sequence_pos hactive h.undeducted
  have hafter := balance_after_repair cfg st user creator hactive now
  have hkept := (repairTotal_eq_iff cfg user creator hactive).2 h.balance
  refine ⟨?_, h.cursor, max_eq_right hseq.le, rfl, rfl, rfl, rfl, ?_, ?_, ?_⟩
  · cases (repairBalances cfg s st user creator).fromRuntime with
    | _ => rfl
  · rw [hafter, hkept]
    rfl
  · rw [hafter]
    show repairTotal cfg s st user creator = _ + s.totalDeductedMicros
    rw [h.undeducted, add_zero]
  · intro ticks rs hclock l old hl
    have habove := repair_atOrAbove cfg st user creator h.cursor
      (repairBalances cfg s st user creator).fromRuntime
    have hrun := runTicks_atOrAbove cfg habove ticks
      fun as has => hclock as (List.mem_cons_of_mem rs has)
    have hload := (Prog.exec_of_holdsOn hrun (loadTickState_atOrAbove cfg hrun)
      (hclock rs List.mem_cons_self)).2 _ hl
    exact (hload.2 l old rfl).1.cursor

theorem harmless_of_neverRebills {now : ℤ} (hactive : s.hasRuntimeActivity = true)
    (h : NeverRebills cfg s st (repairPromotion cfg s st user creator now).session
      (seededStore (repairPromotion cfg s st user creator now)
        (repairBalances cfg s st user creator).fromRuntime st)) :
    RepairHarmless cfg s st user creator now := by
  have hafter := balance_after_repair cfg st user creator hactive now
  have hinitial := h.initial
  have hbalance := h.balance
  rw [hafter] at hinitial hbalance
  have hsplit : repairTotal cfg s st user creator =
      repairTotal cfg s st user creator + s.totalDeductedMicros := hinitial
  have hsum : repairTotal cfg s st user creator + s.totalDeductedMicros =
      st.balanceMicros + s.totalDeductedMicros := hbalance
  refine ⟨?_, h.cursor, ?_⟩
  · omega
  · apply (repairTotal_eq_iff cfg user creator hactive).1
    omega

/-- A repair that promotes a session with runtime activity never bills it again just when it is
harmless. -/
theorem neverRebills_iff (cfg : BillingConfig) (s : CallSession) (st : BillingStore)
    (a : PromotionAnswers) (user : PromotedUser) (creator : PromotedCreator)
    (hactive : s.hasRuntimeActivity = true) (hneeds : s.needsFullSessionBootstrap = true)
    (hlive : st.session.all CallSession.isBootstrappingSession)
    (huser : promotionPayer a.user.user = .ok user)
    (hcreator : promotionCreator s a.creator.creator = .ok creator) :
    (∃ s' after, (repairSessionPricingIfNeeded cfg s).exec execBilling a.list st =
      (after, some s') ∧ NeverRebills cfg s st s' after) ↔
      RepairHarmless cfg s st user creator a.clock.now := by
  rw [repair_exec a hneeds hlive huser hcreator]
  constructor
  · rintro ⟨s', after, hrun, h⟩
    obtain ⟨rfl, hs'⟩ := Prod.mk.inj hrun
    cases hs'
    exact harmless_of_neverRebills hactive h
  · intro h
    exact ⟨_, _, rfl, neverRebills_of_harmless hactive h⟩

/-- The sample call after it lost its Redis keys and was recovered from the durable document. -/
def recoveredStore : BillingStore :=
  (resolveBillingRuntimeState sampleConfig ⟨6000, some samplePricing⟩
    sampleLive.loseKeys).2.toBillingStore

def recoveredSession : CallSession :=
  ((recoveredStore.session.map CallSession.normalizeV4).getD
    (earlySession sampleConfig sampleRequest 1000))

def sampleAnswers : PromotionAnswers :=
  let r := sampleReply 6000
  ⟨r, r, r, r, r, r, r, r⟩

def recoveredRepair : BillingStore × Option CallSession :=
  (repairSessionPricingIfNeeded sampleConfig recoveredSession).exec execBilling sampleAnswers.list
    recoveredStore

theorem repair_rebills : recoveredSession.hasRuntimeActivity = true ∧
    ¬ ∃ s' after, recoveredRepair = (after, some s') ∧
      NeverRebills sampleConfig recoveredSession recoveredStore s' after := by
  refine ⟨by decide +kernel, ?_⟩
  rintro ⟨s', after, hrun, h⟩
  have hback : recoveredRepair.2.map CallSession.lastProcessedAt = some 1000 := by decide +kernel
  have hcharged : recoveredSession.lastProcessedAt = 6000 := by decide +kernel
  have hcursor := h.cursor
  rw [hrun] at hback
  have hs' : s'.lastProcessedAt = 1000 := Option.some.inj hback
  omega

def unchargedSession : CallSession :=
  { recoveredSession with totalDeductedMicros := 0, lastProcessedAt := 1000 }

theorem neverRebills_sample :
    ∃ s' after, (repairSessionPricingIfNeeded sampleConfig unchargedSession).exec execBilling
      sampleAnswers.list recoveredStore = (after, some s') ∧
      NeverRebills sampleConfig unchargedSession recoveredStore s' after :=
  (neverRebills_iff sampleConfig unchargedSession recoveredStore sampleAnswers
    ⟨"user", "user", 500, 0, true⟩
    ⟨"creator", false, samplePricing, "creator-uid", "creator"⟩ (by decide +kernel)
    (by decide +kernel) (by decide +kernel) rfl (by rfl)).2
    ⟨rfl, by decide +kernel, .inl (by decide +kernel)⟩

-- the tick after the repair charges the five coins of 1000 to 6000 once more
example : (runTicks sampleConfig [List.replicate 2 (sampleReply 6000) ++ sampleTick 6000]
    recoveredRepair.1).session.map CallSession.totalDeductedMicros = some 10000000 := by
  decide +kernel

end VibemeetBackend.Billing
