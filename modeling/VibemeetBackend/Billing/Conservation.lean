import VibemeetBackend.Billing.Start
import VibemeetBackend.Billing.TickRule

/-!
# Balance conservation over billing ticks

From a promotion that starts with nothing charged, every store that a run of ticks leaves balances
its books: what is left in the intro and the wallet key and what was deducted add up to the initial
balances.
-/

namespace VibemeetBackend.Billing

open Async

/-- The equations between a session and the keys, for initial balances `I` and `W`. -/
structure Conserved (I W : ℤ) (s : CallSession) (introMicros walletMicros earningsMicros : ℤ) :
    Prop where
  intro_nonneg : 0 ≤ introMicros
  wallet_nonneg : 0 ≤ walletMicros
  initialIntro : s.initialIntroMicros.getD 0 = I
  initialWallet : s.initialWalletMicros.getD 0 = W
  spent : introMicros + walletMicros + s.totalDeductedMicros = I + W
  split : s.totalIntroDeductedMicros.getD 0 + s.totalWalletDeductedMicros.getD 0 =
    s.totalDeductedMicros
  earned : earningsMicros = s.totalEarnedMicros

def BalancesConserved (I W : ℤ) (st : BillingStore) : Prop :=
  ∃ s introMicros walletMicros earningsMicros, st.session = some s ∧
    st.introMicros = some introMicros ∧ st.walletMicros = some walletMicros ∧
    st.earnings = some earningsMicros ∧ Conserved I W s introMicros walletMicros earningsMicros

structure Chargeable (s : CallSession) : Prop where
  current : billingSessionSchemaVersion ≤ s.schemaVersion
  priced : 0 < s.billingPrice
  rate_nonneg : 0 ≤ s.creatorEarningsPerSecondMicros.getD 0
  earned_nonneg : 0 ≤ s.totalEarnedMicros

def Running (I W : ℤ) (st : BillingStore) : Prop :=
  ∃ s introMicros walletMicros earningsMicros, st.session = some s ∧
    st.introMicros = some introMicros ∧ st.walletMicros = some walletMicros ∧
    st.earnings = some earningsMicros ∧
    Conserved I W s introMicros walletMicros earningsMicros ∧ Chargeable s

theorem Running.conserved {I W : ℤ} {st : BillingStore} (h : Running I W st) :
    BalancesConserved I W st := by
  obtain ⟨s, i, w, e, hs, hi, hw, he, hc, -⟩ := h
  exact ⟨s, i, w, e, hs, hi, hw, he, hc⟩

structure Books where
  schemaVersion : ℤ
  initialIntroMicros : ℤ
  initialWalletMicros : ℤ
  price : ℤ
  rate : ℤ
  totalIntroDeductedMicros : ℤ
  totalWalletDeductedMicros : ℤ
  totalDeductedMicros : ℤ
  totalEarnedMicros : ℤ

def CallSession.books (s : CallSession) : Books where
  schemaVersion := s.schemaVersion
  initialIntroMicros := s.initialIntroMicros.getD 0
  initialWalletMicros := s.initialWalletMicros.getD 0
  price := s.billingPrice
  rate := s.creatorEarningsPerSecondMicros.getD 0
  totalIntroDeductedMicros := s.totalIntroDeductedMicros.getD 0
  totalWalletDeductedMicros := s.totalWalletDeductedMicros.getD 0
  totalDeductedMicros := s.totalDeductedMicros
  totalEarnedMicros := s.totalEarnedMicros

section books

variable (s : CallSession) (now : ℤ)

@[simp] theorem books_normalizeV4 : s.normalizeV4.books = s.books := rfl

@[simp] theorem books_emitted : (s.emitted now).books = s.books := rfl

@[simp] theorem books_checkpointed : (s.checkpointed now).books = s.books := rfl

end books

theorem Conserved.congr {I W intro wallet earnings : ℤ} {s s' : CallSession}
    (h : Conserved I W s intro wallet earnings) (hb : s'.books = s.books) :
    Conserved I W s' intro wallet earnings := by
  simp only [CallSession.books, Books.mk.injEq] at hb
  obtain ⟨-, hi, hw, -, -, hti, htw, hd, he⟩ := hb
  refine ⟨h.intro_nonneg, h.wallet_nonneg, hi.trans h.initialIntro, hw.trans h.initialWallet,
    ?_, ?_, ?_⟩
  · rw [hd]
    exact h.spent
  · rw [hti, htw, hd]
    exact h.split
  · rw [he]
    exact h.earned

theorem Chargeable.congr {s s' : CallSession} (h : Chargeable s) (hb : s'.books = s.books) :
    Chargeable s' := by
  simp only [CallSession.books, Books.mk.injEq] at hb
  obtain ⟨hv, -, -, hp, hr, -, -, -, he⟩ := hb
  refine ⟨?_, ?_, ?_, ?_⟩
  · rw [hv]
    exact h.current
  · rw [hp]
    exact h.priced
  · rw [hr]
    exact h.rate_nonneg
  · rw [he]
    exact h.earned_nonneg

/-! ### The variables of a cycle -/

/-- The variables of a cycle satisfy the equations. -/
structure TickState.Balanced (I W : ℤ) (t : TickState) : Prop where
  conserved : Conserved I W t.session t.introMicros t.walletMicros t.earningsMicros
  chargeable : Chargeable t.session
  rate_nonneg : 0 ≤ t.creatorEarningsPerSecondMicros

variable {cfg : BillingConfig} {I W : ℤ} {t : TickState} {st : BillingStore}

theorem actualDeduct_le (t : TickState) (deltaMs : ℤ) :
    actualDeduct t deltaMs ≤ t.activeSpendMicros := min_le_right _ _

theorem earnMicros_nonneg {price rate deduct : ℤ} (hp : 0 < price) (hr : 0 ≤ rate)
    (hd : 0 ≤ deduct) : 0 ≤ earnMicros price rate deduct := by
  have htime : 0 ≤ timeCoveredMs price deduct := Int.ediv_nonneg (by omega) hp.le
  exact Int.ediv_nonneg (mul_nonneg htime hr) (by norm_num)

/-- **One charge** of at most the active balance keeps the equations. -/
theorem charge_balanced {deduct : ℤ} (h : t.Balanced I W) (hpos : 0 < deduct)
    (hle : deduct ≤ t.activeSpendMicros) : (charge t deduct).Balanced I W := by
  have hearn := earnMicros_nonneg h.chargeable.priced h.rate_nonneg hpos.le
  have hsplit := h.conserved.split
  have hspent := h.conserved.spent
  have hintro := h.conserved.intro_nonneg
  have hwallet := h.conserved.wallet_nonneg
  have hearned := h.conserved.earned
  refine ⟨?_, ⟨h.chargeable.current, h.chargeable.priced, h.chargeable.rate_nonneg, ?_⟩,
    h.rate_nonneg⟩
  · cases hp : t.introPromoBilling with
    | true =>
      rw [TickState.activeSpendMicros, hp, if_pos rfl] at hle
      refine ⟨?_, ?_, h.conserved.initialIntro, h.conserved.initialWallet, ?_, ?_, ?_⟩ <;>
        simp only [charge, chargedSession, hp, if_true, Option.getD_some] <;> omega
    | false =>
      rw [TickState.activeSpendMicros, hp, if_neg (by simp)] at hle
      refine ⟨?_, ?_, h.conserved.initialIntro, h.conserved.initialWallet, ?_, ?_, ?_⟩ <;>
        simp only [charge, chargedSession, hp, if_false, Option.getD_some, Bool.false_eq_true] <;>
        omega
  · show 0 ≤ t.session.totalEarnedMicros + _
    have := h.chargeable.earned_nonneg
    omega

/-! ### Ticks -/

def runningRule (cfg : BillingConfig) (I W : ℤ) : KeyedRule cfg where
  Answer := fun _ => True
  Held := fun l =>
    Conserved I W l.session l.introMicros l.walletMicros l.earningsMicros ∧ Chargeable l.session
  current := fun h => h.2.current
  priced := fun h => h.2.priced
  nonneg := by
    intro l ⟨hc, hcs⟩
    have hearned : 0 ≤ l.earningsMicros := by
      rw [hc.earned]
      exact hcs.earned_nonneg
    exact ⟨hc.intro_nonneg, hc.wallet_nonneg, hearned⟩
  normalized := fun h => ⟨h.1.congr (books_normalizeV4 _), h.2.congr (books_normalizeV4 _)⟩
  emitted := fun h now => ⟨h.1.congr (books_emitted _ now), h.2.congr (books_emitted _ now)⟩
  checkpointed := fun h now =>
    ⟨h.1.congr (books_checkpointed _ now), h.2.congr (books_checkpointed _ now)⟩
  charged := by
    intro t r ⟨hc, hcs⟩ _ hrate _ hpos
    have hrate_nonneg : 0 ≤ t.creatorEarningsPerSecondMicros := by
      rw [hrate]
      exact hcs.rate_nonneg
    have hbalanced : t.Balanced I W := ⟨hc, hcs, hrate_nonneg⟩
    have hcharged := charge_balanced hbalanced hpos (actualDeduct_le t _)
    exact ⟨hcharged.conserved, hcharged.chargeable⟩

theorem running_stored (cfg : BillingConfig) (I W : ℤ) :
    Running I W st ↔ (runningRule cfg I W).Stored st := by
  constructor
  · intro ⟨s, i, w, e, hs, hi, hw, he, hc, hcs⟩
    exact ⟨⟨s, i, w, e⟩, ⟨hs, hi, hw, he⟩, hc, hcs⟩
  · intro ⟨l, hl, hc, hcs⟩
    exact ⟨_, _, _, _, hl.session, hl.intro, hl.wallet, hl.earnings, hc, hcs⟩

/-! ### The promotion -/

structure CallSession.WithoutActivity (s : CallSession) : Prop where
  idle : s.hasRuntimeActivity = false
  deducted : s.totalDeductedMicros = 0
  earned : s.totalEarnedMicros = 0
  intro : s.totalIntroDeductedMicros.getD 0 = 0
  wallet : s.totalWalletDeductedMicros.getD 0 = 0

theorem earlySession_withoutActivity (q : StartRequest) (now : ℤ) :
    (earlySession cfg q now).WithoutActivity :=
  ⟨rfl, rfl, rfl, rfl, rfl⟩

variable {existing : CallSession} {opts : PromoteOpts}

theorem readBalances_of_idle {b : PromotedBalances} (hopts : opts.preserveRuntimeBalances = false)
    (h : existing.hasRuntimeActivity = false) : readBalances existing opts b = return b := by
  rw [readBalances, if_neg]
  simp [preservesBalances, hopts, h]

theorem mongoBalances_nonneg (cfg : BillingConfig) (user : PromotedUser) (pricing : Pricing) :
    0 ≤ (mongoBalances cfg user pricing).initialIntroMicros ∧
      0 ≤ (mongoBalances cfg user pricing).initialWalletMicros := by
  unfold mongoBalances coinsWholeToMicros coinMicros
  dsimp only
  constructor
  · split
    · positivity
    · exact le_rfl
  · split
    · exact le_rfl
    · positivity

theorem promotedSession_conserved {user : PromotedUser} {creator : PromotedCreator}
    {b : PromotedBalances} {startTime : ℤ} (h : existing.WithoutActivity)
    (hi : 0 ≤ b.initialIntroMicros) (hw : 0 ≤ b.initialWalletMicros) :
    Conserved b.initialIntroMicros b.initialWalletMicros
      (promotedSession cfg existing user creator b startTime) b.initialIntroMicros
      b.initialWalletMicros 0 where
  intro_nonneg := hi
  wallet_nonneg := hw
  initialIntro := rfl
  initialWallet := rfl
  spent := by
    show _ + _ + existing.totalDeductedMicros = _
    rw [h.deducted, add_zero]
  split := by
    show existing.totalIntroDeductedMicros.getD 0 + existing.totalWalletDeductedMicros.getD 0 =
      existing.totalDeductedMicros
    rw [h.intro, h.wallet, h.deducted]
    rfl
  earned := h.earned.symm

/-- What the keys hold after a promotion that seeds them. -/
def Promotion.state (p : Promotion) : LoadedState where
  session := p.session
  introMicros := p.initialIntroMicros
  walletMicros := p.initialWalletMicros
  earningsMicros := 0

/-- A promotion of `existing` with the balances of a `User` document. -/
def PromotedFrom (cfg : BillingConfig) (existing : CallSession) (p : Promotion) : Prop :=
  ∃ (user : PromotedUser) (creator : PromotedCreator) (startTime : ℤ),
    p = ⟨promotedSession cfg existing user creator (mongoBalances cfg user creator.pricing)
        startTime,
      (mongoBalances cfg user creator.pricing).initialIntroMicros,
      (mongoBalances cfg user creator.pricing).initialWalletMicros⟩

theorem promoteWith_has {user : PromotedUser} {creator : PromotedCreator} :
    (promoteWith cfg existing opts user creator (mongoBalances cfg user creator.pricing)).Holds
      execBilling (fun _ => True)
      (fun result st' => ∀ p, result = .ok p → st'.Has p.state ∧ PromotedFrom cfg existing p)
      st := by
  unfold promoteWith
  split
  · exact fun p hp => nomatch hp
  · apply holds_read rfl trivial
    intro r _
    refine ⟨trivial, fun _ => ⟨trivial, ?_⟩⟩
    intro p hp
    cases hp
    exact ⟨⟨rfl, rfl, rfl, rfl⟩, user, creator, _, rfl⟩

/-- **The promotion** of a session without activity: its keys hold what it returns. -/
theorem promotion_has (cfg : BillingConfig) (st : BillingStore)
    (hopts : opts.preserveRuntimeBalances = false) (h : existing.hasRuntimeActivity = false) :
    (promoteBootstrappingSession cfg existing opts).Holds execBilling (fun _ => True)
      (fun result st' => ∀ p, result = .ok p → st'.Has p.state ∧ PromotedFrom cfg existing p)
      st := by
  refine holds_read rfl trivial fun _ => ?_
  dsimp only
  split
  · exact fun p hp => nomatch hp
  · refine holds_read rfl trivial fun ru => ?_
    split
    · exact fun p hp => nomatch hp
    · rename_i user _
      refine holds_read rfl trivial fun rc => ?_
      split
      · exact fun p hp => nomatch hp
      · rename_i creator _
        simpa [promoteParticipants, readBalances_of_idle hopts h] using promoteWith_has

theorem PromotedFrom.running {p : Promotion} (h : PromotedFrom cfg existing p)
    (hidle : existing.WithoutActivity) (hst : st.Has p.state)
    (hprice : 0 < p.session.billingPrice) :
    Running p.initialIntroMicros p.initialWalletMicros st := by
  refine ⟨_, _, _, _, hst.session, hst.intro, hst.wallet, hst.earnings, ?_⟩
  obtain ⟨user, creator, startTime, rfl⟩ := h
  have hb := mongoBalances_nonneg cfg user creator.pricing
  refine ⟨promotedSession_conserved hidle hb.1 hb.2, le_rfl, hprice, ?_, ?_⟩
  · show 0 ≤ (creator.pricing.creatorEarningsPerSecondMicros : ℤ)
    positivity
  · show 0 ≤ existing.totalEarnedMicros
    rw [hidle.earned]

/-! ### Runs -/

/-- **The run.**  Ticks keep a running store running. -/
theorem runTicks_running (hst : Running I W st) (ticks : List (List BillingReply)) :
    Running I W (runTicks cfg ticks st) := by
  apply (running_stored cfg I W).2
  apply KeyedRule.runTicks_stored _ ((running_stored cfg I W).1 hst)
  exact fun _ _ _ _ => trivial

theorem balances_conserved (cfg : BillingConfig) (existing : CallSession) (opts : PromoteOpts)
    (hopts : opts.preserveRuntimeBalances = false) (hidle : existing.WithoutActivity)
    (st st' : BillingStore) (rs : List BillingReply) (p : Promotion)
    (hpromote : (promoteBootstrappingSession cfg existing opts).exec execBilling rs st =
      (st', some (.ok p)))
    (hprice : 0 < p.session.billingPrice) (ticks : List (List BillingReply)) :
    BalancesConserved p.initialIntroMicros p.initialWalletMicros (runTicks cfg ticks st') := by
  have hholds := Prog.exec_of_holds trivial (promotion_has cfg st hopts hidle.idle) rs
  rw [hpromote] at hholds
  obtain ⟨hhas, hfrom⟩ := hholds.2 _ rfl p rfl
  exact (runTicks_running (hfrom.running hidle hhas hprice) ticks).conserved

def sampleConfig : BillingConfig where
  billingDeltaCursorV3Enabled := true
  durableCallSessionEnabled := true
  maxBillingDeltaMs := 5000
  maxBillingDelta_ge := by norm_num
  maxCallDurationSeconds := 3600
  defaultUserCallDurationSeconds := 3600
  defaultCreatorCallDurationSeconds := 3600
  billingCheckpointIntervalMs := 15000
  billingCheckpointEverySequences := 0
  billingCheckpointMinDeltaMicros := 0
  freeCallEnabled := true
  freeCallDurationSeconds := 30
  minCoinsToCall := 450

def samplePricing : Pricing := ⟨60, 1000000, 300000⟩

def sampleReply (now : ℤ) : BillingReply where
  ok := true
  now
  intervalMs := 1000
  pricing := some samplePricing
  user := some ⟨"user", "user", 500, 0, true⟩
  creator := some ⟨"creator", false, samplePricing, "creator-uid", "creator"⟩

def sampleRequest : StartRequest := ⟨"user-uid", "creator-uid", "creator"⟩

def emptyStore : BillingStore := ⟨none, none, none, none, none, false, none⟩

def sampleTick (now : ℤ) : List BillingReply :=
  List.replicate 10 (sampleReply now) ++ { sampleReply now with ok := false } ::
    List.replicate 10 (sampleReply now)

def samplePromotion : BillingStore × Option (Except PromoteFailure Promotion) :=
  (promoteBootstrappingSession sampleConfig (earlySession sampleConfig sampleRequest 1000)
    { preserveStartTime := false, preserveRuntimeBalances := false }).exec execBilling
    (List.replicate 10 (sampleReply 1000)) emptyStore

theorem samplePromotion_priced :
    (match samplePromotion.2 with
      | some (.ok p) => decide (0 < p.session.billingPrice)
      | _ => false) = true := by
  decide +kernel

theorem balances_conserved_sample :
    ∃ p : Promotion, samplePromotion.2 = some (.ok p) ∧
      BalancesConserved p.initialIntroMicros p.initialWalletMicros
        (runTicks sampleConfig [sampleTick 6000, sampleTick 11000] samplePromotion.1) := by
  have hok := samplePromotion_priced
  split at hok
  · rename_i p hp
    exact ⟨p, hp, balances_conserved sampleConfig _ _ rfl
      (earlySession_withoutActivity sampleRequest 1000) emptyStore _ _ p
      (Prod.ext rfl hp) (of_decide_eq_true hok) _⟩
  · cases hok

example : (runTicks sampleConfig [sampleTick 6000, sampleTick 11000]
    samplePromotion.1).walletMicros = some 490000000 := by decide +kernel

end VibemeetBackend.Billing
