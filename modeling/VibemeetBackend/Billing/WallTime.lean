import VibemeetBackend.Billing.Recovery

/-!
# What a call is charged for its wall time

A tick rounds its charge down, and rounds the time that the charge covers down again.  The rest of
that millisecond is charged once more by the next tick, so a call may be charged for more than the
time that has passed: by less than a millisecond for each charge but the last.
-/

namespace VibemeetBackend.Billing

open Async

/-! ### One charge -/

section charge

variable {price deduct delta : ℤ}

/-- A charge costs at most the time it is for, and the time it covers falls short of its cost by
less than one millisecond. -/
theorem deduct_bounds (hprice : 0 < price) (hle : deduct ≤ delta * price / 1000) :
    1000 * deduct ≤ price * delta ∧ timeCoveredMs price deduct ≤ delta ∧
      price * timeCoveredMs price deduct ≤ 1000 * deduct ∧
      1000 * deduct ≤ price * timeCoveredMs price deduct + (price - 1) := by
  have hcost : 1000 * deduct ≤ price * delta := by
    have hfloor : 1000 * (delta * price / 1000) ≤ delta * price :=
      Int.mul_ediv_self_le (by norm_num)
    calc
      1000 * deduct ≤ 1000 * (delta * price / 1000) := by omega
      _ ≤ delta * price := hfloor
      _ = price * delta := mul_comm _ _
  have hrest := Int.emod_add_mul_ediv (deduct * 1000) price
  have hlow := Int.emod_nonneg (deduct * 1000) hprice.ne'
  have hhigh := Int.emod_lt_of_pos (deduct * 1000) hprice
  refine ⟨hcost, ?_, ?_, ?_⟩
  · apply Int.ediv_le_of_le_mul hprice
    linarith
  · show price * (deduct * 1000 / price) ≤ _
    omega
  · show _ ≤ price * (deduct * 1000 / price) + _
    omega

theorem timeCoveredMs_whole (hprice : 0 < price) (hwhole : 1000 ∣ price) :
    timeCoveredMs price (delta * price / 1000) = delta ∧
      1000 * (delta * price / 1000) = price * delta := by
  obtain ⟨k, rfl⟩ := hwhole
  have hdiv : delta * (1000 * k) / 1000 = delta * k := by
    rw [mul_left_comm]
    simp
  rw [hdiv]
  constructor
  · show delta * k * 1000 / (1000 * k) = delta
    rw [mul_assoc, mul_comm k]
    exact Int.mul_ediv_cancel _ hprice.ne'
  · ring

end charge

/-! ### The session of a call -/

def LoadedState.activeMicros (l : LoadedState) : ℤ :=
  if l.session.introPromoActive == some true then l.introMicros else l.walletMicros

/-- A session of price `p` at a time `now`, whose sequence was `first` before any charge: its total
is ahead of its cursor by less than a millisecond for each charge, and of the clock by less than one
for each charge but the last. -/
structure Paced (p start first now : ℤ) (l : LoadedState) : Prop where
  current : billingSessionSchemaVersion ≤ l.session.schemaVersion
  price : l.session.billingPrice = p
  started : l.session.startTime = start
  rate_nonneg : 0 ≤ l.session.creatorEarningsPerSecondMicros.getD 0
  intro_nonneg : 0 ≤ l.introMicros
  wallet_nonneg : 0 ≤ l.walletMicros
  earnings_nonneg : 0 ≤ l.earningsMicros
  first_nonneg : 0 ≤ first
  sequence : first ≤ l.session.billingSequence
  cursor : l.session.lastProcessedAt ≤ now
  uncharged : l.session.billingSequence = first → l.session.totalDeductedMicros ≤ 0
  ahead : 1000 * l.session.totalDeductedMicros ≤
    p * (l.session.lastProcessedAt - start) + (l.session.billingSequence - first) * (p - 1)
  bound : first < l.session.billingSequence → 1000 * l.session.totalDeductedMicros ≤
    p * (now - start) + (l.session.billingSequence - first - 1) * (p - 1)
  /-- A charge of the last of the balance may cover less time than it costs. -/
  whole : 1000 ∣ p →
    1000 * l.session.totalDeductedMicros =
        p * (l.session.lastProcessedAt - start) ∨
      (l.activeMicros = 0 ∧
        1000 * l.session.totalDeductedMicros ≤ p * (now - start))
  split : ∃ w, l.session.totalWalletDeductedMicros = some w ∧
    w ≤ l.session.totalDeductedMicros

section paced

variable {cfg : BillingConfig} {p start first now : ℤ} {l : LoadedState} {t : TickState}

theorem Paced.normalizeV4 (h : Paced p start first now l) :
    Paced p start first now (l.withSession l.session.normalizeV4) := by
  have hsequence : (l.withSession l.session.normalizeV4).session.billingSequence =
      l.session.billingSequence := max_eq_right (h.first_nonneg.trans h.sequence)
  have hactive : (l.withSession l.session.normalizeV4).activeMicros = l.activeMicros := by
    show (if some (l.session.introPromoActive.getD false) == some true then _ else _) = _
    unfold LoadedState.activeMicros
    cases l.session.introPromoActive <;> rfl
  refine ⟨h.current, h.price, h.started, h.rate_nonneg, h.intro_nonneg, h.wallet_nonneg,
    h.earnings_nonneg, h.first_nonneg, ?_, h.cursor, ?_, ?_, ?_, ?_, ?_⟩
  · rw [hsequence]
    exact h.sequence
  · rw [hsequence]
    exact h.uncharged
  · rw [hsequence]
    exact h.ahead
  · rw [hsequence]
    exact h.bound
  · rw [hactive]
    exact h.whole
  · obtain ⟨w, hw, hle⟩ := h.split
    refine ⟨w, ?_, hle⟩
    show some (l.session.totalWalletDeductedMicros.getD 0) = some w
    rw [hw]
    rfl

theorem Paced.emitted (h : Paced p start first now l) (at_ : ℤ) :
    Paced p start first now (l.withSession (l.session.emitted at_)) :=
  ⟨h.current, h.price, h.started, h.rate_nonneg, h.intro_nonneg, h.wallet_nonneg,
    h.earnings_nonneg, h.first_nonneg, h.sequence, h.cursor, h.uncharged, h.ahead, h.bound, h.whole,
    h.split⟩

theorem Paced.checkpointed (h : Paced p start first now l) (at_ : ℤ) :
    Paced p start first now (l.withSession (l.session.checkpointed at_)) :=
  ⟨h.current, h.price, h.started, h.rate_nonneg, h.intro_nonneg, h.wallet_nonneg,
    h.earnings_nonneg, h.first_nonneg, h.sequence, h.cursor, h.uncharged, h.ahead, h.bound, h.whole,
    h.split⟩

theorem activeSpend_eq (hintro : t.introPromoBilling = (t.session.introPromoActive == some true)) :
    t.activeSpendMicros = t.activeMicros := by
  unfold TickState.activeSpendMicros LoadedState.activeMicros
  rw [hintro]

theorem charge_activeMicros
    (hintro : t.introPromoBilling = (t.session.introPromoActive == some true)) (deduct : ℤ) :
    (charge t deduct).activeMicros = t.activeMicros - deduct := by
  unfold LoadedState.activeMicros
  show (if t.session.introPromoActive == some true then
    (if t.introPromoBilling then t.introMicros - deduct else t.introMicros) else
    (if t.introPromoBilling then t.walletMicros else t.walletMicros - deduct)) = _
  rw [hintro]
  split
  · rfl
  · rfl

theorem tickDeltaMs_le {clock : ℤ} {s : CallSession} (hpos : 0 < tickDeltaMs cfg s clock) :
    tickDeltaMs cfg s clock ≤ clock - s.lastProcessedAt := by
  unfold tickDeltaMs at hpos ⊢
  omega

/-- **One charge.** -/
theorem Paced.charged {clock : ℤ} (h : Paced p start first now t.toLoadedState) (hp : 0 < p)
    (hintro : t.introPromoBilling = (t.session.introPromoActive == some true))
    (hrate : t.creatorEarningsPerSecondMicros = t.session.creatorEarningsPerSecondMicros.getD 0)
    (hclock : clock ≤ now) (hpos : 0 < actualDeduct t (tickDeltaMs cfg t.session clock)) :
    Paced p start first now
      (charge t (actualDeduct t (tickDeltaMs cfg t.session clock))).toLoadedState := by
  have hprice : t.session.billingPrice = p := h.price
  have hactual : actualDeduct t (tickDeltaMs cfg t.session clock) =
      min (tickDeltaMs cfg t.session clock * p / 1000) t.activeMicros := by
    rw [actualDeduct, hprice, activeSpend_eq hintro]
  generalize hdelta : tickDeltaMs cfg t.session clock = delta at hactual hpos ⊢
  generalize hdeduct : actualDeduct t delta = deduct at hactual hpos ⊢
  have hle : deduct ≤ delta * p / 1000 := by omega
  have hactive : deduct ≤ t.activeMicros := by omega
  obtain ⟨hcost, hcovered, hlow, hhigh⟩ := deduct_bounds hp hle
  have hpassed : delta ≤ clock - t.session.lastProcessedAt := by
    rw [← hdelta]
    apply tickDeltaMs_le
    by_contra hnot
    have hcost : delta * p ≤ 0 := mul_nonpos_of_nonpos_of_nonneg (by omega) hp.le
    have hnone : delta * p / 1000 ≤ 0 := Int.ediv_nonpos_of_nonpos_of_neg hcost (by norm_num)
    omega
  have hspan : p * delta ≤ p * (now - t.session.lastProcessedAt) :=
    mul_le_mul_of_nonneg_left (by omega) hp.le
  have hearn : 0 ≤ earnMicros t.session.billingPrice t.creatorEarningsPerSecondMicros deduct := by
    apply earnMicros_nonneg (by rw [hprice]; exact hp) _ hpos.le
    rw [hrate]
    exact h.rate_nonneg
  have hsplitBalance : deduct ≤ if t.introPromoBilling then t.introMicros else t.walletMicros := by
    rw [hintro]
    exact hactive
  have hcursor : (charge t deduct).session.lastProcessedAt =
      t.session.lastProcessedAt + timeCoveredMs p deduct := by
    rw [← hprice]
    rfl
  have hahead := h.ahead
  have hsequence : first ≤ t.session.billingSequence := h.sequence
  refine ⟨h.current, h.price, h.started, h.rate_nonneg, ?_, ?_, ?_, h.first_nonneg, ?_, ?_, ?_, ?_,
    ?_, ?_, ?_⟩
  · show 0 ≤ if t.introPromoBilling then t.introMicros - deduct else t.introMicros
    split
    · rename_i hsource
      rw [if_pos hsource] at hsplitBalance
      omega
    · exact h.intro_nonneg
  · show 0 ≤ if t.introPromoBilling then t.walletMicros else t.walletMicros - deduct
    split
    · exact h.wallet_nonneg
    · rename_i hsource
      rw [if_neg hsource] at hsplitBalance
      omega
  · show 0 ≤ t.earningsMicros + _
    have := h.earnings_nonneg
    omega
  · show first ≤ t.session.billingSequence + 1
    omega
  · omega
  · intro hnone
    have hnext : t.session.billingSequence + 1 = first := hnone
    omega
  · rw [hcursor]
    show 1000 * (t.session.totalDeductedMicros + deduct) ≤
      p * (t.session.lastProcessedAt + timeCoveredMs p deduct - start) +
        (t.session.billingSequence + 1 - first) * (p - 1)
    linarith
  · intro _
    show 1000 * (t.session.totalDeductedMicros + deduct) ≤ p * (now - start) +
      (t.session.billingSequence + 1 - first - 1) * (p - 1)
    linarith
  · intro hwhole
    rw [hcursor, charge_activeMicros hintro]
    show 1000 * (t.session.totalDeductedMicros + deduct) =
        p * (t.session.lastProcessedAt + timeCoveredMs p deduct - start) ∨
      (t.activeMicros - deduct = 0 ∧
        1000 * (t.session.totalDeductedMicros + deduct) ≤ p * (now - start))
    obtain hexact | ⟨hempty, -⟩ := h.whole hwhole
    · by_cases hfull : deduct = delta * p / 1000
      · obtain ⟨htime, hmicros⟩ : timeCoveredMs p (delta * p / 1000) = delta ∧
          1000 * (delta * p / 1000) = p * delta := timeCoveredMs_whole hp hwhole
        rw [← hfull] at htime hmicros
        left
        rw [htime]
        linarith
      · right
        constructor
        · omega
        · linarith
    · omega
  · obtain ⟨w, hw, hwle⟩ := h.split
    have hw' : t.session.totalWalletDeductedMicros = some w := hw
    have hwle' : w ≤ t.session.totalDeductedMicros := hwle
    refine ⟨if t.introPromoBilling then w else w + deduct, ?_, ?_⟩
    · show (if t.introPromoBilling then t.session.totalWalletDeductedMicros else
        some (t.session.totalWalletDeductedMicros.getD 0 + deduct)) = _
      rw [hw']
      split <;> rfl
    · show _ ≤ t.session.totalDeductedMicros + deduct
      split <;> omega

def pacedRule (cfg : BillingConfig) (hp : 0 < p) (start first now : ℤ) : KeyedRule cfg where
  Answer := fun r => r.now ≤ now
  Held := Paced p start first now
  current := Paced.current
  priced := by
    intro l h
    rw [h.price]
    exact hp
  nonneg := fun h => ⟨h.intro_nonneg, h.wallet_nonneg, h.earnings_nonneg⟩
  normalized := Paced.normalizeV4
  emitted := Paced.emitted
  checkpointed := Paced.checkpointed
  charged := fun h hintro hrate hclock hpos => h.charged hp hintro hrate hclock hpos

end paced

/-! ### A run of ticks -/

/-- A call that starts at `start` with nothing charged. -/
structure LoadedState.Fresh (p start : ℤ) (l : LoadedState) : Prop where
  current : billingSessionSchemaVersion ≤ l.session.schemaVersion
  price : l.session.billingPrice = p
  rate_nonneg : 0 ≤ l.session.creatorEarningsPerSecondMicros.getD 0
  intro_nonneg : 0 ≤ l.introMicros
  wallet_nonneg : 0 ≤ l.walletMicros
  earnings_nonneg : 0 ≤ l.earningsMicros
  started : l.session.startTime = start
  cursor : l.session.lastProcessedAt = start
  sequence : 0 ≤ l.session.billingSequence
  deducted : l.session.totalDeductedMicros = 0
  split : l.session.totalWalletDeductedMicros = some 0

section run

variable {cfg : BillingConfig} {p start first now : ℤ} {l : LoadedState} {st : BillingStore}

theorem PromotedFrom.fresh {existing : CallSession} {q : Promotion}
    (h : PromotedFrom cfg existing q) (hidle : existing.WithoutActivity) :
    q.state.Fresh q.session.billingPrice q.session.startTime := by
  obtain ⟨user, creator, startTime, rfl⟩ := h
  have hb := mongoBalances_nonneg cfg user creator.pricing
  refine ⟨le_rfl, rfl, ?_, hb.1, hb.2, le_rfl, rfl, rfl, le_max_left _ _, hidle.deducted, ?_⟩
  · show 0 ≤ (creator.pricing.creatorEarningsPerSecondMicros : ℤ)
    exact Int.natCast_nonneg _
  · show some (existing.totalWalletDeductedMicros.getD 0) = some 0
    rw [hidle.wallet]

/-- **The start**: its keys hold a call with nothing charged. -/
theorem startSession_fresh (cfg : BillingConfig) (q : StartRequest) (st : BillingStore) :
    (startSession cfg q).Holds execBilling (fun _ => True)
      (fun outcome st' => ∀ s, outcome = .started s → ∃ l : LoadedState, st'.Has l ∧
        l.session = s ∧ l.Fresh s.billingPrice s.startTime) st := by
  apply holds_read rfl trivial
  intro r
  apply Prog.holds_command_bind.2
  intro r'
  refine ⟨trivial, ?_⟩
  apply Prog.holds_bind.2
  apply (promotion_has cfg _ rfl rfl).mono
  intro result st₁ hresult
  split
  · exact fun s hs => nomatch hs
  rename_i p
  obtain ⟨hhas, hfrom⟩ := hresult p rfl
  have hfresh := hfrom.fresh (earlySession_withoutActivity q r.now)
  apply holds_read rfl trivial
  intro rc
  apply Prog.holds_command_bind.2
  intro rp
  refine ⟨trivial, ?_⟩
  have hstarted : (p.state.withSession (startedSession p.session rc.now)).Fresh
      (startedSession p.session rc.now).billingPrice (startedSession p.session rc.now).startTime :=
    ⟨hfresh.current, rfl, hfresh.rate_nonneg, hfresh.intro_nonneg, hfresh.wallet_nonneg,
      hfresh.earnings_nonneg, rfl, hfresh.cursor, zero_le_one, hfresh.deducted, hfresh.split⟩
  have hkeys : ∀ cp, ({ st₁ with
      session := some (startedSession p.session rc.now), checkpoint := cp } : BillingStore).Has
      (p.state.withSession (startedSession p.session rc.now)) :=
    fun _ => ⟨rfl, hhas.intro, hhas.wallet, hhas.earnings⟩
  apply holds_read rfl trivial
  intro re
  dsimp only
  split
  · exact fun s hs => nomatch hs
  split
  · intro ru
    refine ⟨trivial, ?_⟩
    intro s hs
    obtain rfl := StartOutcome.started.inj hs
    exact ⟨_, hkeys _, rfl, hstarted⟩
  · intro s hs
    obtain rfl := StartOutcome.started.inj hs
    exact ⟨_, hkeys _, rfl, hstarted⟩

theorem LoadedState.Fresh.paced (h : l.Fresh p start) (hnow : start ≤ now) :
    Paced p start l.session.billingSequence now l := by
  have hdeducted := h.deducted
  refine ⟨h.current, h.price, h.started, h.rate_nonneg, h.intro_nonneg, h.wallet_nonneg,
    h.earnings_nonneg, h.sequence, le_rfl, ?_, ?_, ?_, ?_, ?_, ?_⟩
  · rw [h.cursor]
    exact hnow
  · intro _
    rw [hdeducted]
  · rw [h.cursor, hdeducted]
    simp
  · intro hpos
    exact absurd hpos (lt_irrefl _)
  · intro _
    left
    rw [h.cursor, hdeducted]
    simp
  · exact ⟨0, h.split, hdeducted.ge⟩

/-- What `charges` charges may cost by the time `now`. -/
def chargedAtMost (p start now charges : ℤ) : ℤ :=
  ((now - start) * p + max 0 (charges - 1) * (p - 1)) / 1000

theorem Paced.deducted_le (h : Paced p start first now l) (hp : 0 < p) (hnow : start ≤ now) :
    l.session.totalDeductedMicros ≤
      chargedAtMost p start now (l.session.billingSequence - first) := by
  have hspan : 0 ≤ (now - start) * p := mul_nonneg (by omega) hp.le
  apply Int.le_ediv_of_mul_le (by norm_num)
  obtain hnone | hpos := h.sequence.eq_or_lt
  · have huncharged := h.uncharged hnone.symm
    rw [max_eq_left (by omega : l.session.billingSequence - first - 1 ≤ 0), zero_mul]
    omega
  · have hbound := h.bound hpos
    rw [max_eq_right (by omega : 0 ≤ l.session.billingSequence - first - 1)]
    linarith

theorem Paced.deducted_le_whole (h : Paced p start first now l) (hp : 0 < p) (hwhole : 1000 ∣ p) :
    l.session.totalDeductedMicros ≤ (now - start) * p / 1000 := by
  have hcursor : p * (l.session.lastProcessedAt - start) ≤ p * (now - start) := by
    apply mul_le_mul_of_nonneg_left _ hp.le
    have := h.cursor
    omega
  apply Int.le_ediv_of_mul_le (by norm_num)
  obtain hexact | ⟨-, hbound⟩ := h.whole hwhole
  · linarith
  · linarith

theorem Paced.debit_le (h : Paced p start first now l) (totals : AuthoritativeTotals)
    (earningsRaw : ℤ) :
    (settleInputOf l.session totals earningsRaw).targetWalletDebit ≤
      microsToUserDebitWholeCoins l.session.totalDeductedMicros := by
  obtain ⟨w, hw, hle⟩ := h.split
  have hwallet : (settleInputOf l.session totals earningsRaw).walletDeductedMicros = w := by
    simp [settleInputOf, hw]
  unfold SettleInput.targetWalletDebit
  rw [hwallet]
  exact userDebit_mono hle

/-- **What a call is charged by a time.**  After any ticks up to that time, the total is at most the
price of the wall time, and less than the price of one more millisecond for each charge but the
last; after one charge, or at a price of whole micros for each millisecond, it is at most the price
of the wall time.  The settled debit is at most the ceiling of that. -/
theorem deducted_le_wallTime (cfg : BillingConfig) (hp : 0 < p) (hnow : start ≤ now)
    (hst : st.Has l) (hfresh : l.Fresh p start) (ticks : List (List BillingReply))
    (hticks : ∀ rs ∈ ticks, ∀ r ∈ rs, r.now ≤ now) :
    ∃ s charges, (runTicks cfg ticks st).session = some s ∧ s.startTime = start ∧
      s.billingSequence = l.session.billingSequence + charges ∧
      s.totalDeductedMicros ≤ chargedAtMost p start now charges ∧
      (charges ≤ 1 ∨ 1000 ∣ p → s.totalDeductedMicros ≤ (now - start) * p / 1000) ∧
      ∀ totals earningsRaw, (settleInputOf s totals earningsRaw).targetWalletDebit ≤
        microsToUserDebitWholeCoins (chargedAtMost p start now charges) := by
  have hrun := (pacedRule cfg hp start l.session.billingSequence now).runTicks_stored
    ⟨l, hst, hfresh.paced hnow⟩ ticks hticks
  obtain ⟨l', hl', hpaced⟩ := hrun
  have hdeducted := hpaced.deducted_le hp hnow
  refine ⟨l'.session, _, hl'.session, hpaced.started, (add_sub_cancel _ _).symm, hdeducted, ?_, ?_⟩
  · rintro (hone | hwhole)
    · apply hdeducted.trans_eq
      unfold chargedAtMost
      rw [max_eq_left (sub_nonpos.2 hone), zero_mul, add_zero]
    · exact hpaced.deducted_le_whole hp hwhole
  · intro totals earningsRaw
    exact (hpaced.debit_le totals earningsRaw).trans (userDebit_mono hdeducted)

end run

/-! ### A coin per minute -/

def coinPerMinuteReply : BillingReply :=
  { sampleReply 1000 with
    creator := some ⟨"creator", false, ⟨1, 16666, 5000⟩, "creator-uid", "creator"⟩ }

def coinPerMinuteStart : BillingStore × Option StartOutcome :=
  (startSession sampleConfig sampleRequest).exec execBilling
    (List.replicate 10 coinPerMinuteReply ++ [{ coinPerMinuteReply with ok := false },
      coinPerMinuteReply]) emptyStore

/-- Its keys after two ticks, 999 and 1998 milliseconds into the call. -/
def coinPerMinuteTicked : BillingStore :=
  runTicks sampleConfig [sampleTick 1999, sampleTick 2998] coinPerMinuteStart.1

theorem coinPerMinuteStart_started :
    (match coinPerMinuteStart.2 with
      | some (.started s) => decide (0 < s.billingPrice ∧ s.startTime ≤ 2998)
      | _ => false) = true := by
  decide +kernel

theorem deducted_le_wallTime_sample :
    ∃ s₀ s charges, coinPerMinuteStart.2 = some (.started s₀) ∧
      coinPerMinuteTicked.session = some s ∧ s.billingSequence = s₀.billingSequence + charges ∧
      s.totalDeductedMicros ≤ chargedAtMost s₀.billingPrice s₀.startTime 2998 charges := by
  have hok := coinPerMinuteStart_started
  split at hok
  · rename_i s₀ hs₀
    obtain ⟨hprice, hstart⟩ := of_decide_eq_true hok
    have hstarted := (Prog.exec_of_holds trivial
      (startSession_fresh sampleConfig sampleRequest emptyStore) _).2 _ hs₀ s₀ rfl
    obtain ⟨l, hhas, rfl, hfresh⟩ := hstarted
    obtain ⟨s, charges, hs, -, hcharges, hle, -⟩ := deducted_le_wallTime sampleConfig hprice hstart
      hhas hfresh [sampleTick 1999, sampleTick 2998] (by decide)
    exact ⟨l.session, s, charges, hs₀, hs, hcharges, hle⟩
  · cases hok

theorem charged_past_wallTime :
    ∃ s, coinPerMinuteTicked.session = some s ∧ s.startTime = 1000 ∧ s.billingPrice = 16666 ∧
      (2998 - s.startTime) * s.billingPrice / 1000 = 33298 ∧ s.totalDeductedMicros = 33315 := by
  have hfigures : coinPerMinuteTicked.session.map
      (fun s => (s.startTime, s.billingPrice, s.totalDeductedMicros)) =
        some (1000, 16666, 33315) := by decide +kernel
  obtain ⟨s, hs, heq⟩ := Option.map_eq_some_iff.1 hfigures
  simp only [Prod.mk.injEq] at heq
  obtain ⟨hstart, hprice, hdeducted⟩ := heq
  refine ⟨s, hs, hstart, hprice, ?_, hdeducted⟩
  rw [hstart, hprice]
  norm_num

end VibemeetBackend.Billing
