import VibemeetBackend.Billing.MergedTotals
import VibemeetBackend.Billing.SettleRetry
import VibemeetBackend.Billing.SettleWallets

/-!
# What a call earns and what it costs

The pricing of a call (`pricing.service.ts`, `billing.constants.ts`), the totals of its ticks, the
merges of later totals, and the coins that its settlement moves.
-/

namespace VibemeetBackend.Billing

open Async

/-! ### Pricing -/

def pricePerMinuteToUserMicrosPerSecond (pricePerMinute : ℚ) : ℤ :=
  mathRound (pricePerMinute * coinMicros) / 60

def pricePerMinuteToCreatorMicrosPerSecond (pricePerMinute creatorShare : ℚ) : ℤ :=
  mathRound (pricePerMinute * creatorShare * coinMicros) / 60

/-- The rates are those that `buildSnapshotFromPricePerMinute` computes for some price and share. -/
def Pricing.IsSnapshot (p : Pricing) : Prop :=
  ∃ pricePerMinute creatorShare : ℚ, 0 ≤ pricePerMinute ∧ 0 ≤ creatorShare ∧ creatorShare ≤ 1 ∧
    p.pricePerSecondMicros = pricePerMinuteToUserMicrosPerSecond pricePerMinute ∧
    p.creatorEarningsPerSecondMicros =
      pricePerMinuteToCreatorMicrosPerSecond pricePerMinute creatorShare

theorem mathRound_mono {x y : ℚ} (h : x ≤ y) : mathRound x ≤ mathRound y := by
  apply Int.floor_le_floor
  linarith

theorem rate_le_price {pricePerMinute creatorShare : ℚ} (hprice : 0 ≤ pricePerMinute)
    (hshare : creatorShare ≤ 1) :
    pricePerMinuteToCreatorMicrosPerSecond pricePerMinute creatorShare ≤
      pricePerMinuteToUserMicrosPerSecond pricePerMinute := by
  have hpart : pricePerMinute * creatorShare * coinMicros ≤ pricePerMinute * coinMicros := by
    apply mul_le_mul_of_nonneg_right _ (by norm_num [coinMicros])
    exact mul_le_of_le_one_right hprice hshare
  exact Int.ediv_le_ediv (by norm_num) (mathRound_mono hpart)

theorem Pricing.IsSnapshot.rate_le {p : Pricing} (h : p.IsSnapshot) :
    (p.creatorEarningsPerSecondMicros : ℤ) ≤ p.pricePerSecondMicros := by
  obtain ⟨price, share, hprice, -, hshare, hp, hc⟩ := h
  rw [hp, hc]
  exact rate_le_price hprice hshare

structure BillingReply.PricedBySnapshots (r : BillingReply) : Prop where
  pricing : ∀ p, r.pricing = some p → p.IsSnapshot
  creator : ∀ c, r.creator = some c → c.pricing.IsSnapshot

/-! ### Ticks -/

structure CallSession.Within (s : CallSession) : Prop where
  current : billingSessionSchemaVersion ≤ s.schemaVersion
  rates : ∃ price rate, s.billingPricePerSecondMicros = some price ∧
    s.creatorEarningsPerSecondMicros = some rate ∧ rate ≤ price ∧ rate ≤ s.pricePerSecondMicros
  totals : s.totalEarnedMicros ≤ s.totalDeductedMicros

structure Checkpoint.Within (cp : Checkpoint) : Prop where
  rates : cp.creatorEarningsPerSecondMicros ≤ cp.pricePerSecondMicros
  totals : cp.totalEarnedMicros ≤ cp.totalDeductedMicros

section within

variable {cfg : BillingConfig} {s : CallSession} {cp : Checkpoint} {t : TickState}

theorem CallSession.Within.rate_le (h : s.Within) :
    s.creatorEarningsPerSecondMicros.getD 0 ≤ s.billingPrice := by
  obtain ⟨price, rate, hprice, hrate, hle, -⟩ := h.rates
  rw [CallSession.billingPrice, hprice, hrate]
  exact hle

theorem CallSession.Within.normalizeV4 (h : s.Within) : s.normalizeV4.Within := by
  obtain ⟨price, rate, hprice, hrate, hle, hle'⟩ := h.rates
  refine ⟨h.current, ⟨price, rate, ?_, hrate, hle, hle'⟩, h.totals⟩
  show some (s.billingPricePerSecondMicros.getD s.pricePerSecondMicros) = some price
  rw [hprice]
  rfl

/-- **One charge** earns no more than it deducts. -/
theorem earnMicros_le {price rate deduct : ℤ} (hprice : 0 < price) (hrate : rate ≤ price)
    (hpos : 0 ≤ deduct) : earnMicros price rate deduct ≤ deduct := by
  have hcovered : 0 ≤ timeCoveredMs price deduct := Int.ediv_nonneg (by omega) hprice.le
  have hcost : timeCoveredMs price deduct * price ≤ deduct * 1000 := Int.ediv_mul_le _ hprice.ne'
  have hearn : timeCoveredMs price deduct * rate ≤ deduct * 1000 :=
    calc
      timeCoveredMs price deduct * rate ≤ timeCoveredMs price deduct * price :=
        mul_le_mul_of_nonneg_left hrate hcovered
      _ ≤ deduct * 1000 := hcost
  exact Int.ediv_le_of_le_mul (by norm_num) hearn

theorem charge_within {deduct : ℤ} (h : t.session.Within)
    (hrate : t.creatorEarningsPerSecondMicros ≤ t.session.billingPrice)
    (hprice : 0 < t.session.billingPrice) (hpos : 0 < deduct) :
    (charge t deduct).session.Within := by
  have hearn := earnMicros_le hprice hrate hpos.le
  have htotals := h.totals
  refine ⟨h.current, h.rates, ?_⟩
  show t.session.totalEarnedMicros + _ ≤ t.session.totalDeductedMicros + deduct
  omega

theorem backfilled_le (hcp : cp.Within) {pricing : ℤ × ℤ}
    (h : BackfilledFrom BillingReply.PricedBySnapshots cp pricing) : pricing.2 ≤ pricing.1 := by
  obtain ⟨p, hp, rfl⟩ := h
  have hown := hcp.rates
  cases p with
  | none => exact max_le_max le_rfl hown
  | some p =>
    obtain ⟨r, hr, hpricing⟩ := hp p rfl
    show (if _ then _ else _ : ℤ × ℤ).2 ≤ (if _ then _ else _ : ℤ × ℤ).1
    split
    · exact (hr.pricing p hpricing).rate_le
    · exact max_le_max le_rfl hown

theorem rebuilt_within {l : LoadedState} (hcp : cp.Within)
    (h : RebuiltFrom cfg BillingReply.PricedBySnapshots cp l) : l.session.Within := by
  obtain ⟨pricing, r, hpricing, -, rfl⟩ := h
  exact ⟨le_rfl, ⟨_, _, rfl, rfl, backfilled_le hcp hpricing, backfilled_le hcp hpricing⟩,
    max_le_max le_rfl hcp.totals⟩

theorem snapshot_within (h : s.Within) {doc : Option Checkpoint} (remaining : ℤ) (cp : Checkpoint)
    (hcp : upsertBillingCheckpointSnapshot (s.snapshot remaining) doc = some cp) : cp.Within := by
  obtain ⟨price, rate, -, hrate, -, hle⟩ := h.rates
  have hrates : s.creatorEarningsPerSecondMicros.getD 0 ≤ s.pricePerSecondMicros := by
    rw [hrate]
    exact hle
  cases doc with
  | none =>
    cases hcp
    exact ⟨hrates, h.totals⟩
  | some d =>
    cases hcp
    exact ⟨hrates, h.totals⟩

theorem periodic_within (h : s.Within) {doc : Option Checkpoint}
    (hdoc : ∀ d, doc = some d → d.Within) (cp : Checkpoint)
    (hcp : upsertBillingCheckpoint s doc = some cp) : cp.Within := by
  cases doc with
  | none =>
    cases hcp
    exact ⟨le_rfl, h.totals⟩
  | some d =>
    cases hcp
    exact ⟨(hdoc d rfl).rates, h.totals⟩

theorem CallSession.Within.assign {live : CallSession} (hlive : live.Within) :
    (s.assign live).Within := by
  obtain ⟨price, rate, hprice, hrate, hle, hle'⟩ := hlive.rates
  refine ⟨hlive.current, ⟨price, rate, ?_, ?_, hle, hle'⟩, hlive.totals⟩
  · show (live.billingPricePerSecondMicros <|> s.billingPricePerSecondMicros) = some price
    rw [hprice]
    rfl
  · show (live.creatorEarningsPerSecondMicros <|> s.creatorEarningsPerSecondMicros) = some rate
    rw [hrate]
    rfl

def withinRule (cfg : BillingConfig) : TickRule cfg where
  Answer := BillingReply.PricedBySnapshots
  Held := fun l => l.session.Within
  Doc := Checkpoint.Within
  live := false
  keyed := false
  live_of_keyed := id
  current := fun h => h.current
  unkeyed := by
    intro _ l l' h hs
    rw [hs]
    exact h
  nonneg := by
    intro h
    cases h
  priced := by
    intro h
    cases h
  normalized := fun h => h.normalizeV4
  emitted := fun h _ => ⟨h.current, h.rates, h.totals⟩
  checkpointed := fun h _ => ⟨h.current, h.rates, h.totals⟩
  charged := by
    intro t r ht ⟨l, hl, hsession, _, hrate⟩ hprice _ hpos _
    apply charge_within ht _ hprice hpos
    have hle := hl.rate_le
    rw [hrate]
    obtain hown | hunpriced := hsession
    · rw [hown] at hle ⊢
      exact hle
    · omega
  snapshot := by
    intro l h doc _ remaining cp hcp
    exact snapshot_within h remaining cp hcp
  periodic := by
    intro l h doc hdoc cp hcp
    exact periodic_within h hdoc cp hcp
  rebuilt := by
    intro _ cp l hcp h
    exact rebuilt_within hcp h
  merged := by
    intro _ cp l l' h hcp hrebuilt
    have htotals := (rebuilt_within hcp hrebuilt).totals
    have hmerged : ({ l.session with
        lastProcessedAt := l'.session.lastProcessedAt
        totalDeductedMicros := l'.session.totalDeductedMicros
        totalEarnedMicros := l'.session.totalEarnedMicros
        version := max l.session.version l'.session.version } : CallSession).Within :=
      ⟨h.current, h.rates, htotals⟩
    exact hmerged.normalizeV4
  patched := by
    intro l r p h _ hr hp
    have hrates := (hr.pricing p hp).rate_le
    exact ⟨h.current, ⟨_, _, rfl, rfl, hrates, hrates⟩, h.totals⟩
  assigned := fun _ _ hlive => hlive.assign
  promoted := by
    intro l r rc creator h _ hrc hcreator _ user b preserveStartTime
    have hrates := (hrc.creator creator hcreator).rate_le
    exact ⟨le_rfl, ⟨_, _, rfl, rfl, hrates, hrates⟩, h.totals⟩

end within

/-! ### Runs -/

inductive CallStep where
  | start (q : StartRequest) (answers : List BillingReply)
  | tick (answers : List BillingReply)
  /-- `createDurableCallSessionAtStart`, which keeps a document that is there. -/
  | createDurable (creatorUserId : Option String) (now : ℤ)
  | mirror (now : ℤ)
  | loseKeys

def CallStep.answers : CallStep → List BillingReply
  | .start _ answers => answers
  | .tick answers => answers
  | _ => []

def RuntimeStore.unstarted : RuntimeStore where
  session := none
  introMicros := none
  walletMicros := none
  legacyCoins := none
  earnings := none
  settled := false
  checkpoint := none
  durable := none
  ledger := ⟨0, 0, 0⟩
  terminal := none

/-- One step; answers that run out are a start or a tick that threw or whose process stopped. -/
def RuntimeStore.step (cfg : BillingConfig) (st : RuntimeStore) : CallStep → RuntimeStore
  | .start q answers =>
    { st with toBillingStore :=
        ((startSession cfg q).exec execBilling answers st.toBillingStore).1 }
  | .tick answers => { st with toBillingStore := tickStore cfg st.toBillingStore answers }
  | .createDurable creatorUserId now =>
    { st with durable := st.durable <|>
        st.session.map fun s => createDurableCallSessionAtStart s creatorUserId now }
  | .mirror now =>
    match st.session with
    | none => st
    | some s => { st with durable := st.durable.map fun doc => doc.mirror s now }
  | .loseKeys => st.loseKeys

def callRun (cfg : BillingConfig) (steps : List CallStep) : RuntimeStore :=
  steps.foldl (RuntimeStore.step cfg) RuntimeStore.unstarted

/-- Nothing that the stores hold of the call has earned more than it deducted. -/
structure RuntimeStore.Backed (cfg : BillingConfig) (st : RuntimeStore) : Prop where
  kept : (withinRule cfg).Kept st.toBillingStore
  durable : ∀ doc, st.durable = some doc →
    doc.totalCreatorCreditedMicros ≤ doc.totalUserDebitedMicros
  ledger : st.ledger = ⟨0, 0, 0⟩

section runs

variable {cfg : BillingConfig} {st : RuntimeStore} {s : CallSession}

theorem startSession_kept (q : StartRequest) {st : BillingStore} (hst : (withinRule cfg).Kept st) :
    (withinRule cfg).Keeps (startSession cfg q) (fun _ st' => (withinRule cfg).Kept st') st := by
  apply TickRule.keeps_read rfl hst
  intro r _
  have hearly : ∀ i w e, (withinRule cfg).Held ⟨earlySession cfg q r.now, i, w, e⟩ :=
    fun _ _ _ => ⟨le_rfl, ⟨0, 0, rfl, rfl, le_rfl, le_rfl⟩, le_rfl⟩
  apply TickRule.keeps_write (TickRule.kept_persistAll hst (hearly 0 0 0))
  intro _ st₁ hst₁ _
  apply Prog.holdsOn_bind.2
  apply (TickRule.promotion_kept (l := ⟨earlySession cfg q r.now, 0, 0, 0⟩) rfl hst₁ (hearly 0 0 0)
    le_rfl).mono
  intro result st₂ h
  split
  · exact h.1
  rename_i p
  have hp : p.session.Within := h.2 p rfl
  apply TickRule.keeps_read rfl h.1
  intro rc _
  have hstarted : (withinRule cfg).Held ⟨startedSession p.session rc.now, 0, 0, 0⟩ :=
    ⟨hp.current, hp.rates, hp.totals⟩
  apply TickRule.keeps_write (TickRule.kept_persistSession h.1
    (TickRule.not_matches rfl ⟨startedSession p.session rc.now, 0, 0, 0⟩ st₂) hstarted)
  intro _ st₃ hst₃ _
  apply TickRule.keeps_read rfl hst₃
  intro re _
  dsimp only
  split
  · exact hst₃
  split
  · apply TickRule.keeps_write (TickRule.kept_upsertSnapshot hst₃ hstarted _)
    intro _ st₄ hst₄ _
    exact hst₄
  · exact hst₃

theorem kept_without_session {st : BillingStore} (hnone : st.session = none)
    (hdoc : ∀ cp, st.checkpoint = some cp → cp.Within) : (withinRule cfg).Kept st where
  session := by
    intro s hs
    simp [hnone] at hs
  checkpoint := hdoc
  live := fun h => nomatch h
  keys := fun h => nomatch h

theorem backed_unstarted (cfg : BillingConfig) : RuntimeStore.unstarted.Backed cfg := by
  refine ⟨kept_without_session rfl ?_, ?_, rfl⟩
  · intro _ hcp
    cases hcp
  · intro _ hdoc
    cases hdoc

/-- **One step.** -/
theorem step_backed (hst : st.Backed cfg) (step : CallStep)
    (hanswers : ∀ r ∈ step.answers, r.PricedBySnapshots) : (st.step cfg step).Backed cfg := by
  cases step with
  | start q answers =>
    exact ⟨(Prog.exec_of_holdsOn hst.kept (startSession_kept q hst.kept) hanswers).1, hst.durable,
      hst.ledger⟩
  | tick answers =>
    exact ⟨(Prog.exec_of_holdsOn hst.kept ((withinRule cfg).tick_kept hst.kept) hanswers).1,
      hst.durable, hst.ledger⟩
  | createDurable creatorUserId now =>
    refine ⟨hst.kept, ?_, hst.ledger⟩
    intro doc hdoc
    have hor : (st.durable <|> st.session.map fun s =>
      createDurableCallSessionAtStart s creatorUserId now) = some doc := hdoc
    cases hold : st.durable with
    | some old =>
      rw [hold] at hor
      obtain rfl := Option.some.inj hor
      exact hst.durable old hold
    | none =>
      rw [hold] at hor
      obtain ⟨s, -, rfl⟩ := Option.map_eq_some_iff.1 hor
      exact le_rfl
  | mirror now =>
    unfold RuntimeStore.step
    dsimp only
    split
    · exact hst
    rename_i s hs
    refine ⟨hst.kept, ?_, hst.ledger⟩
    intro doc hdoc
    obtain ⟨old, hold, rfl⟩ := Option.map_eq_some_iff.1 hdoc
    unfold DurableCallSession.mirror
    split
    · exact hst.durable old hold
    · exact max_le_max le_rfl (hst.kept.session s hs).totals
  | loseKeys =>
    exact ⟨kept_without_session rfl hst.kept.checkpoint, hst.durable, hst.ledger⟩

/-- **The run.** -/
theorem callRun_backed (cfg : BillingConfig) (steps : List CallStep)
    (hanswers : ∀ step ∈ steps, ∀ r ∈ step.answers, r.PricedBySnapshots) :
    (callRun cfg steps).Backed cfg := by
  induction steps using List.reverseRecOn with
  | nil => exact backed_unstarted cfg
  | append_singleton steps step ih =>
    rw [callRun, List.foldl_append]
    apply step_backed
    · apply ih
      intro step' hstep'
      exact hanswers step' (List.mem_append_left _ hstep')
    · exact hanswers step (by simp)

/-! ### Merges -/

theorem candidates_le (hst : st.Backed cfg) {totals : AuthoritativeTotals}
    (h : totals ∈ totalsCandidates cfg st) :
    totals.totalEarnedMicros ≤ totals.totalDeductedMicros := by
  have hof : ∀ d e q source, e ≤ d → (AuthoritativeTotals.of d e q source).totalEarnedMicros ≤
      (AuthoritativeTotals.of d e q source).totalDeductedMicros :=
    fun d e q source hle => max_le_max le_rfl hle
  simp only [totalsCandidates, List.mem_append, Option.mem_toList,
    Option.filter_eq_some_iff, Option.map_eq_some_iff, hst.ledger, lt_irrefl, if_false,
    reduceCtorEq, or_false] at h
  obtain (⟨⟨s, hs, rfl⟩, -⟩ | ⟨⟨doc, ⟨hdoc, -⟩, rfl⟩, -⟩) | ⟨cp, hcp, rfl⟩ := h
  · exact hof _ _ _ _ (hst.kept.session s hs).totals
  · exact hof _ _ _ _ (hst.durable doc hdoc)
  · exact hof _ _ _ _ (hst.kept.checkpoint cp hcp).totals

theorem resolved_le (hst : st.Backed cfg) :
    (resolveAuthoritativeSettlementTotals cfg st).totalEarnedMicros ≤
      (resolveAuthoritativeSettlementTotals cfg st).totalDeductedMicros := by
  unfold resolveAuthoritativeSettlementTotals
  cases hcandidates : totalsCandidates cfg st with
  | nil => exact le_rfl
  | cons totals rest =>
    apply candidates_le hst
    simp [hcandidates]

theorem resolved_none
    (h : (resolveAuthoritativeSettlementTotals cfg st).source = .none) :
    (resolveAuthoritativeSettlementTotals cfg st).totalEarnedMicros = 0 := by
  have hsource : ∀ totals ∈ totalsCandidates cfg st, totals.source ≠ .none := by
    intro totals htotals
    simp only [totalsCandidates, List.mem_append, Option.mem_toList,
      Option.filter_eq_some_iff, Option.map_eq_some_iff] at htotals
    obtain ((⟨⟨s, -, rfl⟩, -⟩ | ⟨⟨doc, -, rfl⟩, -⟩) | hledger) | ⟨cp, -, rfl⟩ := htotals
    · rintro ⟨⟩
    · rintro ⟨⟩
    · split at hledger
      · cases hledger
        rintro ⟨⟩
      · cases hledger
    · rintro ⟨⟩
  unfold resolveAuthoritativeSettlementTotals at h ⊢
  cases hcandidates : totalsCandidates cfg st with
  | nil => rfl
  | cons totals rest =>
    rw [hcandidates] at h
    refine absurd h (hsource totals ?_)
    simp [hcandidates]

/-- **One merge.** -/
theorem apply_le {totals : AuthoritativeTotals} (hs : s.totalEarnedMicros ≤ s.totalDeductedMicros)
    (ht : totals.totalEarnedMicros ≤ totals.totalDeductedMicros) :
    (applyAuthoritativeTotalsToSession s totals).totalEarnedMicros ≤
      (applyAuthoritativeTotalsToSession s totals).totalDeductedMicros := by
  unfold applyAuthoritativeTotalsToSession
  dsimp only
  split
  · exact hs
  · exact max_le_max hs ht

def mergeAll (cfg : BillingConfig) (s : CallSession) (stores : List RuntimeStore) : CallSession :=
  stores.foldl (fun s st =>
    applyAuthoritativeTotalsToSession s (resolveAuthoritativeSettlementTotals cfg st)) s

theorem mergeAll_le {stores : List RuntimeStore} (hs : s.totalEarnedMicros ≤ s.totalDeductedMicros)
    (hstores : ∀ st ∈ stores, st.Backed cfg) :
    (mergeAll cfg s stores).totalEarnedMicros ≤ (mergeAll cfg s stores).totalDeductedMicros := by
  induction stores generalizing s with
  | nil => exact hs
  | cons st stores ih =>
    apply ih (apply_le hs (resolved_le (hstores st List.mem_cons_self)))
    intro st' hst'
    exact hstores st' (List.mem_cons_of_mem st hst')

theorem settlementSession_le (hst : st.Backed cfg) {now : ℤ}
    (h : settlementSession cfg st now = some s) :
    billingSessionSchemaVersion ≤ s.schemaVersion ∧
      s.totalEarnedMicros ≤ s.totalDeductedMicros := by
  unfold settlementSession at h
  split at h
  · rename_i live hlive
    obtain rfl := Option.some.inj h
    have hwithin := hst.kept.session live hlive
    exact ⟨hwithin.current, hwithin.totals⟩
  · split at h
    · obtain ⟨cp, hcp, rfl⟩ := Option.map_eq_some_iff.1 h
      have hdoc := hst.kept.checkpoint cp (Option.filter_eq_some_iff.1 hcp).1
      exact ⟨le_rfl, max_le_max le_rfl hdoc.totals⟩
    · cases h

end runs

/-! ### Settlement -/

/-- A committed settlement, whatever errors its attempts met, gives the creator no more coins than
it takes from the payer. -/
def CreditWithinDebit (inp : SettleInput) (db : SettleDb) : Prop :=
  ∀ fs earned db', settleTransaction inp fs db = some (earned, db') →
    creatorWalletOf db'.creatorUser - creatorWalletOf db.creatorUser ≤
      walletOf db.payer - walletOf db'.payer

section settlement

variable {inp : SettleInput} {db db' : SettleDb} {f : Faults} {fs : List Faults} {t t' v : ℕ}
  {staff : Option Staff} {c : ℕ} {p : Payer}

theorem committing_value (hs : db.creator = some staff) (hc : db.creatorUser = some c)
    (ht : t = inp.targetCredit ∨ t = 0) (h : committing inp fs t db = some (v, f)) :
    v = inp.targetCredit ∨ v = 0 := by
  induction fs generalizing t with
  | nil => cases h
  | cons g fs ih =>
    unfold committing at h
    cases ha : attempt inp g t db with
    | mk t' r =>
      have ht' : t' = inp.targetCredit ∨ t' = 0 := by
        obtain rfl | rfl := ht
        · rw [attempt_value hs hc ha]
          split
          · exact .inr rfl
          · exact .inl rfl
        · exact .inr (attempt_value_zero ha)
      simp only [ha] at h
      cases r with
      | some d =>
        cases h
        exact ht
      | none =>
        dsimp only at h
        split at h
        · cases h
        · exact ih ht' h

theorem attempt_moves (hd : db.debitTxn = none) (hr : db.creditTxn = none) (hp : db.payer = some p)
    (hs : db.creator = some staff) (hc : db.creatorUser = some c)
    (h : attempt inp f v db = (t', some db')) :
    walletOf db.payer - walletOf db'.payer = min p.coins inp.targetWalletDebit ∧
      creatorWalletOf db'.creatorUser - creatorWalletOf db.creatorUser ≤ v ∧
      (f = Faults.none →
        creatorWalletOf db'.creatorUser - creatorWalletOf db.creatorUser = v) := by
  obtain ⟨⟨q, p', hq, hp', hcoins⟩, -, -, hcredit, -⟩ := attempt_spec h
  obtain rfl := Option.mem_unique hp hq
  rw [hd, Option.getD_none, Nat.sub_zero] at hcoins
  simp only [hs, hc, hr, creditEffect, Option.getD_none, Nat.sub_zero] at hcredit
  have hwallet : creatorWalletOf db'.creatorUser =
      if v = 0 then (c : ℤ) else if walletCredited f.swallowed v 0 then (c + v : ℕ) else c := by
    by_cases hv : v = 0
    · rw [if_pos hv] at hcredit ⊢
      rw [(Prod.mk.inj hcredit).1]
      rfl
    · rw [if_neg hv] at hcredit ⊢
      rw [(Prod.mk.inj hcredit).1]
      show ((if walletCredited f.swallowed v 0 then c + v else c : ℕ) : ℤ) = _
      split <;> rfl
  have hbefore : creatorWalletOf db.creatorUser = c := by
    rw [hc]
    rfl
  have hpayer : walletOf db.payer = p.coins := by
    rw [hp]
    rfl
  have hpayer' : walletOf db'.payer = p'.coins := by
    rw [hp']
    rfl
  refine ⟨?_, ?_, ?_⟩
  · omega
  · rw [hwallet, hbefore]
    split
    · omega
    · split
      · omega
      · omega
  · intro hf
    rw [hwallet, hbefore, hf]
    split
    · omega
    · have hcredited : walletCredited Faults.none.swallowed v 0 = true := rfl
      rw [if_pos hcredited]
      omega

theorem attempt_faultless (hp : db.payer = some p) :
    ∃ t' db', attempt inp Faults.none t db = (t', some db') := by
  have hpasses : failsBeforeCredit inp Faults.none db = false := by
    simp [failsBeforeCredit, Faults.none, hp]
  unfold attempt
  rw [hpasses, hp]
  simp [Faults.none]

theorem creditWithinDebit_iff (hd : db.debitTxn = none) (hr : db.creditTxn = none) :
    CreditWithinDebit inp db ↔ ∀ p staff c, db.payer = some p → db.creator = some staff →
      db.creatorUser = some c → inp.targetCredit ≤ p.coins ∧
        inp.targetCredit ≤ inp.targetWalletDebit := by
  constructor
  · intro h p staff c hp hs hc
    obtain ⟨t', db', hattempt⟩ := @attempt_faultless inp db inp.targetCredit p hp
    have hcommits : settleTransaction inp [Faults.none] db = some (t', db') := by
      show settleAttempts inp [Faults.none] inp.targetCredit db = _
      unfold settleAttempts
      rw [hattempt]
    have hle := h _ _ _ hcommits
    obtain ⟨hdebit, -, hcredit⟩ := attempt_moves hd hr hp hs hc hattempt
    rw [hdebit, hcredit rfl] at hle
    omega
  · intro h fs earned db' hsettle
    obtain ⟨v, f, hcommitting, hattempt⟩ := settleAttempts_committing hsettle
    obtain ⟨⟨p, -, hp, -⟩, -, -, hcredit, -⟩ := attempt_spec hattempt
    -- without a creator or a wallet there is nobody to credit
    have hnobody : creatorWalletOf db'.creatorUser = creatorWalletOf db.creatorUser →
        creatorWalletOf db'.creatorUser - creatorWalletOf db.creatorUser ≤
          walletOf db.payer - walletOf db'.payer := by
      intro hsame
      obtain ⟨⟨q, p', hq, hp', hcoins⟩, -⟩ := attempt_spec hattempt
      rw [hsame, sub_self, hq, hp']
      show (0 : ℤ) ≤ (q.coins : ℤ) - p'.coins
      omega
    cases hs : db.creator with
    | none =>
      simp_all [creditEffect]
    | some staff =>
      cases hc : db.creatorUser with
      | none =>
        simp_all [creditEffect]
      | some c =>
        obtain ⟨hcoins, hdebited⟩ := h p staff c hp hs hc
        obtain ⟨hmoved, hgiven, -⟩ := attempt_moves hd hr hp hs hc hattempt
        rw [hc] at hgiven
        obtain rfl | rfl := committing_value hs hc (.inl rfl) hcommitting
        · omega
        · omega

end settlement

/-! ### When the payer covers the creator -/

structure CallSession.WalletBilled (s : CallSession) : Prop where
  source : (s.introPromoActive == some true) = false
  intro : s.introDeducted = 0

/-- The earnings, the larger of the session's and the authoritative ones, are less than one coin
more than the payer has, and than the wallet part of the session rounded up. -/
structure CoversCredit (s : CallSession) (totals : AuthoritativeTotals) (coins : ℕ) : Prop where
  balance : max s.totalEarnedMicros totals.totalEarnedMicros < (coins + 1) * coinMicros
  split : ∀ w, s.totalWalletDeductedMicros = some w →
    max s.totalEarnedMicros totals.totalEarnedMicros <
      (microsToUserDebitWholeCoins w + 1) * coinMicros

theorem creatorCredit_le_iff (micros : ℤ) (n : ℕ) :
    microsToCreatorCreditWholeCoins micros ≤ n ↔ micros < (n + 1) * coinMicros := by
  unfold microsToCreatorCreditWholeCoins coinMicros
  split
  · constructor
    · intro _
      omega
    · intro _
      exact Nat.zero_le n
  · omega

theorem credit_le_debit {earned deducted : ℤ} (h : earned ≤ deducted) :
    microsToCreatorCreditWholeCoins earned ≤ microsToUserDebitWholeCoins deducted := by
  unfold microsToCreatorCreditWholeCoins microsToUserDebitWholeCoins coinMicros
  split <;> split <;> omega

section covered

variable {cfg : BillingConfig} {st : RuntimeStore} {s : CallSession} {totals : AuthoritativeTotals}

theorem settled_earned (hcurrent : billingSessionSchemaVersion ≤ s.schemaVersion)
    (earningsRaw : ℤ) : (settleInputOf s totals earningsRaw).totalEarnedMicros =
      (applyAuthoritativeTotalsToSession s totals).totalEarnedMicros := by
  unfold settleInputOf
  dsimp only
  rw [if_neg]
  intro ⟨_, hold, _⟩
  omega

theorem merged_earned_lt_iff (hnone : totals.source = .none → totals.totalEarnedMicros = 0) {k : ℤ}
    (hk : 0 < k) : (applyAuthoritativeTotalsToSession s totals).totalEarnedMicros < k ↔
      max s.totalEarnedMicros totals.totalEarnedMicros < k := by
  unfold applyAuthoritativeTotalsToSession
  dsimp only
  split
  · rename_i h
    obtain h | ⟨-, h⟩ := h
    · rw [hnone h, max_lt_iff]
      exact ⟨fun hs => ⟨hs, hk⟩, And.left⟩
    · rw [h]
  · exact Iff.rfl

/-- **The settlement of a call charged from the wallet.** -/
theorem settled_creditWithinDebit_iff (hcurrent : billingSessionSchemaVersion ≤ s.schemaVersion)
    (hs : s.totalEarnedMicros ≤ s.totalDeductedMicros)
    (ht : totals.totalEarnedMicros ≤ totals.totalDeductedMicros)
    (hnone : totals.source = .none → totals.totalEarnedMicros = 0) (hwallet : s.WalletBilled)
    (earningsRaw : ℤ) {db : SettleDb} (hd : db.debitTxn = none) (hr : db.creditTxn = none) :
    CreditWithinDebit (settleInputOf s totals earningsRaw) db ↔
      ∀ p staff c, db.payer = some p → db.creator = some staff → db.creatorUser = some c →
        CoversCredit s totals p.coins := by
  have hcredit : ∀ n, (settleInputOf s totals earningsRaw).targetCredit ≤ n ↔
      max s.totalEarnedMicros totals.totalEarnedMicros < (n + 1) * coinMicros := by
    intro n
    have hpos : (0 : ℤ) < (n + 1) * coinMicros := by
      unfold coinMicros
      omega
    rw [SettleInput.targetCredit, settled_earned hcurrent, creatorCredit_le_iff,
      merged_earned_lt_iff hnone hpos]
  have hdebit : (settleInputOf s totals earningsRaw).targetCredit ≤
      (settleInputOf s totals earningsRaw).targetWalletDebit ↔
        ∀ w, s.totalWalletDeductedMicros = some w →
          max s.totalEarnedMicros totals.totalEarnedMicros <
            (microsToUserDebitWholeCoins w + 1) * coinMicros := by
    cases hw : s.totalWalletDeductedMicros with
    | some w =>
      have htarget : (settleInputOf s totals earningsRaw).targetWalletDebit =
          microsToUserDebitWholeCoins w := by
        simp [SettleInput.targetWalletDebit, settleInputOf, hw]
      rw [htarget, hcredit]
      simp
    | none =>
      -- the wallet is charged the merged deduction, which is not below the merged earnings
      have hcharged : (settleInputOf s totals earningsRaw).walletDeductedMicros =
          max 0 ((applyAuthoritativeTotalsToSession s totals).totalDeductedMicros -
            s.introDeducted) := by
        unfold settleInputOf
        rw [hw]
        rfl
      rw [hwallet.intro, sub_zero] at hcharged
      have hmerged := apply_le hs ht
      refine ⟨fun _ w hw' => (nomatch hw'), fun _ => ?_⟩
      unfold SettleInput.targetCredit SettleInput.targetWalletDebit
      rw [settled_earned hcurrent, hcharged]
      exact credit_le_debit (hmerged.trans (le_max_right _ _))
  rw [creditWithinDebit_iff hd hr]
  constructor
  · intro h p staff c hp hs' hc
    obtain ⟨hcoins, hdebited⟩ := h p staff c hp hs' hc
    exact ⟨(hcredit _).1 hcoins, hdebit.1 hdebited⟩
  · intro h p staff c hp hs' hc
    have hcovers := h p staff c hp hs' hc
    exact ⟨(hcredit _).2 hcovers.balance, hdebit.2 hcovers.split⟩

/-- **What is paid is within what is charged.**  In every run of a call the earned total is at most
the deducted one, at every store and after every merge of later totals; and a settlement of a call
charged from the wallet credits no more coins than it debits if and only if the payer's balance and
the split of the session cover the merged earnings. -/
theorem paid_within_charged_iff (cfg : BillingConfig) (steps : List CallStep)
    (hanswers : ∀ step ∈ steps, ∀ r ∈ step.answers, r.PricedBySnapshots) :
    (∀ n s, (callRun cfg (steps.take n)).session = some s → ∀ ns : List ℕ,
      (mergeAll cfg s (ns.map fun m => callRun cfg (steps.take m))).totalEarnedMicros ≤
        (mergeAll cfg s (ns.map fun m => callRun cfg (steps.take m))).totalDeductedMicros) ∧
    ∀ n m now s earningsRaw db, settlementSession cfg (callRun cfg (steps.take n)) now = some s →
      s.WalletBilled → db.debitTxn = none → db.creditTxn = none →
      (CreditWithinDebit (settleInputOf s
          (resolveAuthoritativeSettlementTotals cfg (callRun cfg (steps.take m))) earningsRaw) db ↔
        ∀ p staff c, db.payer = some p → db.creator = some staff → db.creatorUser = some c →
          CoversCredit s
            (resolveAuthoritativeSettlementTotals cfg (callRun cfg (steps.take m))) p.coins) := by
  have hbacked : ∀ n, (callRun cfg (steps.take n)).Backed cfg := by
    intro n
    apply callRun_backed
    intro step hstep
    exact hanswers step (List.mem_of_mem_take hstep)
  refine ⟨?_, ?_⟩
  · intro n s hs ns
    apply mergeAll_le ((hbacked n).kept.session s hs).totals
    intro st hst
    obtain ⟨m, -, rfl⟩ := List.mem_map.1 hst
    exact hbacked m
  · intro n m now s earningsRaw db hs hwallet hd hr
    obtain ⟨hcurrent, hle⟩ := settlementSession_le (hbacked n) hs
    exact settled_creditWithinDebit_iff hcurrent hle (resolved_le (hbacked m)) resolved_none hwallet
      earningsRaw hd hr

end covered

/-! ### A creator paid for what the payer was not charged -/

def answersOfStart (now : ℤ) : List BillingReply :=
  List.replicate 10 (sampleReply now) ++ [{ sampleReply now with ok := false }, sampleReply now]

/-- A call at 60 coins per minute with a share of 30%, and a tick after five seconds. -/
def sampleSteps : List CallStep :=
  [.start sampleRequest (answersOfStart 1000), .tick (sampleTick 6000)]

theorem samplePricing_isSnapshot : samplePricing.IsSnapshot :=
  ⟨60, 3 / 10, by norm_num, by norm_num, by norm_num, by decide +kernel, by decide +kernel⟩

theorem sampleReply_priced (now : ℤ) (ok : Bool) :
    ({ sampleReply now with ok } : BillingReply).PricedBySnapshots where
  pricing := by
    intro p hp
    cases hp
    exact samplePricing_isSnapshot
  creator := by
    intro c hc
    cases hc
    exact samplePricing_isSnapshot

theorem sampleSteps_priced :
    ∀ step ∈ sampleSteps, ∀ r ∈ step.answers, r.PricedBySnapshots := by
  intro step hstep r hr
  simp only [sampleSteps, List.mem_cons, List.not_mem_nil, or_false] at hstep
  obtain rfl | rfl := hstep
  · simp only [CallStep.answers, answersOfStart, List.mem_append, List.mem_replicate, List.mem_cons,
      List.not_mem_nil, or_false] at hr
    obtain ⟨-, rfl⟩ | rfl | rfl := hr
    · exact sampleReply_priced 1000 true
    · exact sampleReply_priced 1000 false
    · exact sampleReply_priced 1000 true
  · simp only [CallStep.answers, sampleTick, List.mem_append, List.mem_replicate,
      List.mem_cons] at hr
    obtain ⟨-, rfl⟩ | rfl | ⟨-, rfl⟩ := hr
    · exact sampleReply_priced 6000 true
    · exact sampleReply_priced 6000 false
    · exact sampleReply_priced 6000 true

theorem paid_within_charged_sample :
    ∃ s, (callRun sampleConfig sampleSteps).session = some s ∧
      s.totalEarnedMicros ≤ s.totalDeductedMicros ∧
      CreditWithinDebit (settleInputOf s
        (resolveAuthoritativeSettlementTotals sampleConfig (callRun sampleConfig sampleSteps)) 0)
        sampleDocuments := by
  have hfigures : (callRun sampleConfig sampleSteps).session.map (fun s =>
      (s.introPromoActive, s.totalIntroDeductedMicros, s.totalWalletDeductedMicros,
        max s.totalEarnedMicros (resolveAuthoritativeSettlementTotals sampleConfig
          (callRun sampleConfig sampleSteps)).totalEarnedMicros)) =
      some (some false, some 0, some 5000000, 1500000) := by decide +kernel
  obtain ⟨s, hs, heq⟩ := Option.map_eq_some_iff.1 hfigures
  simp only [Prod.mk.injEq] at heq
  obtain ⟨hsource, hintro, hwallet, hearned⟩ := heq
  obtain ⟨htotals, hsettled⟩ := paid_within_charged_iff sampleConfig sampleSteps sampleSteps_priced
  have hread : settlementSession sampleConfig (callRun sampleConfig sampleSteps) 6000 = some s := by
    rw [settlementSession, hs]
  refine ⟨s, hs, htotals 2 s hs [], ?_⟩
  apply (hsettled 2 2 6000 s 0 sampleDocuments hread ⟨by rw [hsource]; rfl, by
    rw [CallSession.introDeducted, hintro]; rfl⟩ rfl rfl).2
  intro p staff c hp _ _
  cases hp
  refine ⟨?_, ?_⟩
  · show max s.totalEarnedMicros (resolveAuthoritativeSettlementTotals sampleConfig
      (callRun sampleConfig sampleSteps)).totalEarnedMicros < _
    rw [hearned]
    decide +kernel
  · intro w hw
    rw [hwallet] at hw
    cases hw
    show max s.totalEarnedMicros (resolveAuthoritativeSettlementTotals sampleConfig
      (callRun sampleConfig sampleSteps)).totalEarnedMicros < _
    rw [hearned]
    decide +kernel

def spentDocuments : SettleDb := { sampleDocuments with payer := some ⟨0, 0, true⟩ }

/-- The wallets after a settlement of a call charged from the wallet, with the session before some
step and the totals after another. -/
def settledWallets (n m : ℕ) (db : SettleDb) : Option (ℤ × ℤ) :=
  ((callRun sampleConfig (sampleSteps.take n)).session.filter fun s =>
    s.introPromoActive != some true && s.introDeducted == 0).bind fun s =>
    (settleTransaction (settleInputOf s (resolveAuthoritativeSettlementTotals sampleConfig
      (callRun sampleConfig (sampleSteps.take m))) 0) [Faults.none] db).map fun r =>
        (walletOf r.2.payer, creatorWalletOf r.2.creatorUser)

theorem not_creditWithinDebit {n m : ℕ} {db : SettleDb} {payer creator : ℤ}
    (h : settledWallets n m db = some (payer, creator))
    (hlt : walletOf db.payer - payer < creator - creatorWalletOf db.creatorUser) :
    ∃ s, (callRun sampleConfig (sampleSteps.take n)).session = some s ∧ s.WalletBilled ∧
      ¬ CreditWithinDebit (settleInputOf s (resolveAuthoritativeSettlementTotals sampleConfig
        (callRun sampleConfig (sampleSteps.take m))) 0) db := by
  obtain ⟨s, hfilter, hmap⟩ := Option.bind_eq_some_iff.1 h
  obtain ⟨hs, hwallet⟩ := Option.filter_eq_some_iff.1 hfilter
  obtain ⟨hsource, hintro⟩ := Bool.and_eq_true_iff.1 hwallet
  obtain ⟨r, hr, heq⟩ := Option.map_eq_some_iff.1 hmap
  obtain ⟨hpayer, hcreator⟩ := Prod.mk.inj heq
  refine ⟨s, hs, ⟨by simpa using hsource, by simpa using hintro⟩, ?_⟩
  intro hwithin
  have hle := hwithin _ r.1 r.2 hr
  omega

/-- The creator gets a coin, and the payer loses none: the coins are spent elsewhere, or the tick
charged after the settlement had read its session. -/
theorem credited_more_than_debited :
    (∃ s, (callRun sampleConfig (sampleSteps.take 2)).session = some s ∧ s.WalletBilled ∧
      ¬ CreditWithinDebit (settleInputOf s (resolveAuthoritativeSettlementTotals sampleConfig
        (callRun sampleConfig (sampleSteps.take 2))) 0) spentDocuments) ∧
    ∃ s, (callRun sampleConfig (sampleSteps.take 1)).session = some s ∧ s.WalletBilled ∧
      ¬ CreditWithinDebit (settleInputOf s (resolveAuthoritativeSettlementTotals sampleConfig
        (callRun sampleConfig (sampleSteps.take 2))) 0) sampleDocuments := by
  have hspent : settledWallets 2 2 spentDocuments = some (0, 1) := by decide +kernel
  have hraced : settledWallets 1 2 sampleDocuments = some (500, 1) := by decide +kernel
  exact ⟨not_creditWithinDebit hspent (by decide), not_creditWithinDebit hraced (by decide)⟩

end VibemeetBackend.Billing
