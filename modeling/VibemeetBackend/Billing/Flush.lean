import VibemeetBackend.Async.Environment
import VibemeetBackend.Billing.WallTime

/-!
# The flush before a settlement

`flushBillingToQuiescence` of `billing.service.ts` ticks a call up to fifty times, until less than
`MIN_BILLING_DELTA_MS` of wall time is left to bill.  A tick that consumes a pending end awaits the
finalizer, whose flush then runs under the cycle lock of that very tick.
-/

namespace VibemeetBackend.Billing

open Async

/-! ### The flush -/

/-- `MAX_SETTLEMENT_FLUSH_ITERATIONS`. -/
def maxSettlementFlushIterations : ℕ := 50

inductive FlushCaller where
  | worker
  | webhook
  /-- `consumePendingCallEndIfAny`, which a tick awaits before it releases the cycle lock. -/
  | insideTick

def FlushCaller.holdsCycleLock : FlushCaller → Bool
  | .insideTick => true
  | .worker | .webhook => false

structure FlushPass where
  /-- The clock when the lag is read before the tick. -/
  before : ℤ
  /-- No other tick of the call holds the cycle lock. -/
  lockFree : Bool
  /-- `ensureRuntimeOwnership`. -/
  owned : Bool
  pendingEnd : Bool
  /-- The rest of the answers to the commands of the tick. -/
  answers : ℕ → BillingCmd → BillingReply
  /-- The clock when the lag is read after the tick. -/
  after : ℤ

namespace FlushPass

variable (pass : FlushPass) (caller : FlushCaller)

def locks : Bool := !caller.holdsCycleLock && pass.lockFree

def reply (n : ℕ) (c : BillingCmd) : BillingReply :=
  match c with
  | .lockCycle => { pass.answers n c with ok := pass.locks caller }
  | .claimOwnership => { pass.answers n c with ok := pass.owned }
  | .consumePendingEnd => { pass.answers n c with ok := pass.pendingEnd }
  | _ => pass.answers n c

def processBillingTick (cfg : BillingConfig) (st : BillingStore) :
    BillingTickResult × BillingStore :=
  (processBillingCycleInternal cfg).under (pass.reply caller) execBilling 0 st

end FlushPass

def getBillingWallLagMs (now : ℤ) (st : BillingStore) : Option ℤ :=
  st.session.map fun s => max 0 (now - s.lastProcessedAt)

structure FlushResult where
  iterations : ℕ
  residualLagMs : ℤ
  deriving DecidableEq

def flushPasses (cfg : BillingConfig) (caller : FlushCaller) :
    List FlushPass → FlushResult → BillingStore → FlushResult × BillingStore
  | [], result, st => (result, st)
  | pass :: passes, ⟨iterations, _⟩, st =>
    match getBillingWallLagMs pass.before st with
    | none => (⟨iterations, 0⟩, st)
    | some lagBefore =>
      if lagBefore < minBillingDeltaMs then (⟨iterations, lagBefore⟩, st)
      else
        let (result, st') := pass.processBillingTick caller cfg st
        let lagAfter := (getBillingWallLagMs pass.after st').getD 0
        if result = .stopNoSession ∨ result = .stopNeedsSettlement then
          (⟨iterations + 1, lagAfter⟩, st')
        else if lagAfter < minBillingDeltaMs then (⟨iterations + 1, lagAfter⟩, st')
        else flushPasses cfg caller passes ⟨iterations + 1, lagAfter⟩ st'

def flushBillingToQuiescence (cfg : BillingConfig) (caller : FlushCaller) (passes : ℕ → FlushPass)
    (st : BillingStore) : FlushResult × BillingStore :=
  flushPasses cfg caller ((List.range maxSettlementFlushIterations).map passes) ⟨0, 0⟩ st

/-! ### The meter of a call -/

structure Meter where
  price : ℤ
  lastProcessedAt : ℤ
  deducted : ℤ
  spend : ℤ
  limit : Option ℤ
  /-- The call is neither settled nor failed. -/
  live : Bool

namespace Meter

variable (m : Meter)

def delta (maxDelta now : ℤ) : ℤ := min (max 0 (now - m.lastProcessedAt)) maxDelta

def charge (deduct : ℤ) : Meter :=
  { m with
    lastProcessedAt := m.lastProcessedAt + timeCoveredMs m.price deduct
    deducted := m.deducted + deduct
    spend := m.spend - deduct }

def advance (maxDelta now : ℤ) : Meter := m.charge (m.delta maxDelta now * m.price / 1000)

/-- The balance and the duration are enough for the time up to `last`, for a millisecond of rounding
in each tick, and for one more second. -/
structure Affords (last : ℤ) (ticks : ℕ) : Prop where
  balance : (last - m.lastProcessedAt + ticks) * m.price ≤ (m.spend - m.price) * 1000
  duration : ∀ limit, m.limit = some limit →
    (last - m.lastProcessedAt + ticks) * m.price < (limit * m.price - m.deducted) * 1000

end Meter

def fullTickMs (cfg : BillingConfig) (price : ℤ) : ℤ :=
  timeCoveredMs price (cfg.maxBillingDeltaMs * price / 1000)

section meter

variable {m : Meter} {price delta maxDelta now last : ℤ} {ticks : ℕ}

theorem timeCoveredMs_near (delta : ℤ) (hprice : 20 ≤ price) :
    delta - timeCoveredMs price (delta * price / 1000) < minBillingDeltaMs := by
  show delta - timeCoveredMs price (delta * price / 1000) < 50
  obtain rfl | hmore := hprice.eq_or_lt
  · unfold timeCoveredMs
    omega
  · have hbounds := (deduct_bounds (by omega : 0 < price)
      (le_refl (delta * price / 1000))).2.2.2
    have hcost := Int.emod_add_mul_ediv (delta * price) 1000
    have hrest := Int.emod_lt_of_pos (delta * price) (by norm_num : (0 : ℤ) < 1000)
    by_contra hnot
    have hfar : 50 * price ≤ (delta - timeCoveredMs price (delta * price / 1000)) * price :=
      mul_le_mul_of_nonneg_right (by omega) (by omega)
    have hexpand : (delta - timeCoveredMs price (delta * price / 1000)) * price =
      delta * price - price * timeCoveredMs price (delta * price / 1000) := by ring
    omega

theorem potential_pos (hprice : 20 ≤ price) (hdelta : minBillingDeltaMs ≤ delta) :
    0 < delta * price / 1000 := by
  have hcost : 50 * 20 ≤ delta * price := mul_le_mul hdelta hprice (by norm_num)
    (le_trans (by decide) hdelta)
  omega

theorem Meter.delta_le (hdelta : 0 < m.delta maxDelta now) :
    m.delta maxDelta now ≤ now - m.lastProcessedAt := by
  unfold Meter.delta at hdelta ⊢
  omega

theorem Meter.Affords.charge (h : m.Affords last (ticks + 1)) (hprice : 0 < m.price) (delta : ℤ)
    (hlast : delta ≤ last - m.lastProcessedAt) :
    delta * m.price / 1000 + m.price ≤ m.spend ∧
      (∀ limit, m.limit = some limit →
        (m.deducted + delta * m.price / 1000) / m.price < limit) ∧
      (m.charge (delta * m.price / 1000)).Affords last ticks := by
  obtain ⟨hcost, hcovered, hlow, hhigh⟩ := deduct_bounds hprice
    (le_refl (delta * m.price / 1000))
  generalize hdeduct : delta * m.price / 1000 = deduct at *
  generalize hcover : timeCoveredMs m.price deduct = covered at *
  have hcursor : (m.charge deduct).lastProcessedAt = m.lastProcessedAt + covered := by
    rw [← hcover]
    rfl
  have hbalance := h.balance
  push_cast at hbalance
  have hstep : (last - (m.lastProcessedAt + covered) + ticks) * m.price =
      (last - m.lastProcessedAt + (ticks + 1)) * m.price - m.price * covered - m.price := by ring
  have hleft : 0 ≤ (last - (m.lastProcessedAt + covered) + ticks) * m.price :=
    mul_nonneg (by omega) hprice.le
  refine ⟨by omega, ?_, ?_, ?_⟩
  · intro limit hlimit
    have hduration := h.duration limit hlimit
    push_cast at hduration
    apply Int.ediv_lt_of_lt_mul hprice
    omega
  · rw [hcursor]
    show (last - (m.lastProcessedAt + covered) + ticks) * m.price ≤
      (m.spend - deduct - m.price) * 1000
    omega
  · intro limit hlimit
    have hduration := h.duration limit hlimit
    push_cast at hduration
    rw [hcursor]
    show (last - (m.lastProcessedAt + covered) + ticks) * m.price <
      (limit * m.price - (m.deducted + deduct)) * 1000
    omega

theorem Meter.Affords.fewer (h : m.Affords last (ticks + 1)) (hprice : 0 < m.price) :
    m.Affords last ticks := by
  have hbalance := h.balance
  push_cast at hbalance
  refine ⟨?_, ?_⟩
  · linarith
  · intro limit hlimit
    have hduration := h.duration limit hlimit
    push_cast at hduration
    linarith

end meter

/-! ### A tick -/

def Meter.tick (m : Meter) (cfg : BillingConfig) (caller : FlushCaller) (pass : FlushPass)
    (now : ℤ) : BillingTickResult × Meter :=
  if pass.locks caller = false then (.tickDeferred, m)
  else if m.live = false then (.stopNoSession, m)
  else if pass.owned = false then (.tickDeferred, m)
  else if m.delta cfg.maxBillingDeltaMs now < minBillingDeltaMs then (.tickOk, m)
  else if pass.pendingEnd then (.stopNeedsSettlement, m)
  else (.tickOk, m.advance cfg.maxBillingDeltaMs now)

theorem Meter.tick_granted {m : Meter} {cfg : BillingConfig} {caller : FlushCaller}
    {pass : FlushPass} {now : ℤ} (hlocks : pass.locks caller = true) (hlive : m.live = true)
    (howned : pass.owned = true) :
    m.tick cfg caller pass now =
      if m.delta cfg.maxBillingDeltaMs now < minBillingDeltaMs then (.tickOk, m)
      else if pass.pendingEnd then (.stopNeedsSettlement, m)
      else (.tickOk, m.advance cfg.maxBillingDeltaMs now) := by
  rw [Meter.tick, hlocks, hlive, howned]
  rfl

def LoadedState.meter (l : LoadedState) (settled : Bool) : Meter where
  price := l.session.billingPrice
  lastProcessedAt := l.session.lastProcessedAt
  deducted := l.session.totalDeductedMicros
  spend := l.activeMicros
  limit := l.session.effectiveDurationLimitSeconds
  live := isNonTerminalLifecycle l.session.lifecycleState && !settled

structure LoadedState.Solvent (l : LoadedState) : Prop where
  current : billingSessionSchemaVersion ≤ l.session.schemaVersion
  intro_nonneg : 0 ≤ l.introMicros
  wallet_nonneg : 0 ≤ l.walletMicros

def BillingStore.Shows (st : BillingStore) (m : Meter) : Prop :=
  ∃ l : LoadedState, st.Has l ∧ l.Solvent ∧ l.meter st.settled = m

/-- The variables of a cycle, with the keys that they were loaded from. -/
structure TickState.Stands (t : TickState) (st : BillingStore) : Prop where
  intro : st.introMicros = some t.introMicros
  wallet : st.walletMicros = some t.walletMicros
  earnings : st.earnings.isSome
  solvent : t.toLoadedState.Solvent
  funding : t.introPromoBilling = (t.session.introPromoActive == some true)

/-- The environment of a pass whose clock stays within two bounds. -/
def FlushPass.Answered (pass : FlushPass) (caller : FlushCaller) (began last : ℤ) (c : BillingCmd)
    (r : BillingReply) : Prop :=
  match c with
  | .lockCycle => r.ok = pass.locks caller
  | .claimOwnership => r.ok = pass.owned
  | .consumePendingEnd => r.ok = pass.pendingEnd
  | .clock => began ≤ r.now ∧ r.now ≤ last
  | _ => True

section tick

variable {cfg : BillingConfig} {caller : FlushCaller} {pass : FlushPass} {began last : ℤ}
  {st : BillingStore} {l : LoadedState} {t : TickState} {m : Meter} {ticks : ℕ}

theorem meter_normalizeV4 (l : LoadedState) (settled : Bool) :
    (l.withSession l.session.normalizeV4).meter settled = l.meter settled := by
  have hactive : (l.withSession l.session.normalizeV4).activeMicros = l.activeMicros := by
    show (if some (l.session.introPromoActive.getD false) == some true then _ else _) = _
    unfold LoadedState.activeMicros
    cases l.session.introPromoActive <;> rfl
  show (⟨_, _, _, _, _, isNonTerminalLifecycle l.session.normalizeV4.lifecycleState && _⟩ : Meter) =
    _
  rw [nonTerminal_normalizeV4, hactive]
  rfl

theorem entered_stands (cfg : BillingConfig) (hl : st.Has l) (hsolvent : l.Solvent) (now : ℤ) :
    let t := (liveState cfg l.session st.introMicros st.walletMicros st.legacyCoins st.earnings
      now).enter
    t.Stands st ∧ ∀ settled, t.meter settled = l.meter settled := by
  have hlive : liveState cfg l.session st.introMicros st.walletMicros st.legacyCoins st.earnings
      now = ⟨l.session.normalizeV4, l.introMicros, l.walletMicros, max 0 l.earningsMicros⟩ := by
    simp [hl.intro, hl.wallet, hl.earnings, liveState, liveBalances,
      migrateSession_current _ _ hsolvent.current, max_eq_right hsolvent.intro_nonneg,
      max_eq_right hsolvent.wallet_nonneg]
  have hearnings : st.earnings.isSome := by
    rw [hl.earnings]
    rfl
  rw [hlive]
  constructor
  · exact ⟨hl.intro, hl.wallet, hearnings,
      ⟨hsolvent.current, hsolvent.intro_nonneg, hsolvent.wallet_nonneg⟩, rfl⟩
  · intro settled
    exact (meter_normalizeV4 (l.withSession l.session.normalizeV4) settled).trans
      (meter_normalizeV4 l settled)

theorem nonTerminal_charged (state : Option Lifecycle) :
    isNonTerminalLifecycle (chargedLifecycle state) = isNonTerminalLifecycle state := by
  cases state with
  | none => rfl
  | some state => cases state <;> rfl

theorem charge_meter (hintro : t.introPromoBilling = (t.session.introPromoActive == some true))
    (deduct : ℤ) (settled : Bool) :
    (charge t deduct).toLoadedState.meter settled =
      (t.toLoadedState.meter settled).charge deduct := by
  show (⟨_, _, _, _, _, isNonTerminalLifecycle (chargedLifecycle t.session.lifecycleState) && _⟩ :
    Meter) = _
  rw [nonTerminal_charged, charge_activeMicros hintro]
  rfl

theorem TickState.Stands.emitted (ht : t.Stands st) (now : ℤ) (r : BillingReply) :
    (execBilling (.persistSession (t.session.emitted now)) r st).Shows
      (t.toLoadedState.meter st.settled) := by
  obtain ⟨e, he⟩ := Option.isSome_iff_exists.1 ht.earnings
  have hsolvent := ht.solvent
  exact ⟨⟨t.session.emitted now, t.introMicros, t.walletMicros, e⟩,
    ⟨rfl, ht.intro, ht.wallet, he⟩,
    ⟨hsolvent.current, hsolvent.intro_nonneg, hsolvent.wallet_nonneg⟩, rfl⟩

variable {R : BillingCmd → BillingReply → Prop}

theorem meets_read {α : Type} {c : BillingCmd} {f : BillingReply × BillingStore → BillingProg α}
    {Q : α → BillingStore → Prop} (hc : c.reads = true)
    (h : ∀ r, R c r → (f (r, st)).Meets R execBilling Q st) :
    (issue c >>= f).Meets R execBilling Q st := by
  apply Prog.meets_command_bind.2
  intro r hr
  rw [execBilling_reads hc]
  exact h r hr

theorem keepalive_shows (hstands : t.Stands st) (hshows : st.Shows (t.meter st.settled)) :
    (maybeEmitBillingKeepaliveIfDue t.session).Meets R execBilling
      (fun _ st' => st'.Shows (t.meter st.settled)) st :=
  (keepalive_holds (I := (BillingStore.Shows · (t.meter st.settled))) hshows hstands.emitted).meets

theorem persistCharge_shows (hsolvent : t.Solvent)
    (hfunding : t.introPromoBilling = (t.session.introPromoActive == some true))
    (henough : t.session.billingPrice ≤ t.activeMicros) :
    (persistCharge t).Meets R execBilling
      (fun result st' => result = .tickOk ∧ st'.Shows (t.meter st.settled)) st := by
  apply Prog.meets_command_bind.2
  intro r _
  generalize hst' : execBilling
    (.persistAll .tickPersist t.session t.introMicros t.walletMicros t.earningsMicros) r st = st'
  have hshows : st'.Shows (t.meter st.settled) := by
    rw [← hst']
    exact ⟨t.toLoadedState, ⟨rfl, rfl, rfl, rfl⟩, hsolvent, rfl⟩
  have hstands : t.Stands st' := by
    rw [← hst']
    exact ⟨rfl, rfl, rfl, hsolvent, hfunding⟩
  have hsettled : st'.settled = st.settled := by
    rw [← hst']
    rfl
  have hemit := hstands.emitted
  rw [hsettled] at hemit
  apply Prog.meets_bind.2
  apply (emitUpdate_holds (I := (BillingStore.Shows · (t.meter st.settled))) hshows hemit).meets.mono
  intro _ st'' hst''
  rw [if_neg (not_lt.2 (henough.trans_eq (activeSpend_eq hfunding).symm))]
  exact ⟨rfl, hst''⟩

theorem checkpointCharge_shows (hsolvent : t.Solvent)
    (hfunding : t.introPromoBilling = (t.session.introPromoActive == some true)) :
    (checkpointCharge cfg t).Meets R execBilling
      (fun t' st' => st'.settled = st.settled ∧ t'.Solvent ∧
        t'.introPromoBilling = (t'.session.introPromoActive == some true) ∧
        t'.meter st.settled = t.meter st.settled) st := by
  unfold checkpointCharge
  split
  · apply Prog.meets_command_bind.2
    intro r _
    exact ⟨rfl, hsolvent, hfunding, rfl⟩
  · apply meets_read rfl
    intro r _
    dsimp only
    split
    · apply Prog.meets_command_bind.2
      intro r' _
      exact ⟨rfl, ⟨hsolvent.current, hsolvent.intro_nonneg, hsolvent.wallet_nonneg⟩, hfunding, rfl⟩
    · exact ⟨rfl, hsolvent, hfunding, rfl⟩

/-- **One charge** of a call that can pay for it. -/
theorem chargeTick_shows {deduct : ℤ} (hstands : t.Stands st)
    (hprice : 0 < t.session.billingPrice)
    (hbalance : deduct + t.session.billingPrice ≤ t.activeMicros)
    (hduration : ∀ limit, t.session.effectiveDurationLimitSeconds = some limit →
      (t.session.totalDeductedMicros + deduct) / t.session.billingPrice < limit) :
    (chargeTick cfg t deduct).Meets R execBilling
      (fun result st' => result = .tickOk ∧ st'.Shows ((t.meter st.settled).charge deduct)) st := by
  have hlimit : durationLimitReached (charge t deduct).session = false := by
    show t.session.effectiveDurationLimitSeconds.any _ = false
    cases hlimit : t.session.effectiveDurationLimitSeconds with
    | none => rfl
    | some limit => exact decide_eq_false (not_le.2 (hduration limit hlimit))
  have hsolvent : (charge t deduct).Solvent := by
    have hspend : deduct ≤ t.activeSpendMicros := by
      rw [activeSpend_eq hstands.funding]
      omega
    unfold TickState.activeSpendMicros at hspend
    refine ⟨hstands.solvent.current, ?_, ?_⟩
    · show 0 ≤ if t.introPromoBilling then t.introMicros - deduct else t.introMicros
      split
      · rename_i hintro
        rw [if_pos hintro] at hspend
        omega
      · exact hstands.solvent.intro_nonneg
    · show 0 ≤ if t.introPromoBilling then t.walletMicros else t.walletMicros - deduct
      split
      · exact hstands.solvent.wallet_nonneg
      · rename_i hintro
        rw [if_neg hintro] at hspend
        omega
  unfold chargeTick
  rw [hlimit, if_neg (by simp)]
  apply Prog.meets_bind.2
  apply (checkpointCharge_shows hsolvent hstands.funding).mono
  intro t' st' ht'
  obtain ⟨hsettled, hsolvent', hfunding', hmeter⟩ := ht'
  rw [charge_meter hstands.funding] at hmeter
  have hprice' : t'.session.billingPrice = t.session.billingPrice := congrArg Meter.price hmeter
  have hspend' : t'.activeMicros = t.activeMicros - deduct := congrArg Meter.spend hmeter
  rw [← hmeter, ← hsettled]
  apply persistCharge_shows hsolvent' hfunding'
  omega

/-- **A cycle with a price**, at its clock. -/
theorem pricedTick_shows {now : ℤ} (hstands : t.Stands st)
    (hshows : st.Shows (t.meter st.settled)) (hprice : 20 ≤ t.session.billingPrice)
    (hafford : (t.meter st.settled).Affords last (ticks + 1)) (hnow : now ≤ last)
    (hlocks : pass.locks caller = true) (howned : pass.owned = true)
    (hlive : (t.meter st.settled).live = true) :
    (pricedTick cfg t now).Meets (pass.Answered caller began last) execBilling
      (fun result st' => result = ((t.meter st.settled).tick cfg caller pass now).1 ∧
        st'.Shows ((t.meter st.settled).tick cfg caller pass now).2) st := by
  have hdelta : tickDeltaMs cfg t.session now =
    (t.meter st.settled).delta cfg.maxBillingDeltaMs now := rfl
  rw [Meter.tick_granted hlocks hlive howned]
  unfold pricedTick
  dsimp only
  rw [hdelta]
  by_cases hshort : (t.meter st.settled).delta cfg.maxBillingDeltaMs now < minBillingDeltaMs
  · rw [if_pos hshort, if_pos hshort]
    apply Prog.meets_bind.2
    apply (keepalive_shows hstands hshows).mono
    intro _ st' hst'
    exact ⟨rfl, hst'⟩
  rw [if_neg hshort, if_neg hshort]
  have hlong := not_lt.1 hshort
  apply meets_read rfl
  intro r hr
  have hpending : r.ok = pass.pendingEnd := hr
  dsimp only
  rw [hpending]
  by_cases hend : pass.pendingEnd = true
  · rw [if_pos hend, if_pos hend]
    exact ⟨rfl, hshows⟩
  rw [if_neg hend, if_neg hend]
  have hpos : 0 < (t.meter st.settled).delta cfg.maxBillingDeltaMs now :=
    lt_of_lt_of_le (by decide) hlong
  have hpassed := Meter.delta_le hpos
  have hpriced : 0 < (t.meter st.settled).price := lt_of_lt_of_le (by norm_num) hprice
  obtain ⟨hbalance, hduration, -⟩ := hafford.charge hpriced _ (hpassed.trans (by omega))
  have hpotential : 0 < (t.meter st.settled).delta cfg.maxBillingDeltaMs now *
    t.session.billingPrice / 1000 := potential_pos hprice hlong
  have hdeduct : actualDeduct t ((t.meter st.settled).delta cfg.maxBillingDeltaMs now) =
      (t.meter st.settled).delta cfg.maxBillingDeltaMs now * t.session.billingPrice / 1000 := by
    unfold actualDeduct
    rw [activeSpend_eq hstands.funding]
    apply min_eq_left
    have hspend : (t.meter st.settled).delta cfg.maxBillingDeltaMs now *
      t.session.billingPrice / 1000 + t.session.billingPrice ≤ t.activeMicros := hbalance
    omega
  rw [hdeduct, if_pos hpotential]
  exact chargeTick_shows hstands hpriced hbalance hduration

theorem loadedTick_shows (hbegan : began ≤ last) (hstands : t.Stands st)
    (hshows : st.Shows (t.meter st.settled)) (hprice : 20 ≤ t.session.billingPrice)
    (hafford : (t.meter st.settled).Affords last (ticks + 1))
    (hlocks : pass.locks caller = true) :
    (loadedTick cfg t false).Meets (pass.Answered caller began last) execBilling
      (fun result st' => ∃ now, began ≤ now ∧ now ≤ last ∧
        result = ((t.meter st.settled).tick cfg caller pass now).1 ∧
        st'.Shows ((t.meter st.settled).tick cfg caller pass now).2) st := by
  apply meets_read rfl
  intro _ _
  dsimp only
  have hterminal : (!isNonTerminalLifecycle t.session.lifecycleState || st.settled) =
      !(t.meter st.settled).live := by
    show _ = !(isNonTerminalLifecycle t.session.lifecycleState && !st.settled)
    rw [Bool.not_and, Bool.not_not]
  rw [hterminal]
  cases hlive : (t.meter st.settled).live with
  | false =>
    refine ⟨last, hbegan, le_rfl, ?_, ?_⟩
    · rw [Meter.tick, hlocks, hlive]
      rfl
    · rw [Meter.tick, hlocks, hlive]
      exact hshows
  | true =>
    apply meets_read rfl
    intro rc hrc
    obtain ⟨hlow, hhigh⟩ := hrc
    apply meets_read rfl
    intro ro hro
    have howner : ro.ok = pass.owned := hro
    rw [howner]
    cases howned : pass.owned with
    | false =>
      refine ⟨rc.now, hlow, hhigh, ?_, ?_⟩
      · rw [Meter.tick, hlocks, hlive, howned]
        rfl
      · rw [Meter.tick, hlocks, hlive, howned]
        exact hshows
    | true =>
      show (ownedTick cfg t rc.now).Meets _ _ _ _
      unfold ownedTick
      rw [if_pos (by omega : 0 < t.session.billingPrice)]
      apply (pricedTick_shows hstands hshows hprice hafford hhigh hlocks howned hlive).mono
      intro result st' h
      exact ⟨rc.now, hlow, hhigh, h.1, h.2⟩

/-- **One tick** of a call that can pay for it. -/
theorem tick_shows (hbegan : began ≤ last) (hshows : st.Shows m) (hprice : 20 ≤ m.price)
    (hafford : m.Affords last (ticks + 1)) :
    (processBillingCycleInternal cfg).Meets (pass.Answered caller began last) execBilling
      (fun result st' => ∃ now, began ≤ now ∧ now ≤ last ∧
        result = (m.tick cfg caller pass now).1 ∧
        st'.Shows (m.tick cfg caller pass now).2) st := by
  apply meets_read rfl
  intro r hr
  have hgranted : r.ok = pass.locks caller := hr
  dsimp only
  rw [hgranted]
  cases hlocks : pass.locks caller with
  | false =>
    refine ⟨last, hbegan, le_rfl, ?_, ?_⟩
    · rw [Meter.tick, hlocks]
      rfl
    · rw [Meter.tick, hlocks]
      exact hshows
  | true =>
    obtain ⟨l, hl, hsolvent, rfl⟩ := hshows
    show (loadTickState cfg >>= _).Meets _ _ _ _
    apply Prog.meets_bind.2
    apply (loadTickState_live (I := fun _ => True) trivial hl.session hsolvent.current
      hl.keys).meets.mono
    intro loaded st' hloaded
    obtain ⟨rfl, now, rfl⟩ := hloaded
    obtain ⟨hstands, hentered⟩ := entered_stands cfg hl hsolvent now
    rw [← hentered st'.settled] at hprice hafford ⊢
    exact loadedTick_shows hbegan hstands ⟨l, hl, hsolvent, (hentered _).symm⟩ hprice hafford hlocks

/-- **One pass** of a flush ticks the meter. -/
theorem processBillingTick_shows (cfg : BillingConfig) (caller : FlushCaller)
    (hanswers : ∀ n, began ≤ (pass.answers n .clock).now ∧
      (pass.answers n .clock).now ≤ last) (hbegan : began ≤ last) (hshows : st.Shows m)
    (hprice : 20 ≤ m.price) (hafford : m.Affords last (ticks + 1)) :
    ∃ now, began ≤ now ∧ now ≤ last ∧
      (pass.processBillingTick caller cfg st).1 = (m.tick cfg caller pass now).1 ∧
      (pass.processBillingTick caller cfg st).2.Shows (m.tick cfg caller pass now).2 := by
  apply Prog.under_meets (R := pass.Answered caller began last) _
    (tick_shows hbegan hshows hprice hafford)
  intro n c
  cases c <;> first | exact hanswers n | trivial

end tick

/-! ### What a flush bills -/

/-- All but less than the shortest time that is billed is billed up to `began`. -/
def BillingStore.BilledUpTo (st : BillingStore) (began : ℤ) : Prop :=
  ∃ s ∈ st.session, began - s.lastProcessedAt < minBillingDeltaMs

def chargingPasses (caller : FlushCaller) : List FlushPass → ℕ
  | [] => 0
  | pass :: passes =>
    if pass.locks caller && pass.owned then
      if pass.pendingEnd then 0 else chargingPasses caller passes + 1
    else chargingPasses caller passes

def Meter.charges (m : Meter) (caller : FlushCaller) (passes : List FlushPass) : ℕ :=
  if m.live then chargingPasses caller passes else 0

/-- The time that is billed when every pass that charges covers all it may. -/
def Meter.reach (m : Meter) (cfg : BillingConfig) (caller : FlushCaller) (passes : List FlushPass) :
    ℤ :=
  m.charges caller passes * fullTickMs cfg m.price

structure FlushPass.Within (pass : FlushPass) (began last : ℤ) : Prop where
  before : began ≤ pass.before
  after : began ≤ pass.after
  answers : ∀ n, began ≤ (pass.answers n .clock).now ∧ (pass.answers n .clock).now ≤ last

section flush

variable {cfg : BillingConfig} {caller : FlushCaller} {pass : FlushPass} {passes : List FlushPass}
  {began last now : ℤ} {st : BillingStore} {l : LoadedState} {m : Meter} {ticks : ℕ}

theorem fullTickMs_near (cfg : BillingConfig) (hprice : 20 ≤ m.price) :
    cfg.maxBillingDeltaMs < fullTickMs cfg m.price + minBillingDeltaMs := by
  have hnear := timeCoveredMs_near cfg.maxBillingDeltaMs hprice
  unfold fullTickMs
  omega

theorem fullTickMs_nonneg (cfg : BillingConfig) (hprice : 20 ≤ m.price) : 0 ≤ fullTickMs cfg m.price := by
  have hnear := fullTickMs_near cfg hprice
  have hmax := cfg.maxBillingDelta_ge
  unfold minBillingDeltaMs at hnear
  omega

theorem Meter.reach_nonneg (cfg : BillingConfig) (caller : FlushCaller) (passes : List FlushPass)
    (hprice : 20 ≤ m.price) : 0 ≤ m.reach cfg caller passes :=
  mul_nonneg (Int.natCast_nonneg _) (fullTickMs_nonneg cfg hprice)

theorem Meter.advance_cases (cfg : BillingConfig) (hprice : 20 ≤ m.price) (hbegan : began ≤ now) :
    (cfg.maxBillingDeltaMs ≤ began - m.lastProcessedAt →
      (m.advance cfg.maxBillingDeltaMs now).lastProcessedAt =
        m.lastProcessedAt + fullTickMs cfg m.price) ∧
    (began - m.lastProcessedAt < cfg.maxBillingDeltaMs →
      began - (m.advance cfg.maxBillingDeltaMs now).lastProcessedAt < minBillingDeltaMs) := by
  have hcursor : (m.advance cfg.maxBillingDeltaMs now).lastProcessedAt = m.lastProcessedAt +
    timeCoveredMs m.price (m.delta cfg.maxBillingDeltaMs now * m.price / 1000) := rfl
  constructor
  · intro hfar
    have hmax := cfg.maxBillingDelta_ge
    have hdelta : m.delta cfg.maxBillingDeltaMs now = cfg.maxBillingDeltaMs := by
      unfold Meter.delta
      omega
    rw [hcursor, hdelta]
    rfl
  · intro hnear
    have hdelta : began - m.lastProcessedAt ≤ m.delta cfg.maxBillingDeltaMs now := by
      unfold Meter.delta
      omega
    have hrest := timeCoveredMs_near (m.delta cfg.maxBillingDeltaMs now) hprice
    omega

/-- **One tick and the reach of the passes.**  A tick that stops the flush leaves nothing to the
passes after it; any other leaves them what it has not billed itself. -/
theorem Meter.tick_reach (cfg : BillingConfig) (caller : FlushCaller) (pass : FlushPass)
    (passes : List FlushPass) (hprice : 20 ≤ m.price) (hbegan : began ≤ now) :
    (m.tick cfg caller pass now).2.price = m.price ∧
    (if (m.tick cfg caller pass now).1 = .stopNoSession ∨
        (m.tick cfg caller pass now).1 = .stopNeedsSettlement then
      began - (m.tick cfg caller pass now).2.lastProcessedAt < minBillingDeltaMs ↔
        began - m.lastProcessedAt < m.reach cfg caller (pass :: passes) + minBillingDeltaMs
    else
      began - (m.tick cfg caller pass now).2.lastProcessedAt <
          (m.tick cfg caller pass now).2.reach cfg caller passes + minBillingDeltaMs ↔
        began - m.lastProcessedAt < m.reach cfg caller (pass :: passes) + minBillingDeltaMs) := by
  have hmax := cfg.maxBillingDelta_ge
  cases hlocks : pass.locks caller with
  | false =>
    have hreach : m.reach cfg caller (pass :: passes) = m.reach cfg caller passes := by
      simp [Meter.reach, Meter.charges, chargingPasses, hlocks]
    have htick : m.tick cfg caller pass now = (.tickDeferred, m) := by
      rw [Meter.tick, hlocks]
      rfl
    rw [htick, hreach, if_neg (by simp)]
    exact ⟨rfl, Iff.rfl⟩
  | true =>
  cases hlive : m.live with
  | false =>
    have hreach : m.reach cfg caller (pass :: passes) = 0 := by
      simp [Meter.reach, Meter.charges, hlive]
    have htick : m.tick cfg caller pass now = (.stopNoSession, m) := by
      rw [Meter.tick, hlocks, hlive]
      rfl
    rw [htick, hreach, if_pos (by simp), zero_add]
    exact ⟨rfl, Iff.rfl⟩
  | true =>
  cases howned : pass.owned with
  | false =>
    have hreach : m.reach cfg caller (pass :: passes) = m.reach cfg caller passes := by
      simp [Meter.reach, Meter.charges, chargingPasses, howned]
    have htick : m.tick cfg caller pass now = (.tickDeferred, m) := by
      rw [Meter.tick, hlocks, hlive, howned]
      rfl
    rw [htick, hreach, if_neg (by simp)]
    exact ⟨rfl, Iff.rfl⟩
  | true =>
  rw [Meter.tick_granted hlocks hlive howned]
  by_cases hshort : m.delta cfg.maxBillingDeltaMs now < minBillingDeltaMs
  · -- the lag is too short to bill, whatever the passes after this one do
    rw [if_pos hshort, if_neg (by simp)]
    refine ⟨rfl, ?_⟩
    have hbilled : began - m.lastProcessedAt < minBillingDeltaMs := by
      unfold Meter.delta at hshort
      unfold minBillingDeltaMs at hshort ⊢
      omega
    have hreach := Meter.reach_nonneg cfg caller passes hprice
    have hreach' := Meter.reach_nonneg cfg caller (pass :: passes) hprice
    constructor
    · intro _
      omega
    · intro _
      show began - m.lastProcessedAt < m.reach cfg caller passes + minBillingDeltaMs
      omega
  rw [if_neg hshort]
  cases hend : pass.pendingEnd with
  | true =>
    have hreach : m.reach cfg caller (pass :: passes) = 0 := by
      simp [Meter.reach, Meter.charges, chargingPasses, hlocks, howned, hend]
    rw [if_pos rfl, hreach, if_pos (by simp), zero_add]
    exact ⟨rfl, Iff.rfl⟩
  | false =>
    refine ⟨rfl, ?_⟩
    obtain ⟨hfar, hnear⟩ := Meter.advance_cases cfg hprice hbegan
    have hreach : m.reach cfg caller (pass :: passes) =
        m.reach cfg caller passes + fullTickMs cfg m.price := by
      simp only [Meter.reach, Meter.charges, chargingPasses, hlocks, howned, hend, hlive]
      simp only [Bool.and_self, if_true, Bool.false_eq_true, if_false]
      push_cast
      ring
    have hrest : (m.advance cfg.maxBillingDeltaMs now).reach cfg caller passes =
      m.reach cfg caller passes := rfl
    have hnonneg := Meter.reach_nonneg cfg caller passes hprice
    have hfull := fullTickMs_near cfg hprice
    show began - (m.advance cfg.maxBillingDeltaMs now).lastProcessedAt <
      (m.advance cfg.maxBillingDeltaMs now).reach cfg caller passes + minBillingDeltaMs ↔ _
    obtain hlag | hlag := le_or_gt cfg.maxBillingDeltaMs (began - m.lastProcessedAt)
    · constructor <;> intro _ <;> omega
    · have hbilled := hnear hlag
      constructor <;> intro _ <;> omega

theorem Meter.Affords.tick (h : m.Affords last (ticks + 1)) (cfg : BillingConfig)
    (caller : FlushCaller) (pass : FlushPass) (hprice : 0 < m.price)
    (hnow : now ≤ last) : (m.tick cfg caller pass now).2.Affords last ticks := by
  unfold Meter.tick
  repeat' split
  all_goals try exact h.fewer hprice
  rename_i hlong _
  have hpos : 0 < m.delta cfg.maxBillingDeltaMs now := lt_of_lt_of_le (by decide) (not_lt.1 hlong)
  have hpassed := Meter.delta_le hpos
  exact (h.charge hprice _ (hpassed.trans (by omega))).2.2

theorem BillingStore.Shows.lag (h : st.Shows m) (now : ℤ) :
    getBillingWallLagMs now st = some (max 0 (now - m.lastProcessedAt)) := by
  obtain ⟨l, hl, -, rfl⟩ := h
  unfold getBillingWallLagMs
  rw [hl.session]
  rfl

theorem BillingStore.Shows.billedUpTo (h : st.Shows m) :
    st.BilledUpTo began ↔ began - m.lastProcessedAt < minBillingDeltaMs := by
  obtain ⟨l, hl, -, rfl⟩ := h
  unfold BillingStore.BilledUpTo
  rw [hl.session]
  simp only [Option.mem_def, Option.some.injEq, exists_eq_left']
  rfl

/-- **The passes of a flush** bill the time before it exactly when it is within their reach. -/
theorem flushPasses_billed (cfg : BillingConfig) (caller : FlushCaller) (hbegan : began ≤ last) (passes : List FlushPass) (result : FlushResult)
    (hshows : st.Shows m) (hprice : 20 ≤ m.price) (hafford : m.Affords last passes.length)
    (hclock : ∀ pass ∈ passes, pass.Within began last) :
    (∃ m', (flushPasses cfg caller passes result st).2.Shows m') ∧
      ((flushPasses cfg caller passes result st).2.BilledUpTo began ↔
        began - m.lastProcessedAt < m.reach cfg caller passes + minBillingDeltaMs) := by
  induction passes generalizing result st m with
  | nil =>
    have hreach : m.reach cfg caller [] = 0 := by simp [Meter.reach, Meter.charges, chargingPasses]
    rw [hreach, zero_add]
    exact ⟨⟨m, hshows⟩, hshows.billedUpTo⟩
  | cons pass passes ih =>
    have hpass := hclock pass List.mem_cons_self
    have hreach := Meter.reach_nonneg cfg caller (pass :: passes) hprice
    unfold flushPasses
    rw [hshows.lag]
    dsimp only
    by_cases hdone : max 0 (pass.before - m.lastProcessedAt) < minBillingDeltaMs
    · rw [if_pos hdone]
      refine ⟨⟨m, hshows⟩, ?_⟩
      rw [hshows.billedUpTo]
      have hbefore := hpass.before
      constructor <;> intro _ <;> omega
    rw [if_neg hdone]
    obtain ⟨now, hlow, hhigh, hresult, hshows'⟩ := processBillingTick_shows cfg caller
      hpass.answers hbegan hshows hprice hafford
    obtain ⟨hprice', htick⟩ := Meter.tick_reach cfg caller pass passes hprice hlow
    have hafford' := hafford.tick cfg caller pass
      (lt_of_lt_of_le (by norm_num) hprice) hhigh
    rw [hresult, hshows'.lag]
    by_cases hstop : (m.tick cfg caller pass now).1 = .stopNoSession ∨
        (m.tick cfg caller pass now).1 = .stopNeedsSettlement
    · rw [if_pos hstop] at htick ⊢
      refine ⟨⟨_, hshows'⟩, ?_⟩
      rw [hshows'.billedUpTo]
      exact htick
    rw [if_neg hstop] at htick ⊢
    have hnonneg := Meter.reach_nonneg cfg caller passes (hprice.trans_eq hprice'.symm)
    dsimp only [Option.getD_some]
    by_cases hquiet :
        max 0 (pass.after - (m.tick cfg caller pass now).2.lastProcessedAt) < minBillingDeltaMs
    · rw [if_pos hquiet]
      refine ⟨⟨_, hshows'⟩, ?_⟩
      rw [hshows'.billedUpTo, ← htick]
      have hafter := hpass.after
      constructor <;> intro _ <;> omega
    · rw [if_neg hquiet, ← htick]
      apply ih _ hshows' (hprice.trans_eq hprice'.symm) hafford'
      intro pass' hmem
      exact hclock pass' (List.mem_cons_of_mem pass hmem)

theorem flushPasses_residual (cfg : BillingConfig) (caller : FlushCaller) (passes : List FlushPass) (hsome : passes ≠ []) (result : FlushResult)
    (st : BillingStore) :
    ∃ pass ∈ passes, ∃ now, (now = pass.before ∨ now = pass.after) ∧
      (flushPasses cfg caller passes result st).1.residualLagMs =
        (getBillingWallLagMs now (flushPasses cfg caller passes result st).2).getD 0 := by
  induction passes generalizing result st with
  | nil => exact absurd rfl hsome
  | cons pass passes ih =>
    unfold flushPasses
    split
    · rename_i hnone
      exact ⟨pass, List.mem_cons_self, pass.before, .inl rfl, by rw [hnone]; rfl⟩
    rename_i lag hlag
    split
    · exact ⟨pass, List.mem_cons_self, pass.before, .inl rfl, by rw [hlag]; rfl⟩
    dsimp only
    split
    · exact ⟨pass, List.mem_cons_self, pass.after, .inr rfl, rfl⟩
    split
    · exact ⟨pass, List.mem_cons_self, pass.after, .inr rfl, rfl⟩
    cases passes with
    | nil => exact ⟨pass, List.mem_cons_self, pass.after, .inr rfl, rfl⟩
    | cons pass' passes =>
      obtain ⟨found, hmem, hfound⟩ := ih (List.cons_ne_nil _ _) ⟨_, _⟩ _
      exact ⟨found, List.mem_cons_of_mem pass hmem, hfound⟩

theorem flushPasses_length (passes : ℕ → FlushPass) :
    ((List.range maxSettlementFlushIterations).map passes).length =
      maxSettlementFlushIterations := by
  rw [List.length_map, List.length_range]

end flush

/-! ### When a flush reaches quiescence -/

def samplePass : FlushPass where
  before := 11000
  lockFree := true
  owned := true
  pendingEnd := false
  answers := fun _ _ => sampleReply 11000
  after := 11000

theorem samplePass_within : samplePass.Within 11000 11000 :=
  ⟨le_rfl, le_rfl, fun _ => ⟨le_rfl, le_rfl⟩⟩

theorem samplePromotion_affords :
    ∃ l : LoadedState, samplePromotion.1.Has l ∧ l.Solvent ∧ l.session.billingPrice = 1000000 ∧
      l.session.lastProcessedAt = 1000 ∧ (l.meter samplePromotion.1.settled).live = true ∧
      (l.meter samplePromotion.1.settled).Affords 11000 maxSettlementFlushIterations := by
  have hsession : ∃ s ∈ samplePromotion.1.session, s.schemaVersion = 4 ∧ s.billingPrice = 1000000 ∧
      s.lastProcessedAt = 1000 ∧ s.totalDeductedMicros = 0 ∧
      s.effectiveDurationLimitSeconds = some 3600 ∧ s.introPromoActive = some false ∧
      s.lifecycleState = some .starting := by decide +kernel
  obtain ⟨s, hs, hschema, hprice, hcursor, hdeducted, hlimit, hintro, hstate⟩ := hsession
  have hkeys : samplePromotion.1.introMicros = some 0 ∧
      samplePromotion.1.walletMicros = some 500000000 ∧ samplePromotion.1.earnings = some 0 ∧
      samplePromotion.1.settled = false := by decide +kernel
  obtain ⟨hintroMicros, hwalletMicros, hearnings, hsettled⟩ := hkeys
  have hactive : (⟨s, 0, 500000000, 0⟩ : LoadedState).activeMicros = 500000000 := by
    simp [LoadedState.activeMicros, hintro]
  refine ⟨⟨s, 0, 500000000, 0⟩, ⟨hs, hintroMicros, hwalletMicros, hearnings⟩,
    ⟨hschema.ge, le_rfl, by norm_num⟩, hprice, hcursor, ?_, ?_, ?_⟩
  · show (isNonTerminalLifecycle s.lifecycleState && !false) = true
    rw [hstate]
    rfl
  · show (11000 - s.lastProcessedAt + (50 : ℕ)) * s.billingPrice ≤
      ((⟨s, 0, 500000000, 0⟩ : LoadedState).activeMicros - s.billingPrice) * 1000
    rw [hactive, hcursor, hprice]
    norm_num
  · intro limit hsome
    have hlimit' : some 3600 = some limit := hlimit.symm.trans hsome
    cases hlimit'
    show (11000 - s.lastProcessedAt + (50 : ℕ)) * s.billingPrice <
      (3600 * s.billingPrice - s.totalDeductedMicros) * 1000
    rw [hcursor, hprice, hdeducted]
    norm_num

/-- **When a flush reaches quiescence.**  All but less than `MIN_BILLING_DELTA_MS` of the time before
the flush is billed exactly when that time is within the reach of its passes: one full tick for each
that is granted the cycle lock and owns the runtime, before one finds a pending end; none for a flush
inside a tick or a call that is settled.  The residual lag it returns says so when the clock stands
still. -/
theorem flush_billed_iff (cfg : BillingConfig) (caller : FlushCaller) (passes : ℕ → FlushPass)
    {st : BillingStore} {l : LoadedState} {last : ℤ} (hst : st.Has l) (hsolvent : l.Solvent) (hprice : 20 ≤ l.session.billingPrice)
    (hafford : (l.meter st.settled).Affords last maxSettlementFlushIterations)
    (hbegan : (passes 0).before ≤ last) (hclock : ∀ i, (passes i).Within (passes 0).before last) :
    ((flushBillingToQuiescence cfg caller passes st).2.BilledUpTo (passes 0).before ↔
      (passes 0).before - l.session.lastProcessedAt < (l.meter st.settled).reach cfg caller
        ((List.range maxSettlementFlushIterations).map passes) + minBillingDeltaMs) ∧
    ((∀ i, (passes i).before = (passes 0).before ∧ (passes i).after = (passes 0).before) →
      ((flushBillingToQuiescence cfg caller passes st).1.residualLagMs < minBillingDeltaMs ↔
        (passes 0).before - l.session.lastProcessedAt < (l.meter st.settled).reach cfg caller
          ((List.range maxSettlementFlushIterations).map passes) + minBillingDeltaMs)) := by
  have hshows : st.Shows (l.meter st.settled) := ⟨l, hst, hsolvent, rfl⟩
  have hpasses : ∀ pass ∈ (List.range maxSettlementFlushIterations).map passes,
      pass.Within (passes 0).before last := by
    intro pass hmem
    obtain ⟨i, -, rfl⟩ := List.mem_map.1 hmem
    exact hclock i
  have hlength := flushPasses_length passes
  obtain ⟨⟨m', hshows'⟩, hiff⟩ := flushPasses_billed cfg caller hbegan _ ⟨0, 0⟩
    hshows hprice (by rw [hlength]; exact hafford) hpasses
  refine ⟨hiff, ?_⟩
  intro hstill
  have hsome : (List.range maxSettlementFlushIterations).map passes ≠ [] := by
    apply List.ne_nil_of_length_pos
    rw [hlength]
    decide
  obtain ⟨pass, hmem, now, hnow, hresidual⟩ :=
    flushPasses_residual cfg caller _ hsome ⟨0, 0⟩ st
  obtain ⟨i, -, rfl⟩ := List.mem_map.1 hmem
  have hread : now = (passes 0).before := by
    obtain ⟨hbefore, hafter⟩ := hstill i
    obtain rfl | rfl := hnow
    · exact hbefore
    · exact hafter
  rw [hread, hshows'.lag] at hresidual
  apply Iff.trans _ hiff
  rw [hshows'.billedUpTo]
  show (flushPasses cfg caller _ ⟨0, 0⟩ st).1.residualLagMs < _ ↔ _
  rw [hresidual]
  dsimp only [Option.getD_some]
  unfold minBillingDeltaMs
  constructor <;> intro _ <;> omega

theorem flush_billed_sample :
    (flushBillingToQuiescence sampleConfig .worker (fun _ => samplePass)
        samplePromotion.1).2.BilledUpTo 11000 ∧
      (flushBillingToQuiescence sampleConfig .worker (fun _ => samplePass)
        samplePromotion.1).1.residualLagMs < minBillingDeltaMs := by
  obtain ⟨l, hhas, hsolvent, hprice, hcursor, hlive, hafford⟩ := samplePromotion_affords
  obtain ⟨hbilled, hresidual⟩ := flush_billed_iff sampleConfig .worker (fun _ => samplePass) hhas
    hsolvent (by rw [hprice]; norm_num) hafford le_rfl fun _ => samplePass_within
  have hreach : (l.meter samplePromotion.1.settled).reach sampleConfig .worker
      ((List.range maxSettlementFlushIterations).map fun _ => samplePass) = 250000 := by
    have hprice' : (l.meter samplePromotion.1.settled).price = 1000000 := hprice
    rw [Meter.reach, Meter.charges, hlive, hprice']
    decide
  rw [hreach, hcursor] at hbilled hresidual
  exact ⟨hbilled.2 (by decide), (hresidual fun _ => ⟨rfl, rfl⟩).2 (by decide)⟩

/-- The same flush inside a tick of the call returns a lag of ten seconds after fifty passes. -/
theorem flush_insideTick_unbilled :
    (∃ l : LoadedState, samplePromotion.1.Has l ∧ l.Solvent ∧ 0 < l.session.billingPrice ∧
      (l.meter samplePromotion.1.settled).Affords 11000 maxSettlementFlushIterations ∧
      11000 - l.session.lastProcessedAt ≤
        maxSettlementFlushIterations * sampleConfig.maxBillingDeltaMs) ∧
    (flushBillingToQuiescence sampleConfig .insideTick (fun _ => samplePass)
      samplePromotion.1).1 = ⟨50, 10000⟩ ∧
    ¬ (flushBillingToQuiescence sampleConfig .insideTick (fun _ => samplePass)
      samplePromotion.1).2.BilledUpTo 11000 := by
  refine ⟨?_, by decide +kernel, ?_⟩
  · obtain ⟨l, hhas, hsolvent, hprice, hcursor, -, hafford⟩ := samplePromotion_affords
    refine ⟨l, hhas, hsolvent, by rw [hprice]; norm_num, hafford, ?_⟩
    rw [hcursor]
    decide
  · unfold BillingStore.BilledUpTo
    decide +kernel

end VibemeetBackend.Billing
