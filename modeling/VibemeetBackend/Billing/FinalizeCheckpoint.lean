import VibemeetBackend.Billing.DurationLimit
import VibemeetBackend.Billing.Recovery

/-!
# Finalization of a call whose session is gone

`checkpointLifecycleState` of `billing-session-finalization.service.ts` rebuilds the session of a
call from its checkpoint, as a record of schema version 1.  The flush ticks that follow migrate it.
-/

namespace VibemeetBackend.Billing

open Async

/-! ### `checkpointLifecycleState` -/

def reachedOrBeyondSettling (state : Lifecycle) : Bool :=
  state == .settling || state == .settled || state == .failedRecoverySettlement

def transitionPlan (target current : Lifecycle) : List Lifecycle :=
  if target = .settling ∧ (current = .active ∨ current = .recovering ∨ current = .starting) then
    [.ending, .settling]
  else [target]

/-- The state at the end of a plan, `none` when a transition of it is blocked. -/
def followPlan (target : Lifecycle) : Lifecycle → List Lifecycle → Option Lifecycle
  | state, [] => some state
  | state, next :: rest =>
    if (transitionBillingState state next).2 then
      followPlan target (transitionBillingState state next).1 rest
    else if target = .settling ∧ reachedOrBeyondSettling state then some state
    else none

/-- The record rebuilt from a checkpoint, before the authoritative totals. -/
def finalizerSession (cp : Checkpoint) (now : ℤ) : CallSession where
  schemaVersion := 1
  initialIntroMicros := none
  initialWalletMicros := none
  billingPricePerSecondMicros := none
  introPromoActive := none
  totalIntroDeductedMicros := none
  totalWalletDeductedMicros := none
  userFirebaseUid := cp.userFirebaseUid
  creatorFirebaseUid := cp.creatorFirebaseUid
  userMongoId := cp.userMongoId
  creatorMongoId := cp.creatorMongoId
  pricePerMinute := 0
  pricePerSecondMicros := max 0 cp.pricePerSecondMicros
  creatorEarningsPerSecondMicros := some (max 0 cp.creatorEarningsPerSecondMicros)
  startTime := numOr cp.startTimeMs now
  lastProcessedAt := numOr cp.lastProcessedAtMs now
  version := max 1 cp.version
  billingSequence := max 0 cp.billingSequence
  lifecycleState := some cp.lifecycleState
  totalDeductedMicros := max 0 cp.totalDeductedMicros
  totalEarnedMicros := max 0 cp.totalEarnedMicros
  elapsedSeconds := 0
  effectiveDurationLimitSeconds := none
  lastCheckpointAtMs := 0
  lastCheckpointDeductedMicros := none
  lastCheckpointEarnedMicros := none
  lastEmitAtMs := none
  lastSocketEmitAt := none
  pricePerSecond := 0
  creatorEarningsPerSecond := 0

def reconstructedSession (cfg : BillingConfig) (now : ℤ) (st : RuntimeStore) : Option CallSession :=
  (st.checkpoint.filter Checkpoint.hasIdentities).map fun cp =>
    applyAuthoritativeTotalsToSession (finalizerSession cp now)
      (resolveAuthoritativeSettlementTotals cfg st)

def finalizerSnapshot (s : CallSession) (remaining now : ℤ) (state : Lifecycle)
    (status : CheckpointStatus) : CheckpointSnapshot :=
  { s.snapshot remaining with
    startTimeMs := numOr s.startTime now
    lastProcessedAtMs := numOr s.lastProcessedAt now
    pricePerSecondMicros := max 0 s.pricePerSecondMicros
    creatorEarningsPerSecondMicros := max 0 (s.creatorEarningsPerSecondMicros.getD 0)
    totalDeductedMicros := max 0 s.totalDeductedMicros
    totalEarnedMicros := max 0 s.totalEarnedMicros
    billingSequence := max 0 s.billingSequence
    lifecycleState := state
    status }

def remainingBalance (st : RuntimeStore) : ℤ :=
  max 0 (st.introMicros.getD 0) + max 0 (st.walletMicros.getD 0)

/-- An attempt with a session: whether it converged, `none` for another attempt. -/
def convergeSession (target : Lifecycle) (status : CheckpointStatus) (now : ℤ) (s : CallSession)
    (st : RuntimeStore) : Option Bool × RuntimeStore :=
  let current := s.lifecycleState.getD .active
  match followPlan target current (transitionPlan target current) with
  | none => (none, { st with session := some s })
  | some next =>
    (some (if target = .settling then reachedOrBeyondSettling next else next == target),
      { st with
        session := some { s with lifecycleState := some next }
        checkpoint := upsertBillingCheckpointSnapshot
          (finalizerSnapshot s (remainingBalance st) now next status) st.checkpoint })

def CallSession.hasParties (s : CallSession) : Bool :=
  !s.userMongoId.isEmpty && !s.creatorMongoId.isEmpty && !s.userFirebaseUid.isEmpty &&
    !s.creatorFirebaseUid.isEmpty

def checkpointAttempt (cfg : BillingConfig) (target : Lifecycle) (status : CheckpointStatus)
    (now : ℤ) (st : RuntimeStore) : Option Bool × RuntimeStore :=
  match st.session with
  | some s => if s.hasParties then convergeSession target status now s st else (none, st)
  | none =>
    match reconstructedSession cfg now st with
    | some s => convergeSession target status now s st
    | none => (none, st)

def checkpointLifecycleState (cfg : BillingConfig) (target : Lifecycle) (status : CheckpointStatus)
    (now : ℤ) : ℕ → RuntimeStore → Bool × RuntimeStore
  | 0, st => (false, st)
  | attempts + 1, st =>
    match checkpointAttempt cfg target status now st with
    | (some converged, st') => (converged, st')
    | (none, st') => checkpointLifecycleState cfg target status now attempts st'

/-! ### What the finalizer leaves -/

structure FromCheckpoint (cp : Checkpoint) (s : CallSession) : Prop where
  schema : s.schemaVersion = 1
  introSplit : s.totalIntroDeductedMicros = none
  walletSplit : s.totalWalletDeductedMicros = none
  price : s.billingPrice = max 0 cp.pricePerSecondMicros
  legacyPrice : s.pricePerSecond = 0
  deducted : cp.totalDeductedMicros ≤ s.totalDeductedMicros
  earned : cp.totalEarnedMicros ≤ s.totalEarnedMicros
  user : s.userMongoId = cp.userMongoId
  creator : s.creatorMongoId = cp.creatorMongoId
  userUid : s.userFirebaseUid = cp.userFirebaseUid
  creatorUid : s.creatorFirebaseUid = cp.creatorFirebaseUid

variable {cfg : BillingConfig} {target : Lifecycle} {status : CheckpointStatus} {now : ℤ}
  {cp : Checkpoint} {s : CallSession} {st : RuntimeStore}

theorem FromCheckpoint.hasParties (h : FromCheckpoint cp s) (hids : cp.hasIdentities = true) :
    s.hasParties = true := by
  rw [CallSession.hasParties, h.user, h.creator, h.userUid, h.creatorUid]
  exact hids

theorem reconstructedSession_spec (cfg : BillingConfig) (now : ℤ) (hcp : st.checkpoint = some cp) (hids : cp.hasIdentities = true) :
    ∃ s, reconstructedSession cfg now st = some s ∧ FromCheckpoint cp s := by
  refine ⟨_, by rw [reconstructedSession, hcp, Option.filter_some_pos hids]; rfl, ?_⟩
  have hge := apply_ge (finalizerSession cp now) (resolveAuthoritativeSettlementTotals cfg st)
  obtain ⟨d, e, q, el, happly⟩ := apply_frame (finalizerSession cp now)
    (resolveAuthoritativeSettlementTotals cfg st)
  show FromCheckpoint cp (applyAuthoritativeTotalsToSession (finalizerSession cp now)
    (resolveAuthoritativeSettlementTotals cfg st))
  rw [happly] at hge ⊢
  exact ⟨rfl, rfl, rfl, rfl, rfl, (le_max_right _ _).trans hge.1, (le_max_right _ _).trans hge.2,
    rfl, rfl, rfl, rfl⟩

/-- What a finalizer may leave: the rebuilt record, the balance keys as they were and, when it
converged, a checkpoint of the remaining balance. -/
structure Finalized (cp : Checkpoint) (st : RuntimeStore) (converged : Bool) (st' : RuntimeStore) :
    Prop where
  session : ∃ s, st'.session = some s ∧ FromCheckpoint cp s
  intro : st'.introMicros = st.introMicros
  wallet : st'.walletMicros = st.walletMicros
  legacy : st'.legacyCoins = st.legacyCoins
  checkpoint : converged = true → ∃ cp', st'.checkpoint = some cp' ∧
    cp'.remainingUserBalanceMicros = remainingBalance st

theorem upsertSnapshot_remaining (data : CheckpointSnapshot) (doc : Option Checkpoint) :
    ∃ d, upsertBillingCheckpointSnapshot data doc = some d ∧
      d.remainingUserBalanceMicros = data.remainingUserBalanceMicros := by
  cases doc with
  | none => exact ⟨_, upsertSnapshot_none data, rfl⟩
  | some d => exact ⟨_, upsertSnapshot_some data d, rfl⟩

theorem convergeSession_spec (target : Lifecycle) (status : CheckpointStatus) (now : ℤ)
    (st : RuntimeStore) (hs : FromCheckpoint cp s) :
    Finalized cp st ((convergeSession target status now s st).1.getD false)
      (convergeSession target status now s st).2 := by
  unfold convergeSession
  dsimp only
  split
  · exact ⟨⟨s, rfl, hs⟩, rfl, rfl, rfl, fun h => nomatch h⟩
  · rename_i next _
    refine ⟨⟨_, rfl, ?_⟩, rfl, rfl, rfl, fun _ => ?_⟩
    · exact ⟨hs.schema, hs.introSplit, hs.walletSplit, hs.price, hs.legacyPrice, hs.deducted,
        hs.earned, hs.user, hs.creator, hs.userUid, hs.creatorUid⟩
    · exact upsertSnapshot_remaining
        (finalizerSnapshot s (remainingBalance st) now next status) st.checkpoint

theorem Finalized.trans {st' st'' : RuntimeStore} {c c' : Bool} (h : Finalized cp st c st')
    (h' : Finalized cp st' c' st'') : Finalized cp st c' st'' := by
  refine ⟨h'.session, h'.intro.trans h.intro, h'.wallet.trans h.wallet,
    h'.legacy.trans h.legacy, fun hc => ?_⟩
  obtain ⟨cp', hcp', hrem⟩ := h'.checkpoint hc
  rw [remainingBalance, h.intro, h.wallet] at hrem
  exact ⟨cp', hcp', hrem⟩

theorem checkpointLifecycleState_record (attempts : ℕ) (hids : cp.hasIdentities = true)
    (hattempt : checkpointAttempt cfg target status now st =
      convergeSession target status now s st) (hs : FromCheckpoint cp s) :
    Finalized cp st (checkpointLifecycleState cfg target status now (attempts + 1) st).1
      (checkpointLifecycleState cfg target status now (attempts + 1) st).2 := by
  induction attempts generalizing st s with
  | zero =>
    have hconv := convergeSession_spec target status now st hs
    grind [checkpointLifecycleState]
  | succ n ih =>
    have hconv := convergeSession_spec target status now st hs
    rw [checkpointLifecycleState, hattempt]
    split
    · rename_i hc
      rw [hc] at hconv
      exact hconv
    · rename_i st' hc
      rw [hc] at hconv
      obtain ⟨s', hs', hfrom⟩ := hconv.session
      refine hconv.trans (ih ?_ hfrom)
      unfold checkpointAttempt
      rw [hs']
      exact if_pos (hfrom.hasParties hids)

/-- **The finalizer** rebuilds the record of a call whose session is gone. -/
theorem checkpointLifecycleState_spec (cfg : BillingConfig) (target : Lifecycle)
    (status : CheckpointStatus) (now : ℤ) (attempts : ℕ) (hsession : st.session = none)
    (hcp : st.checkpoint = some cp) (hids : cp.hasIdentities = true) :
    Finalized cp st (checkpointLifecycleState cfg target status now (attempts + 1) st).1
      (checkpointLifecycleState cfg target status now (attempts + 1) st).2 := by
  obtain ⟨s, hs, hfrom⟩ := reconstructedSession_spec cfg now hcp hids
  refine checkpointLifecycleState_record attempts hids (s := s) ?_ hfrom
  unfold checkpointAttempt
  rw [hsession, hs]

/-! ### Flush ticks -/

structure Drained (s : CallSession) : Prop where
  current : billingSessionSchemaVersion ≤ s.schemaVersion
  walletSplit : s.totalWalletDeductedMicros = some 0
  version : 1 ≤ s.version
  user : isBlank s.userMongoId = false
  creator : isBlank s.creatorMongoId = false

def DrainedStore (st : BillingStore) : Prop :=
  ∃ s earnings, st.session = some s ∧ Drained s ∧ st.introMicros = some 0 ∧
    st.walletMicros = some 0 ∧ st.earnings = some earnings

structure TickState.Empty (t : TickState) : Prop where
  drained : Drained t.session
  intro : t.introMicros = 0
  wallet : t.walletMicros = 0

theorem Drained.emitted (h : Drained s) (now : ℤ) : Drained (s.emitted now) :=
  ⟨h.current, h.walletSplit, h.version, h.user, h.creator⟩

theorem Drained.normalizeV4 (h : Drained s) : Drained s.normalizeV4 :=
  ⟨h.current, by simp [h.walletSplit], h.version, h.user, h.creator⟩

theorem Drained.needsFullSessionBootstrap (h : Drained s) :
    s.needsFullSessionBootstrap = false := by
  have hv : ¬ s.version ≤ 0 := by
    have := h.version
    omega
  simp [CallSession.needsFullSessionBootstrap, hv, h.user, h.creator]

variable {b : BillingStore} {t : TickState}

theorem DrainedStore.persistSession (h : DrainedStore b) (hs : Drained s) (r : BillingReply) :
    DrainedStore (execBilling (.persistSession s) r b) := by
  obtain ⟨_, e, -, -, hi, hw, he⟩ := h
  exact ⟨s, e, rfl, hs, hi, hw, he⟩

section drained

variable {I : BillingStore → Prop} (hI : ∀ st, DrainedStore st → I st)

include hI

theorem pricedTick_drained {now : ℤ} (hst : DrainedStore b) (ht : t.Empty) :
    (pricedTick cfg t now).Holds execBilling I (fun _ st' => DrainedStore st') b := by
  have hkeepalive : ∀ result : BillingTickResult, Prog.Holds execBilling I (do
      maybeEmitBillingKeepaliveIfDue t.session
      return result) (fun _ st' => DrainedStore st') b := fun result =>
    Prog.holds_bind.2 (((keepalive_holds hst fun now r =>
      hst.persistSession (ht.drained.emitted now) r).mono_inv hI).mono fun _ st' h => h)
  unfold pricedTick
  dsimp only
  split
  · exact hkeepalive .tickOk
  · refine holds_read rfl (hI _ hst) fun r => ?_
    split
    · exact hst
    · rw [if_neg]
      · split
        · exact hst
        · exact hkeepalive .tickOk
      · have hle := actualDeduct_le t (tickDeltaMs cfg t.session now)
        rw [TickState.activeSpendMicros, ht.intro, ht.wallet, ite_self] at hle
        omega

theorem ownedTick_drained {now : ℤ} (hst : DrainedStore b) (ht : t.Empty) :
    (ownedTick cfg t now).Holds execBilling I (fun _ st' => DrainedStore st') b := by
  unfold ownedTick
  split
  · exact pricedTick_drained hI hst ht
  · rename_i hprice
    have hdeferred : ∀ s, Drained s → ∀ st, DrainedStore st →
        Prog.Holds execBilling I
          (if 0 < s.billingPrice then pricedTick cfg (t.withSession s) now
          else return .tickDeferred) (fun _ st' => DrainedStore st') st := by
      intro s hs st hst
      split
      · exact pricedTick_drained hI hst ⟨hs, ht.intro, ht.wallet⟩
      · exact hst
    unfold repairSessionPricingIfNeeded
    rw [ht.drained.needsFullSessionBootstrap, if_neg (by simp), if_neg hprice]
    unfold patchSessionPricingOnly
    rw [ht.drained.creator, if_neg (by simp)]
    refine Prog.holds_bind.2 (holds_read rfl (hI _ hst) fun r => ?_)
    dsimp only
    split
    · exact hdeferred _ ht.drained _ hst
    split
    · exact hdeferred _ ht.drained _ hst
    rename_i p _ _
    have hs' : Drained (patchedPricing t.session p) :=
      (show Drained { t.session with
          pricePerMinute := p.pricePerMinute
          pricePerSecondMicros := p.pricePerSecondMicros
          billingPricePerSecondMicros := some (p.pricePerSecondMicros : ℤ)
          creatorEarningsPerSecondMicros := some (p.creatorEarningsPerSecondMicros : ℤ) } from
        ⟨ht.drained.current, ht.drained.walletSplit, ht.drained.version, ht.drained.user,
          ht.drained.creator⟩).normalizeV4
    refine Prog.holds_command_bind.2 fun r' => ?_
    have hst' := hst.persistSession hs' r'
    refine ⟨hI _ hst', holds_read rfl (hI _ hst') fun _ => holds_read rfl (hI _ hst') fun _ => ?_⟩
    exact Prog.holds_command_bind.2 fun r'' => ⟨hI _ hst', hdeferred _ hs' _ hst'⟩

theorem migratedTick_drained {now : ℤ} (ht : t.Empty) :
    (do
      persistMigration t
      ownedTick cfg t now).Holds execBilling I (fun _ st' => DrainedStore st') b := by
  refine Prog.holds_bind.2 (Prog.holds_command_bind.2 fun r => ?_)
  have hst : DrainedStore (execBilling (.persistAll .sessionMigration t.session t.introMicros
      t.walletMicros t.earningsMicros) r b) := by
    refine ⟨t.session, t.earningsMicros, rfl, ht.drained, ?_, ?_, rfl⟩
    · exact congrArg some ht.intro
    · exact congrArg some ht.wallet
  exact ⟨hI _ hst, Prog.holds_command_bind.2 fun r' => ⟨hI _ hst, ownedTick_drained hI hst ht⟩⟩

theorem loadedTick_drained (hst : DrainedStore b) (ht : t.Empty) :
    (loadedTick cfg t false).Holds execBilling I (fun _ st' => DrainedStore st') b := by
  refine holds_read rfl (hI _ hst) fun _ => ?_
  dsimp only
  split
  · exact hst
  · refine holds_read rfl (hI _ hst) fun rc => holds_read rfl (hI _ hst) fun ro => ?_
    split
    · exact hst
    · exact ownedTick_drained hI hst ht

end drained

theorem tick_drained (hst : DrainedStore b) :
    (processBillingCycleInternal cfg).Holds execBilling DrainedStore
      (fun _ st' => DrainedStore st') b := by
  refine holds_read rfl hst fun r => ?_
  dsimp only
  split
  · obtain ⟨s, earnings, hs, hdrained, hi, hw, he⟩ := id hst
    have hkeys : KeysPresent b := by simp [KeysPresent, hi, hw, he]
    refine Prog.holds_bind.2 ((loadTickState_live hst hs hdrained.current hkeys).mono
      fun loaded st' h => ?_)
    obtain ⟨rfl, now, rfl⟩ := h
    refine loadedTick_drained (fun _ h => h) hst ⟨?_, ?_, ?_⟩
    · simp only [LoadedState.enter, liveState, migrateSession_current _ _ hdrained.current]
      exact hdrained.normalizeV4.normalizeV4
    · simp [LoadedState.enter, liveState, liveBalances, hi]
    · simp [LoadedState.enter, liveState, liveBalances, hw]
  · exact hst

/-! ### The migration of a rebuilt record -/

structure RecordStore (cp : Checkpoint) (st : BillingStore) : Prop where
  session : ∃ s, st.session = some s ∧ FromCheckpoint cp s
  intro : st.introMicros = none
  wallet : st.walletMicros = none
  legacy : st.legacyCoins = none
  checkpoint : ∃ cp', st.checkpoint = some cp' ∧ cp'.remainingUserBalanceMicros = 0

theorem migrateSession_drained (cfg : BillingConfig) (h : FromCheckpoint cp s) (hu : isBlank cp.userMongoId = false)
    (hc : isBlank cp.creatorMongoId = false) (e : Option ℤ) (now : ℤ) :
    Drained (migrateSession cfg s e now).1 := by
  have hmig : (migrateSession cfg s e now).1 = (migrateV1 cfg s (e.getD 0) now).normalizeV4 := by
    rw [migrateSession, h.schema]
    rfl
  rw [hmig]
  refine ⟨le_rfl, rfl, le_max_left _ _, ?_, ?_⟩
  · show isBlank s.userMongoId = false
    rw [h.user, hu]
  · show isBlank s.creatorMongoId = false
    rw [h.creator, hc]

variable {l : LoadedState}

theorem mergeRebuilt_drained {rebuilt : LoadedState} (h : Drained l.session) :
    Drained (mergeRebuilt l rebuilt).session :=
  (show Drained { l.session with
      lastProcessedAt := rebuilt.session.lastProcessedAt
      totalDeductedMicros := rebuilt.session.totalDeductedMicros
      totalEarnedMicros := rebuilt.session.totalEarnedMicros
      version := max l.session.version rebuilt.session.version } from
    ⟨h.current, h.walletSplit, h.version.trans (le_max_left _ _), h.user, h.creator⟩).normalizeV4

variable {old : Bool}

theorem LoadedFrom.drained (h : LoadedFrom cfg b l old) (hrec : RecordStore cp b)
    (hu : isBlank cp.userMongoId = false) (hc : isBlank cp.creatorMongoId = false) :
    old = true ∧ l.enter.Empty := by
  obtain ⟨s, hs, hfrom⟩ := hrec.session
  obtain ⟨cp', hcp', hrem⟩ := hrec.checkpoint
  cases h with
  | rebuilt cp price rate now hnone =>
    simp [hnone] at hs
  | live raw now hraw =>
    obtain rfl := Option.mem_unique hraw hs
    have hlive := migrateSession_drained cfg hfrom hu hc b.earnings now
    rw [hrec.intro, hrec.wallet, hrec.legacy, hfrom.schema]
    exact ⟨rfl, hlive.normalizeV4, rfl, rfl⟩
  | merged raw now cp'' price rate now' hraw _ hcp =>
    obtain rfl := Option.mem_unique hraw hs
    obtain rfl := Option.mem_unique hcp' hcp
    have hlive := migrateSession_drained cfg hfrom hu hc b.earnings now
    rw [hfrom.schema]
    refine ⟨rfl, (mergeRebuilt_drained hlive).normalizeV4, rfl, ?_⟩
    show max 0 cp'.remainingUserBalanceMicros = 0
    rw [hrem, max_self]

/-! ### Which ticks migrate the record -/

/-- The environment grants the `n`-th command of a tick: the lock, or the ownership. -/
def Granted (rs : List BillingReply) (n : ℕ) : Prop := ∃ r, rs[n]? = some r ∧ r.ok = true

/-- The reads of a rebuild from the checkpoint. -/
def rebuildReads (st : BillingStore) : ℕ :=
  match st.checkpoint with
  | none => 1
  | some cp => if cp.hasIdentities then if cp.pricePerSecondMicros ≤ 0 then 3 else 2 else 1

/-- The reads with which a tick loads a stored session. -/
def loadReads (cfg : BillingConfig) (st : BillingStore) : ℕ :=
  (if cfg.billingDeltaCursorV3Enabled &&
      (st.introMicros.isNone || st.walletMicros.isNone || st.earnings.isNone) then
    rebuildReads st
  else 0) + 6

/-- A tick on a stored session is turned away before its first write.  It does not get the cycle lock
or the ownership of the call, the call is settled or its lifecycle terminal, or the tick stops
first. -/
def TurnedAway (cfg : BillingConfig) (st : BillingStore) (rs : List BillingReply) : Prop :=
  ¬ Granted rs 0 ∨ st.settled = true ∨
    (∃ s, st.session = some s ∧ isNonTerminalLifecycle s.lifecycleState = false) ∨
    ¬ Granted rs (loadReads cfg st + 3) ∨ rs.length ≤ loadReads cfg st + 4

/-- On `b` the program reads `n` times, then goes on as one that `Q` describes. -/
def ReadsTo {α : Type} (b : BillingStore) (Q : BillingProg α → Prop) : ℕ → BillingProg α → Prop
  | 0, p => Q p
  | n + 1, .act c k => c.reads = true ∧ ∀ r, ReadsTo b Q n (k r b)
  | _ + 1, .ret _ => False

section reads

variable {α β : Type} {Q : BillingProg α → Prop} {p : BillingProg α} {n : ℕ}

theorem ReadsTo.bind {Q' : BillingProg β → Prop} {k : α → BillingProg β} (h : ReadsTo b Q n p)
    (hk : ∀ q, Q q → Q' (q >>= k)) : ReadsTo b Q' n (p >>= k) := by
  induction n generalizing p with
  | zero => exact hk p h
  | succ n ih =>
    cases p with
    | ret a => cases h
    | act c f => exact ⟨h.1, fun r => ih (h.2 r)⟩

theorem ReadsTo.exec (h : ReadsTo b Q n p) (rs : List BillingReply) :
    (rs.length < n ∧ (p.exec execBilling rs b).1 = b) ∨
      ∃ q, Q q ∧ p.exec execBilling rs b = q.exec execBilling (rs.drop n) b := by
  induction n generalizing p rs with
  | zero => exact .inr ⟨p, h, rfl⟩
  | succ n ih =>
    cases p with
    | ret a => cases h
    | act c k =>
      cases rs with
      | nil => exact .inl ⟨n.succ_pos, rfl⟩
      | cons r rs =>
        have hstep : (Prog.act c k).exec execBilling (r :: rs) b =
            (k r b).exec execBilling rs b := by
          rw [Prog.exec, execBilling_reads h.1]
        rw [hstep]
        exact (ih (h.2 r) rs).imp_left fun hshort => ⟨Nat.succ_lt_succ hshort.1, hshort.2⟩

theorem ReadsTo.read {c : BillingCmd} {f : BillingReply × BillingStore → BillingProg α}
    (hc : c.reads = true) (h : ∀ r, ReadsTo b Q n (f (r, b))) :
    ReadsTo b Q (n + 1) (issue c >>= f) := ⟨hc, h⟩

end reads

theorem rebuild_readsTo (cfg : BillingConfig) (b : BillingStore) :
    ReadsTo b (fun q => ∃ rebuilt, q = .ret rebuilt ∧ ∀ l, rebuilt = some l →
        ∃ cp price rate now, b.checkpoint = some cp ∧ l = rebuiltState cfg cp price rate now)
      (rebuildReads b) (rebuildFromCheckpoint cfg) := by
  unfold rebuildReads rebuildFromCheckpoint
  cases hcp : b.checkpoint with
  | none =>
    refine ReadsTo.read rfl fun r => ?_
    dsimp only
    rw [hcp]
    exact ⟨none, rfl, fun l hl => by cases hl⟩
  | some cp =>
    have hsome : ∀ price rate now l, some (rebuiltState cfg cp price rate now) = some l →
        ∃ cp' price rate now, some cp = some cp' ∧ l = rebuiltState cfg cp' price rate now :=
      fun price rate now l hl => ⟨cp, price, rate, now, rfl, (Option.some.inj hl).symm⟩
    dsimp only
    split
    · rename_i hids
      split
      · rename_i hprice
        refine ReadsTo.read rfl fun r => ?_
        dsimp only
        rw [hcp]
        dsimp only
        rw [buildSessionFromCheckpoint, if_pos hids, checkpointPricing, if_pos hprice]
        exact ⟨rfl, fun r => ⟨rfl, fun r' => ⟨_, rfl, hsome _ _ r.now⟩⟩⟩
      · rename_i hprice
        refine ReadsTo.read rfl fun r => ?_
        dsimp only
        rw [hcp]
        dsimp only
        rw [buildSessionFromCheckpoint, if_pos hids, checkpointPricing, if_neg hprice]
        exact ⟨rfl, fun r => ⟨_, rfl, hsome _ _ r.now⟩⟩
    · rename_i hids
      refine ReadsTo.read rfl fun r => ?_
      dsimp only
      rw [hcp]
      dsimp only
      rw [buildSessionFromCheckpoint, if_neg hids]
      exact ⟨none, rfl, fun l hl => by cases hl⟩

variable {raw : CallSession}

theorem load_readsTo (hs : b.session = some raw) :
    ReadsTo b (fun q => ∃ l old, q = .ret (some (l, old)) ∧ LoadedFrom cfg b l old)
      (loadReads cfg b) (loadTickState cfg) := by
  unfold loadTickState
  refine ReadsTo.read rfl fun _ => ?_
  dsimp only
  rw [hs]
  refine ReadsTo.read rfl fun _ => ReadsTo.read rfl fun _ => ReadsTo.read rfl fun _ =>
    ReadsTo.read rfl fun _ => ReadsTo.read rfl fun r => ?_
  dsimp only
  split
  · rename_i hmissing
    have hkeys : ¬ KeysPresent b := by
      intro ⟨hi, hw, he⟩
      simp [← Option.not_isSome, hi, hw, he] at hmissing
    apply (rebuild_readsTo cfg b).bind
    rintro _ ⟨rebuilt, rfl, hrebuilt⟩
    refine ⟨_, _, rfl, ?_⟩
    cases rebuilt with
    | none => exact .live raw r.now hs
    | some l =>
      obtain ⟨cp, price, rate, now, hcp, rfl⟩ := hrebuilt l rfl
      exact .merged raw r.now cp price rate now hs hkeys hcp
  · exact ⟨_, _, rfl, .live raw r.now hs⟩

theorem migrateSession_nonTerminal (raw : CallSession) (e : Option ℤ) (now : ℤ) :
    isNonTerminalLifecycle (migrateSession cfg raw e now).1.lifecycleState =
      isNonTerminalLifecycle raw.lifecycleState := by
  unfold migrateSession
  split
  · exact nonTerminal_normalizeV4 raw
  split
  · exact nonTerminal_normalizeV4 _
  · refine (nonTerminal_normalizeV4 _).trans ?_
    show isNonTerminalLifecycle (some (raw.lifecycleState.getD .active)) = _
    cases raw.lifecycleState <;> rfl

theorem LoadedFrom.nonTerminal (h : LoadedFrom cfg b l old) (hs : b.session = some raw) :
    isNonTerminalLifecycle l.enter.session.lifecycleState =
      isNonTerminalLifecycle raw.lifecycleState := by
  refine (nonTerminal_normalizeV4 l.session).trans ?_
  cases h with
  | rebuilt cp price rate now hnone =>
    simp [hnone] at hs
  | live raw' now hraw =>
    obtain rfl := Option.mem_unique hraw hs
    exact migrateSession_nonTerminal raw' _ now
  | merged raw' now cp price rate now' hraw _ _ =>
    obtain rfl := Option.mem_unique hraw hs
    exact (nonTerminal_normalizeV4 _).trans (migrateSession_nonTerminal raw' _ now)

/-- What turns away a tick that has loaded `t`. -/
def TurnedAwayLoaded (t : TickState) (b : BillingStore) (rs : List BillingReply) : Prop :=
  b.settled = true ∨ isNonTerminalLifecycle t.session.lifecycleState = false ∨ ¬ Granted rs 2 ∨
    rs.length ≤ 3

variable {rs : List BillingReply}

theorem loadedTick_turnedAway (h : TurnedAwayLoaded t b rs) :
    ((loadedTick cfg t old).exec execBilling rs b).1 = b := by
  obtain _ | ⟨r, rs⟩ := rs
  · rfl
  show (Prog.exec execBilling (if !isNonTerminalLifecycle t.session.lifecycleState || b.settled then
    _ else _) rs b).1 = b
  split
  · rfl
  rename_i hopen
  obtain _ | ⟨rc, rs⟩ := rs
  · rfl
  obtain _ | ⟨ro, rs⟩ := rs
  · rfl
  show (Prog.exec execBilling (if !ro.ok then _ else _) rs b).1 = b
  split
  · rfl
  rename_i hok
  obtain hsettled | hterminal | hrefused | hshort := h
  · simp [hsettled] at hopen
  · simp [hterminal] at hopen
  · exact absurd ⟨ro, rfl, by simpa using hok⟩ hrefused
  · obtain rfl : rs = [] := List.length_eq_zero_iff.1 (by simp at hshort; omega)
    exact Prog.exec_nil execBilling _ b

theorem loadedTick_migrates (ht : t.Empty) (h : ¬ TurnedAwayLoaded t b rs) :
    DrainedStore ((loadedTick cfg t true).exec execBilling rs b).1 := by
  unfold TurnedAwayLoaded at h
  push Not at h
  obtain ⟨hsettled, hterminal, ⟨ro, hro, hok⟩, hlong⟩ := h
  obtain _ | ⟨r, _ | ⟨rc, _ | ⟨ro', _ | ⟨rw', rs⟩⟩⟩⟩ := rs
  iterate 4 · simp at hlong
  obtain rfl : ro' = ro := Option.some.inj hro
  have hopen : (!isNonTerminalLifecycle t.session.lifecycleState || b.settled) = false := by
    simp_all
  show DrainedStore (Prog.exec execBilling (if !isNonTerminalLifecycle t.session.lifecycleState ||
    b.settled then _ else _) (rc :: ro' :: rw' :: rs) b).1
  rw [hopen, if_neg Bool.false_ne_true]
  show DrainedStore (Prog.exec execBilling (if !ro'.ok then _ else _) (rw' :: rs) b).1
  rw [hok, if_neg (by simp)]
  have hmigrate : (do
      persistMigration t
      ownedTick cfg t rc.now).Holds execBilling DrainedStore (fun _ st' => DrainedStore st') b :=
    migratedTick_drained (fun _ h => h) ht
  exact (Prog.exec_of_holds (hmigrate rw').1 (hmigrate rw').2 rs).1

def afterLoad (cfg : BillingConfig) (loaded : Option (LoadedState × Bool)) :
    BillingProg BillingTickResult :=
  match loaded with
  | none => return .stopNoSession
  | some (l, old) => loadedTick cfg l.enter old

theorem tickStore_granted {r : BillingReply} (hok : r.ok = true) (rs : List BillingReply) :
    tickStore cfg b (r :: rs) = ((loadTickState cfg >>= afterLoad cfg).exec execBilling rs b).1 := by
  show (Prog.exec execBilling (if r.ok then loadTickState cfg >>= afterLoad cfg else _) rs b).1 = _
  rw [if_pos hok]

theorem turnedAway_iff (hs : b.session = some raw) {r : BillingReply} (hok : r.ok = true)
    (hl : LoadedFrom cfg b l old) (rs : List BillingReply) :
    TurnedAway cfg b (r :: rs) ↔ TurnedAwayLoaded l.enter b (rs.drop (loadReads cfg b)) := by
  have hlock : Granted (r :: rs) 0 := ⟨r, rfl, hok⟩
  have hterminal : (∃ s, b.session = some s ∧ isNonTerminalLifecycle s.lifecycleState = false) ↔
      isNonTerminalLifecycle l.enter.session.lifecycleState = false := by
    rw [hl.nonTerminal hs, hs]
    simp
  have howner : Granted (r :: rs) (loadReads cfg b + 3) ↔
      Granted (rs.drop (loadReads cfg b)) 2 := by
    unfold Granted
    rw [List.getElem?_drop]
    exact Iff.rfl
  have hlength : (r :: rs).length ≤ loadReads cfg b + 4 ↔
      (rs.drop (loadReads cfg b)).length ≤ 3 := by
    rw [List.length_cons, List.length_drop]
    omega
  unfold TurnedAway TurnedAwayLoaded
  rw [hterminal, howner, hlength]
  simp [hlock]

/-- **One tick** on a stored session is turned away before it writes, or goes on as a tick that has
loaded it. -/
theorem tickStore_cases (hs : b.session = some raw) (rs : List BillingReply) :
    (TurnedAway cfg b rs ∧ tickStore cfg b rs = b) ∨
      ∃ l old rs', LoadedFrom cfg b l old ∧
        (TurnedAway cfg b rs ↔ TurnedAwayLoaded l.enter b rs') ∧
        tickStore cfg b rs = ((loadedTick cfg l.enter old).exec execBilling rs' b).1 := by
  obtain _ | ⟨r, rs⟩ := rs
  · exact .inl ⟨.inl (by rintro ⟨_, h, _⟩; cases h), rfl⟩
  by_cases hok : r.ok = true
  · rw [tickStore_granted hok]
    have hreads : ReadsTo b (fun q => ∃ l old, q = loadedTick cfg l.enter old ∧
        LoadedFrom cfg b l old) (loadReads cfg b) (loadTickState cfg >>= afterLoad cfg) := by
      apply (load_readsTo hs).bind
      rintro _ ⟨l, old, rfl, h⟩
      exact ⟨l, old, rfl, h⟩
    obtain ⟨hshort, hsame⟩ | ⟨_, ⟨l, old, rfl, hl⟩, heq⟩ := hreads.exec rs
    · refine .inl ⟨.inr (.inr (.inr (.inr ?_))), hsame⟩
      rw [List.length_cons]
      omega
    · exact .inr ⟨l, old, _, hl, turnedAway_iff hs hok hl rs, congrArg Prod.fst heq⟩
  · refine .inl ⟨.inl ?_, ?_⟩
    · rintro ⟨r', hr', hok'⟩
      cases hr'
      exact hok hok'
    · show (Prog.exec execBilling (if r.ok then _ else _) rs b).1 = b
      rw [if_neg hok]
      rfl

/-! ### Settlement after the flush -/

def flush (cfg : BillingConfig) (ticks : List (List BillingReply)) (st : RuntimeStore) :
    RuntimeStore :=
  { st with toBillingStore := runTicks cfg ticks st.toBillingStore }

/-- The session that `settleCall` reads has the totals and the price of the checkpoint, and settling
it debits and credits at least what they come to. -/
structure TotalsKept (cfg : BillingConfig) (now : ℤ) (cp : Checkpoint) (st : RuntimeStore) :
    Prop where
  session : ∃ s, st.session = some s ∧ cp.totalDeductedMicros ≤ s.totalDeductedMicros ∧
    cp.totalEarnedMicros ≤ s.totalEarnedMicros ∧ s.billingPrice = cp.pricePerSecondMicros
  debit : ∃ coins, settledDebit cfg st now = some coins ∧
    microsToUserDebitWholeCoins cp.totalDeductedMicros ≤ coins
  credit : ∃ coins, settledCredit cfg st now = some coins ∧
    microsToCreatorCreditWholeCoins cp.totalEarnedMicros ≤ coins

theorem FromCheckpoint.totalsKept (h : FromCheckpoint cp s) (hs : st.session = some s)
    (hprice : 0 < cp.pricePerSecondMicros) (now : ℤ) : TotalsKept cfg now cp st := by
  have hge := apply_ge s (resolveAuthoritativeSettlementTotals cfg st)
  refine ⟨⟨s, hs, h.deducted, h.earned, ?_⟩, ?_, ?_⟩
  · rw [h.price]
    exact max_eq_right hprice.le
  · refine ⟨_, (settled_live cfg now hs).1, userDebit_mono ?_⟩
    have hd := h.deducted.trans hge.1
    show _ ≤ s.totalWalletDeductedMicros.getD (max 0 (_ - max 0
      (s.totalIntroDeductedMicros.getD 0)))
    rw [h.walletSplit, h.introSplit]
    show _ ≤ max 0 (_ - max 0 0)
    omega
  · refine ⟨_, (settled_live cfg now hs).2, creatorCredit_mono ?_⟩
    have he := h.earned.trans hge.2
    show _ ≤ if _ ∧ _ ∧ s.pricePerSecond ≠ 0 then _ else _
    rw [h.legacyPrice, if_neg (by simp)]
    exact he

theorem DrainedStore.not_totalsKept (h : DrainedStore st.toBillingStore)
    (hd : 0 < cp.totalDeductedMicros) (now : ℤ) : ¬ TotalsKept cfg now cp st := by
  obtain ⟨s, -, hs, hdrained, -⟩ := h
  intro hkept
  obtain ⟨coins, hcoins, hle⟩ := hkept.debit
  have hzero : (liveInput cfg st s).targetWalletDebit = 0 := by
    show microsToUserDebitWholeCoins (s.totalWalletDeductedMicros.getD _) = 0
    rw [hdrained.walletSplit]
    rfl
  rw [(settled_live cfg now hs).1, hzero, Option.some.injEq] at hcoins
  have hpos := userDebit_pos hd
  omega

theorem tickStore_turnedAway (hs : b.session = some raw) (h : TurnedAway cfg b rs) :
    tickStore cfg b rs = b := by
  obtain ⟨-, hsame⟩ | ⟨l, old, rs', -, hiff, heq⟩ := tickStore_cases hs rs
  · exact hsame
  · rw [heq]
    exact loadedTick_turnedAway (hiff.1 h)

theorem tickStore_drained (hrec : RecordStore cp b) (hu : isBlank cp.userMongoId = false)
    (hc : isBlank cp.creatorMongoId = false) (h : ¬ TurnedAway cfg b rs) :
    DrainedStore (tickStore cfg b rs) := by
  obtain ⟨s, hs, -⟩ := hrec.session
  obtain ⟨haway, -⟩ | ⟨l, old, rs', hl, hiff, heq⟩ := tickStore_cases hs rs
  · exact absurd haway h
  · obtain ⟨rfl, hempty⟩ := hl.drained hrec hu hc
    rw [heq]
    exact loadedTick_migrates hempty (mt hiff.2 h)

theorem runTicks_turnedAway (hs : b.session = some raw) {ticks : List (List BillingReply)}
    (h : ∀ rs ∈ ticks, TurnedAway cfg b rs) : runTicks cfg ticks b = b := by
  induction ticks with
  | nil => rfl
  | cons rs ticks ih =>
    obtain ⟨hfirst, hrest⟩ := List.forall_mem_cons.1 h
    rw [runTicks, List.foldl_cons, tickStore_turnedAway hs hfirst]
    exact ih hrest

theorem runTicks_drained (cfg : BillingConfig) (ticks : List (List BillingReply)) {b : BillingStore}
    (h : DrainedStore b) : DrainedStore (runTicks cfg ticks b) := by
  induction ticks generalizing b with
  | nil => exact h
  | cons rs ticks ih => exact ih (Prog.exec_of_holds h (tick_drained h) rs).1

/-- **A run of ticks** on the record is turned away in each of them, or drains it. -/
theorem runTicks_record (ticks : List (List BillingReply)) (hrec : RecordStore cp b)
    (hu : isBlank cp.userMongoId = false) (hc : isBlank cp.creatorMongoId = false) :
    (∀ rs ∈ ticks, TurnedAway cfg b rs) ∨ DrainedStore (runTicks cfg ticks b) := by
  induction ticks with
  | nil => exact .inl (by simp)
  | cons rs ticks ih =>
    rw [runTicks, List.foldl_cons]
    by_cases haway : TurnedAway cfg b rs
    · obtain ⟨s, hs, -⟩ := hrec.session
      rw [tickStore_turnedAway hs haway]
      exact ih.imp_left fun h => List.forall_mem_cons.2 ⟨haway, h⟩
    · exact .inr (runTicks_drained cfg ticks (tickStore_drained hrec hu hc haway))

/-- After the finalizer rebuilt the record of a call from its checkpoint, the totals and the price
of the checkpoint survive the flush ticks when each of them is turned away, and with something
deducted and the balance keys gone they survive only then. -/
theorem flush_keeps_totals (cfg : BillingConfig) (now : ℤ) (attempts : ℕ) (st : RuntimeStore)
    (cp : Checkpoint) (hsession : st.session = none) (hcp : st.checkpoint = some cp)
    (hids : cp.hasIdentities = true) (hprice : 0 < cp.pricePerSecondMicros)
    (ticks : List (List BillingReply)) :
    let finalized := checkpointLifecycleState cfg .settling .settling now (attempts + 1) st
    let turnedAway := ∀ rs ∈ ticks, TurnedAway cfg finalized.2.toBillingStore rs
    (turnedAway → TotalsKept cfg now cp (flush cfg ticks finalized.2)) ∧
      (0 < cp.totalDeductedMicros → finalized.1 = true → st.introMicros = none →
        st.walletMicros = none → st.legacyCoins = none → isBlank cp.userMongoId = false →
        isBlank cp.creatorMongoId = false →
        TotalsKept cfg now cp (flush cfg ticks finalized.2) → turnedAway) := by
  have hfin := checkpointLifecycleState_spec cfg .settling .settling now attempts hsession hcp hids
  obtain ⟨s, hs, hfrom⟩ := hfin.session
  constructor
  · intro haway
    have hsame := runTicks_turnedAway hs haway
    exact hfrom.totalsKept ((congrArg BillingStore.session hsame).trans hs) hprice now
  · intro hd hconv hi hw hl hu hc hkept
    obtain ⟨cp', hcp', hrem⟩ := hfin.checkpoint hconv
    rw [remainingBalance, hi, hw] at hrem
    have hrec : RecordStore cp (checkpointLifecycleState cfg .settling .settling now (attempts + 1)
        st).2.toBillingStore :=
      ⟨⟨s, hs, hfrom⟩, hfin.intro.trans hi, hfin.wallet.trans hw, hfin.legacy.trans hl, cp', hcp',
        hrem⟩
    exact (runTicks_record ticks hrec hu hc).resolve_right fun hdrained =>
      DrainedStore.not_totalsKept hdrained hd now hkept

def sampleFinalized : RuntimeStore :=
  (checkpointLifecycleState sampleConfig .settling .settling 6000 1 sampleLive.loseKeys).2

theorem flush_loses_debit :
    ¬ TotalsKept sampleConfig 6000 sampleCheckpoint
      (flush sampleConfig [List.replicate 30 (sampleReply 7000)] sampleFinalized) := by
  intro h
  obtain ⟨coins, hcoins, hle⟩ := h.debit
  have hzero : settledDebit sampleConfig
      (flush sampleConfig [List.replicate 30 (sampleReply 7000)] sampleFinalized) 6000 =
        some 0 := by decide +kernel
  have hfive : microsToUserDebitWholeCoins sampleCheckpoint.totalDeductedMicros = 5 := by
    decide +kernel
  rw [hzero, Option.some.injEq] at hcoins
  omega

def refusedTick : List BillingReply := [{ sampleReply 7000 with ok := false }]

theorem flush_keeps_totals_sample :
    TotalsKept sampleConfig 6000 sampleCheckpoint
      (flush sampleConfig [refusedTick, refusedTick] sampleFinalized) := by
  refine (flush_keeps_totals sampleConfig 6000 0 sampleLive.loseKeys sampleCheckpoint rfl rfl
    (by decide +kernel) (by decide +kernel) [refusedTick, refusedTick]).1 fun rs hrs => ?_
  obtain rfl : rs = refusedTick := by simpa using hrs
  refine .inl ?_
  rintro ⟨r, hr, hok⟩
  cases hr
  cases hok

end VibemeetBackend.Billing
