import VibemeetBackend.Billing.Store

/-!
# Promotion of a bootstrapping session

`promoteBootstrappingSession` of `billing.service.ts`: a session seeded without a price becomes one
that ticks can charge.  The pure parts (who may be billed, with which balances, for how long) come
first and the program that reads and writes the stores last.
-/

namespace VibemeetBackend.Billing

open Async

structure PromoteOpts where
  preserveStartTime : Bool
  preserveRuntimeBalances : Bool

/-- The `reason` of a `PromoteBootstrapResult` that is not ok. -/
inductive PromoteFailure where
  | userNotFound
  | creatorNotFound
  | creatorDisabled
  | invalidParticipants
  | insufficientCoins
  | concurrentPromote

/-- A `PromoteBootstrapResult` that is ok. -/
structure Promotion where
  session : CallSession
  initialIntroMicros : ℤ
  initialWalletMicros : ℤ

namespace Promotion

def spendableMicros (p : Promotion) : ℤ := p.initialIntroMicros + p.initialWalletMicros

end Promotion

def promotionPayer (user : Option PromotedUser) : Except PromoteFailure PromotedUser :=
  match user with
  | none => .error .userNotFound
  | some user => if user.role ≠ "user" then .error .invalidParticipants else .ok user

def promotionCreator (existing : CallSession) (creator : Option PromotedCreator) :
    Except PromoteFailure PromotedCreator :=
  match creator with
  | none => .error .creatorNotFound
  | some creator =>
    if isBlank existing.creatorMongoId then .error .creatorNotFound
    else if creator.isDisabled then .error .creatorDisabled
    else if (creator.userRole ≠ "creator" ∧ creator.userRole ≠ "admin") ∨
        creator.userFirebaseUid.isEmpty ∨ creator.userFirebaseUid ≠ existing.creatorFirebaseUid then
      .error .invalidParticipants
    else .ok creator

namespace CallSession

def hasRuntimeActivity (s : CallSession) : Bool :=
  0 < s.billingSequence || 0 < s.totalDeductedMicros

end CallSession

/-- `preserveRuntimeBalances` of the promotion. -/
def preservesBalances (existing : CallSession) (opts : PromoteOpts) : Bool :=
  opts.preserveRuntimeBalances || (opts.preserveStartTime && existing.hasRuntimeActivity)

structure PromotedBalances where
  introPromoActive : Bool
  initialIntroMicros : ℤ
  initialWalletMicros : ℤ
  /-- `balanceSource = 'redis_runtime'`. -/
  fromRuntime : Bool

/-- The balances that the `User` document gives. -/
def mongoBalances (cfg : BillingConfig) (user : PromotedUser) (pricing : Pricing) :
    PromotedBalances :=
  let introPromoActive :=
    cfg.freeCallEnabled && user.role == "user" && !user.welcomeFreeCallConsumed &&
      decide (0 < user.introFreeCallCredits)
  { introPromoActive
    initialIntroMicros :=
      if introPromoActive ∧ 0 < pricing.pricePerSecondMicros then
        cfg.freeCallDurationSeconds * pricing.pricePerSecondMicros
      else 0
    initialWalletMicros := if introPromoActive then 0 else coinsWholeToMicros user.coins
    fromRuntime := false }

/-- The balances that the runtime keys give, where they may be used. -/
def runtimeBalances (existing : CallSession) (intro wallet : Option ℤ)
    (fallback : PromotedBalances) : PromotedBalances :=
  let redisIntro := max 0 (intro.getD 0)
  let redisWallet := max 0 (wallet.getD 0)
  if existing.hasRuntimeActivity ∧ 0 < redisIntro + redisWallet then
    { introPromoActive :=
        existing.introPromoActive == some true || decide (0 < redisIntro ∧ redisWallet = 0)
      initialIntroMicros := redisIntro
      initialWalletMicros := redisWallet
      fromRuntime := true }
  else fallback

/-- `effectiveDurationLimitSeconds` of a promotion.  The schemas declare no limit of a document's own,
so both limits are the defaults. -/
def promotedDurationLimit (cfg : BillingConfig) (creator : PromotedCreator)
    (introPromoActive : Bool) : ℤ :=
  let creatorLimit := cfg.defaultCreatorCallDurationSeconds
  let userLimit := cfg.defaultUserCallDurationSeconds
  let platformCapSeconds := min (min creatorLimit userLimit) cfg.maxCallDurationSeconds
  if introPromoActive ∧ 0 < creator.pricing.pricePerSecondMicros then
    min platformCapSeconds cfg.freeCallDurationSeconds
  else platformCapSeconds

def promotedSession (cfg : BillingConfig) (existing : CallSession) (user : PromotedUser)
    (creator : PromotedCreator) (b : PromotedBalances) (startTime : ℤ) : CallSession :=
  { existing with
    schemaVersion := billingSessionSchemaVersion
    initialIntroMicros := some b.initialIntroMicros
    initialWalletMicros := some b.initialWalletMicros
    billingPricePerSecondMicros := some creator.pricing.pricePerSecondMicros
    introPromoActive := some b.introPromoActive
    totalIntroDeductedMicros := some (existing.totalIntroDeductedMicros.getD 0)
    totalWalletDeductedMicros := some (existing.totalWalletDeductedMicros.getD 0)
    userMongoId := user.id
    creatorMongoId := creator.id
    pricePerMinute := creator.pricing.pricePerMinute
    pricePerSecondMicros := creator.pricing.pricePerSecondMicros
    creatorEarningsPerSecondMicros := some creator.pricing.creatorEarningsPerSecondMicros
    startTime
    lastProcessedAt := startTime
    version := 1
    lifecycleState := some (existing.lifecycleState.getD .starting)
    effectiveDurationLimitSeconds :=
      some (promotedDurationLimit cfg creator b.introPromoActive)
    lastSocketEmitAt := some (existing.lastSocketEmitAt.getD startTime) }.normalizeV4

def readBalances (existing : CallSession) (opts : PromoteOpts) (fallback : PromotedBalances) :
    BillingProg PromotedBalances :=
  if preservesBalances existing opts then do
    let (_, st) ← issue .getIntro
    let (_, st') ← issue .getWallet
    return runtimeBalances existing st.introMicros st'.walletMicros fallback
  else return fallback

/-- The keys of the session, and its early checkpoint. -/
def seedPromotion (p : Promotion) (fromRuntime : Bool) : BillingProg Unit := do
  if fromRuntime then
    let _ ← issue (.persistSession p.session)
  else
    let _ ← issue
      (.persistAll .sessionSeed p.session p.initialIntroMicros p.initialWalletMicros 0)
  let _ ← issue (.upsertSnapshot (p.session.snapshot p.spendableMicros))

def promoteWith (cfg : BillingConfig) (existing : CallSession) (opts : PromoteOpts)
    (user : PromotedUser) (creator : PromotedCreator) (b : PromotedBalances) :
    BillingProg (Except PromoteFailure Promotion) := do
  if ¬ preservesBalances existing opts ∧ b.initialIntroMicros + b.initialWalletMicros <
      max (creator.pricing.pricePerSecondMicros : ℤ) (coinsWholeToMicros cfg.minCoinsToCall) then
    return .error .insufficientCoins
  else do
    let (r, _) ← issue .clock
    let startTime := if opts.preserveStartTime then numOr existing.startTime r.now else r.now
    let p : Promotion :=
      { session := promotedSession cfg existing user creator b startTime
        initialIntroMicros := b.initialIntroMicros
        initialWalletMicros := b.initialWalletMicros }
    seedPromotion p b.fromRuntime
    return .ok p

def promoteParticipants (cfg : BillingConfig) (existing : CallSession) (opts : PromoteOpts)
    (user : PromotedUser) (creator : PromotedCreator) :
    BillingProg (Except PromoteFailure Promotion) := do
  let b ← readBalances existing opts (mongoBalances cfg user creator.pricing)
  promoteWith cfg existing opts user creator b

def promoteBootstrappingSession (cfg : BillingConfig) (existing : CallSession)
    (opts : PromoteOpts) : BillingProg (Except PromoteFailure Promotion) := do
  let (_, live) ← issue .getSession
  if live.session.any fun s => !s.isBootstrappingSession then
    return .error .concurrentPromote
  else do
    let (ru, _) ← issue .getUser
    match promotionPayer ru.user with
    | .error e => return .error e
    | .ok user => do
      let (rc, _) ← issue .getCreator
      match promotionCreator existing rc.creator with
      | .error e => return .error e
      | .ok creator => promoteParticipants cfg existing opts user creator

/-! ### What a promotion writes -/

/-- The session of `p` is a promotion of `existing`. -/
def Promotes (existing : CallSession) (p : Promotion) : Prop :=
  ∃ cfg user creator b startTime, p.session = promotedSession cfg existing user creator b startTime

inductive SeedsPromotion (p : Promotion) : BillingCmd → Prop where
  | session : SeedsPromotion p (.persistSession p.session)
  | keys : SeedsPromotion p
      (.persistAll .sessionSeed p.session p.initialIntroMicros p.initialWalletMicros 0)
  | checkpoint : SeedsPromotion p (.upsertSnapshot (p.session.snapshot p.spendableMicros))

theorem seedPromotion_holds {I : BillingStore → Prop} {st : BillingStore} {p : Promotion}
    (hseed : ∀ c, SeedsPromotion p c → ∀ r st, I st → I (execBilling c r st)) (hst : I st)
    (fromRuntime : Bool) :
    (seedPromotion p fromRuntime).Holds execBilling I (fun _ st' => I st') st := by
  have hcheckpoint : ∀ st, I st → Prog.Holds execBilling I (do
      let _ ← issue (.upsertSnapshot (p.session.snapshot p.spendableMicros))
      pure ()) (fun _ st' => I st') st := fun st hst r =>
    ⟨hseed _ .checkpoint r st hst, hseed _ .checkpoint r st hst⟩
  unfold seedPromotion
  split
  · exact fun r => ⟨hseed _ .session r st hst, hcheckpoint _ (hseed _ .session r st hst)⟩
  · exact fun r => ⟨hseed _ .keys r st hst, hcheckpoint _ (hseed _ .keys r st hst)⟩

/-- **What a promotion does to the stores**: it stores a promotion of the session or nothing. -/
theorem promotion_holds {I : BillingStore → Prop} {cfg : BillingConfig} {existing : CallSession}
    {opts : PromoteOpts} {st : BillingStore}
    (hseed : ∀ p, Promotes existing p → ∀ c, SeedsPromotion p c →
      ∀ r st, I st → I (execBilling c r st)) (hst : I st) :
    (promoteBootstrappingSession cfg existing opts).Holds execBilling I
      (fun result st' => I st' ∧ ∀ p, result = .ok p → Promotes existing p) st := by
  refine holds_read rfl hst fun _ => ?_
  dsimp only
  split
  · exact ⟨hst, fun p hp => nomatch hp⟩
  refine holds_read rfl hst fun ru => ?_
  split
  · exact ⟨hst, fun p hp => nomatch hp⟩
  rename_i user _
  refine holds_read rfl hst fun rc => ?_
  split
  · exact ⟨hst, fun p hp => nomatch hp⟩
  rename_i creator _
  have hwith : ∀ b, (promoteWith cfg existing opts user creator b).Holds execBilling I
      (fun result st' => I st' ∧ ∀ p, result = .ok p → Promotes existing p) st := by
    intro b
    unfold promoteWith
    split
    · exact ⟨hst, fun p hp => nomatch hp⟩
    · refine holds_read rfl hst fun r => Prog.holds_bind.2 ?_
      have hp : ∀ i w, Promotes existing ⟨promotedSession cfg existing user creator b
          (if opts.preserveStartTime then numOr existing.startTime r.now else r.now), i, w⟩ :=
        fun _ _ => ⟨cfg, user, creator, b, _, rfl⟩
      refine (seedPromotion_holds (hseed _ (hp _ _)) hst _).mono fun _ st' hst' => ?_
      refine ⟨hst', fun p h => ?_⟩
      cases h
      exact hp _ _
  refine Prog.holds_bind.2 ?_
  unfold readBalances
  split
  · exact holds_read rfl hst fun _ => holds_read rfl hst fun _ => hwith _
  · exact hwith _

end VibemeetBackend.Billing
