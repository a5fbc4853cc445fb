import VibemeetBackend.Async.Watch
import VibemeetBackend.Rewards.Credit

/-!
# The successful-referral reward

Its two paths: `processReferralRewardOnPurchase` (`user/referral.service.ts`) and
`tryCreditSuccessfulReferralOnCall` (`consumer-rewards/hooks.ts`).  The first sets the flag of the
referral and the wallet in one update and writes the row later, the second sets the flag and then
credits as a once task.
-/

namespace VibemeetBackend.Rewards

open Async Flow

/-! ### The two paths -/

def referralRewardTransactionId (referrerId referredUserId : String) : String :=
  "referral_reward_" ++ referrerId ++ "_" ++ referredUserId

def Store.grantable (s : Store) (referrerId referredUserId : String) : Bool :=
  (s.user referrerId).any fun u => u.grantable referredUserId

def ensureReferralEdgeForReferredUser (referredUserId : String) : RewardFlow Unit := do
  let (_, s) ← run (.findEdge referredUserId)
  match s.edge referredUserId with
  | some existing => do
    let (_, s) ← run (.findUser existing.referrerId)
    let entry := (s.user existing.referrerId).bind fun u =>
      u.referrals.find? fun r => r.user == referredUserId
    if (entry.any fun r => r.rewardGranted) = true ∧ existing.rewardGranted = false then do
      let _ ← run (.grantEdge referredUserId)
      pure ()
    else pure ()
  | none => do
    let (_, s) ← run (.findUser referredUserId)
    match (s.user referredUserId).bind User.referredBy with
    | none => pure ()
    | some referrerId => do
      let (_, s) ← run (.findUser referrerId)
      match (s.user referrerId).bind fun u => u.referrals.find? fun r => r.user == referredUserId with
      | none => pure ()
      | some entry => do
        -- a duplicate key is ignored
        let _ ← run (.createEdge ⟨referrerId, referredUserId, entry.rewardGranted⟩)
        pure ()

/-- `getSuccessfulReferralConfig`. -/
structure SuccessfulReferralConfig where
  enabled : Bool
  coins : ℤ
  minPurchaseInr : ℤ

def claimReferral (referrerId referredUserId : String) : RewardFlow Unit := do
  let _ ← ensureUserRewardProgress referrerId
  let _ ← run (.claim referrerId ("successful_referral_" ++ referredUserId))
  pure ()

def grantOnPurchase (referrerId referredUserId : String) (rewardCoins : ℤ) : RewardFlow Bool := do
  let (_, s) ← run (.grant referrerId referredUserId (some rewardCoins))
  -- `modifiedCount`
  if s.grantable referrerId referredUserId = false then pure false
  else do
    let _ ← attempt (run (.grantEdge referredUserId))
    let txnId := referralRewardTransactionId referrerId referredUserId
    let (_, s) ← run (.createTransaction ⟨txnId, referrerId, rewardCoins, "referral_reward"⟩)
    match s.ledger.row txnId with
    | some _ => pure true
    | none => do
      let _ ← attempt (claimReferral referrerId referredUserId)
      let _ ← run (.findUser referrerId)
      pure true

def processReferralRewardOnPurchase (live : Option SuccessfulReferralConfig) (env : ℤ × ℤ)
    (referredUserId : String) (purchasePriceInr : ℤ) : RewardFlow Bool :=
  let minInr := (live.map fun c => c.minPurchaseInr).getD env.1
  let rewardCoins := (live.map fun c => c.coins).getD env.2
  if (live.any fun c => !c.enabled) = true then pure false
  else if purchasePriceInr < minInr then pure false
  else do
    ensureReferralEdgeForReferredUser referredUserId
    let (_, s) ← run (.findUser referredUserId)
    match (s.user referredUserId).bind User.referredBy with
    | none => pure false
    | some referrerId => do
      let (_, s) ← run (.findUser referrerId)
      if ((s.user referrerId).all fun u => u.role != "user") = true then pure false
      else do
        let txnId := referralRewardTransactionId referrerId referredUserId
        let (_, s) ← run (.findTransaction txnId)
        match s.ledger.row txnId with
        | some _ => do
          let _ ← attempt (run (.grant referrerId referredUserId none))
          let _ ← attempt (run (.grantEdge referredUserId))
          pure false
        | none => grantOnPurchase referrerId referredUserId rewardCoins

structure CallReferralConfig where
  enabled : Bool
  taskEnabled : Bool
  minSeconds : Option ℕ
  coins : ℤ

def referralInput (referrerId referredUserId : String) (coins : ℤ) : OnceInput :=
  { userId := referrerId
    taskKey := "successful_referral"
    progressClaimKey := some ("successful_referral_" ++ referredUserId)
    transactionId := referralRewardTransactionId referrerId referredUserId
    coins
    source := "referral_reward" }

def tryCreditSuccessfulReferralOnCall (cfg : CallReferralConfig) (referredUserId : String)
    (durationSeconds attempts : ℕ) : RewardFlow Unit :=
  if cfg.enabled = false ∨ cfg.taskEnabled = false then pure ()
  else if durationSeconds < cfg.minSeconds.getD 150 then pure ()
  else if cfg.coins < 1 then pure ()
  else do
    let (_, s) ← run (.findUser referredUserId)
    match (s.user referredUserId).bind User.referredBy with
    | none => pure ()
    | some referrerId => do
      let (_, s) ← run (.findUser referrerId)
      if ((s.user referrerId).all fun u => u.role != "user") = true then pure ()
      else do
        let txnId := referralRewardTransactionId referrerId referredUserId
        let (_, s) ← run (.findTransaction txnId)
        match s.ledger.row txnId with
        | some _ => pure ()
        | none => do
          let (_, s) ← run (.grant referrerId referredUserId none)
          if s.grantable referrerId referredUserId = false then pure ()
          else do
            let _ ← creditOnceTaskReward (referralInput referrerId referredUserId cfg.coins) attempts
            pure ()

/-- What may happen around the reward for one referred user. -/
inductive ReferralRequest where
  | purchase (live : Option SuccessfulReferralConfig) (env : ℤ × ℤ) (purchasePriceInr : ℤ)
  | call (cfg : CallReferralConfig) (durationSeconds attempts : ℕ)
  | income (userId : String) (amount : ℤ)

def referralProgram (referredUserId : String) : ReferralRequest → Prog Cmd Reply Store Unit
  | .purchase live env purchasePriceInr =>
    (processReferralRewardOnPurchase live env referredUserId purchasePriceInr).run >>=
      fun _ => .ret ()
  | .call cfg durationSeconds attempts =>
    (tryCreditSuccessfulReferralOnCall cfg referredUserId durationSeconds attempts).run >>=
      fun _ => .ret ()
  | .income userId amount => .act (.incCoins userId amount) fun _ _ => .ret ()

/-! ### How far a request is -/

inductive ReferralStage where
  | idle
  /-- The request has set the flag, and has put this into the wallet with it. -/
  | granted (inc : Option ℤ)
  /-- The row is written, with these coins. -/
  | paid (coins : ℤ)

structure ReferralPhase where
  referrers : List String
  stage : ReferralStage

def ReferralPhase.start : ReferralPhase := ⟨[], .idle⟩

def ReferralStage.next (x : ReferralStage) (referredUserId : String) (c : Cmd) (r : Reply)
    (s : Store) : ReferralStage :=
  if r.delivered = false then x
  else
    match c with
    | .grant referrerId id inc =>
      if id = referredUserId ∧ s.grantable referrerId referredUserId = true then .granted inc else x
    | .createTransaction row =>
      if (s.ledger.row row.transactionId).isNone = true then .paid row.coins else x
    | .commit (some credit) => if credit.conflicts s = false then .paid credit.row.coins else x
    | _ => x

def ReferralPhase.next (referredUserId : String) (φ : ReferralPhase) (c : Cmd) (r : Reply)
    (s : Store) : ReferralPhase where
  referrers :=
    match c with
    | .findUser id =>
      if r.delivered = true ∧ id = referredUserId then
        φ.referrers ++ ((s.user id).bind User.referredBy).toList
      else φ.referrers
    | _ => φ.referrers
  stage := φ.stage.next referredUserId c r s

def ReferralPhase.RowOf (referredUserId : String) (φ : ReferralPhase) (row : CoinTransaction) :
    Prop :=
  row.userId ∈ φ.referrers ∧
    row.transactionId = referralRewardTransactionId row.userId referredUserId

/-- The flag is set once, and a row follows it. -/
def ReferralAllows (referredUserId : String) (φ : ReferralPhase) : Cmd → Prop
  | .grant referrerId id _ => id = referredUserId ∧ referrerId ∈ φ.referrers ∧ φ.stage = .idle
  | .createTransaction row => φ.RowOf referredUserId row ∧ φ.stage = .granted (some row.coins)
  | .commit (some credit) => φ.RowOf referredUserId credit.row ∧ φ.stage = .granted none
  | _ => True

abbrev ReferralFollows (referredUserId : String) (φ : ReferralPhase) {α : Type} (p : RewardFlow α)
    (Q : α → ReferralPhase → Prop) : Prop :=
  Follows (guarded (ReferralAllows referredUserId) (ReferralPhase.next referredUserId)) φ p Q
    fun _ _ => True

section protocol

variable {referredUserId : String} {φ : ReferralPhase} {α β : Type} {Q : α → ReferralPhase → Prop}

variable {f : Reply × Store → RewardFlow α} {c : Cmd}

theorem referral_run (hc : ReferralAllows referredUserId φ c)
    (h : ∀ r s, r.delivered = true →
      ReferralFollows referredUserId (φ.next referredUserId c r s) (f (r, s)) Q) :
    ReferralFollows referredUserId φ (run c >>= f) Q := by
  apply follows_guarded_bind hc
  · intro r s
    trivial
  · intro r s hr
    rw [Reply.ok, Bool.and_eq_true] at hr
    exact h r s hr.1

theorem referral_attempt {p : RewardFlow β} {f : Except String β → RewardFlow α}
    (hp : ReferralFollows referredUserId φ p fun _ _ => True)
    (h : ∀ x φ', ReferralFollows referredUserId φ' (f x) Q) :
    ReferralFollows referredUserId φ (attempt p >>= f) Q := by
  simp [hp, h]

theorem referral_last (hc : ReferralAllows referredUserId φ c) :
    ReferralFollows referredUserId φ (run c) fun _ _ => True := by
  simp_all [run]

def Cmd.plain : Cmd → Bool
  | .grant .. | .createTransaction _ | .commit (some _) => false
  | _ => true

theorem plain_allows (hc : c.plain = true) : ReferralAllows referredUserId φ c := by
  cases c with
  | grant referrerId id inc => cases hc
  | createTransaction row => cases hc
  | commit w =>
    cases w with
    | none => trivial
    | some credit => cases hc
  | _ => trivial

theorem plain_stage (hc : c.plain = true) (r : Reply) (s : Store) (x : ReferralStage) :
    x.next referredUserId c r s = x := by
  unfold ReferralStage.next
  split
  · rfl
  · split
    · cases hc
    · cases hc
    · cases hc
    · rfl

theorem referral_plain (hc : c.plain = true)
    (h : ∀ r s, r.delivered = true → ReferralFollows referredUserId
      ⟨(φ.next referredUserId c r s).referrers, φ.stage⟩ (f (r, s)) Q) :
    ReferralFollows referredUserId φ (run c >>= f) Q := by
  apply referral_run (plain_allows hc)
  intro r s hr
  have hstage : φ.stage.next referredUserId c r s = φ.stage := plain_stage hc r s φ.stage
  have hnext : φ.next referredUserId c r s =
      ⟨(φ.next referredUserId c r s).referrers, φ.stage⟩ :=
    congrArg (ReferralPhase.mk (φ.next referredUserId c r s).referrers) hstage
  rw [hnext]
  exact h r s hr

theorem edge_follows (referrers : List String) :
    ReferralFollows referredUserId ⟨referrers, .idle⟩
      (ensureReferralEdgeForReferredUser referredUserId) fun _ φ' => φ'.stage = .idle := by
  refine referral_plain rfl fun r s _ => ?_
  dsimp only
  split
  · refine referral_plain rfl fun r s _ => ?_
    split
    · exact referral_plain rfl fun _ _ _ => rfl
    · rfl
  · refine referral_plain rfl fun r s _ => ?_
    split
    · rfl
    · refine referral_plain rfl fun r s _ => ?_
      split
      · rfl
      · exact referral_plain rfl fun _ _ _ => rfl

theorem ensure_follows (userId : String) :
    ReferralFollows referredUserId φ (ensureUserRewardProgress userId) fun _ _ => True := by
  refine referral_plain rfl fun r s _ => ?_
  dsimp only
  split
  · trivial
  refine referral_plain rfl fun r s _ => ?_
  split
  · trivial
  refine referral_plain rfl fun r s _ => ?_
  split <;> trivial

theorem claim_follows (referrerId : String) :
    ReferralFollows referredUserId φ (claimReferral referrerId referredUserId) fun _ _ => True := by
  simp [ensure_follows, ReferralAllows, run, claimReferral]

theorem referral_ignore (hc : c.plain = true) (hread : ∀ id, c ≠ .findUser id)
    {f : Except String (Reply × Store) → RewardFlow α}
    (h : ∀ x, ReferralFollows referredUserId φ (f x) Q) :
    ReferralFollows referredUserId φ (attempt (run c) >>= f) Q := by
  apply follows_bind
  apply follows_attempt
  intro r s
  refine ⟨_, guarded_of (plain_allows hc), ?_⟩
  have hnext : φ.next referredUserId c r s = φ := by
    unfold ReferralPhase.next
    rw [plain_stage hc]
    split
    · exact absurd rfl (hread _)
    · rfl
  rw [hnext]
  show Prog.Follows _ _ (.ret (if r.ok = true then Except.ok (r, s) else .error _)) _
  cases r.ok <;> exact h _

variable {referrerId : String}

theorem mem_next_referrers (referredUserId : String) (r : Reply) (s : Store)
    (h : referrerId ∈ φ.referrers) : referrerId ∈ (φ.next referredUserId c r s).referrers := by
  unfold ReferralPhase.next
  split
  · split
    · exact List.mem_append_left _ h
    · exact h
  · exact h

theorem mem_read {r : Reply} {s : Store} (hr : r.delivered = true)
    (h : (s.user referredUserId).bind User.referredBy = some referrerId) :
    referrerId ∈ (φ.next referredUserId (.findUser referredUserId) r s).referrers := by
  show referrerId ∈ (if r.delivered = true ∧ referredUserId = referredUserId then _ else _)
  rw [if_pos ⟨hr, rfl⟩, h]
  simp

variable {referrers : List String}

theorem grant_follows {inc : Option ℤ} (hmem : referrerId ∈ referrers)
    (hnone : ∀ r s, s.grantable referrerId referredUserId = false →
      ReferralFollows referredUserId ⟨referrers, .idle⟩ (f (r, s)) Q)
    (hsome : ∀ r s, s.grantable referrerId referredUserId = true →
      ReferralFollows referredUserId ⟨referrers, .granted inc⟩ (f (r, s)) Q) :
    ReferralFollows referredUserId ⟨referrers, .idle⟩
      (run (.grant referrerId referredUserId inc) >>= f) Q := by
  refine referral_run ⟨rfl, hmem, rfl⟩ fun r s hr => ?_
  have hstage : ReferralStage.idle.next referredUserId (.grant referrerId referredUserId inc) r s =
      if referredUserId = referredUserId ∧ s.grantable referrerId referredUserId = true then
        .granted inc else .idle := if_neg (by simp [hr])
  show ReferralFollows referredUserId ⟨referrers, ReferralStage.idle.next referredUserId
    (.grant referrerId referredUserId inc) r s⟩ (f (r, s)) Q
  grind

theorem grantOnPurchase_follows (hmem : referrerId ∈ referrers) (rewardCoins : ℤ) :
    ReferralFollows referredUserId ⟨referrers, .idle⟩
      (grantOnPurchase referrerId referredUserId rewardCoins) fun _ _ => True := by
  apply grant_follows hmem
  · intro r s hgrantable
    dsimp only
    rw [if_pos hgrantable]
    trivial
  · intro r s hgrantable
    dsimp only
    rw [if_neg (by simp [hgrantable])]
    apply referral_ignore
    · rfl
    · intro id h
      cases h
    intro _
    refine referral_run ⟨⟨hmem, rfl⟩, rfl⟩ fun r s _ => ?_
    split
    · trivial
    · apply referral_attempt (claim_follows referrerId)
      simp [run, ReferralAllows]

theorem purchase_follows (live : Option SuccessfulReferralConfig) (env : ℤ × ℤ)
    (purchasePriceInr : ℤ) :
    ReferralFollows referredUserId .start
      (processReferralRewardOnPurchase live env referredUserId purchasePriceInr) fun _ _ => True := by
  unfold processReferralRewardOnPurchase
  dsimp only
  split
  · trivial
  split
  · trivial
  apply follows_bind
  apply Follows.mono (edge_follows [])
  · rintro _ ⟨referrers, stage⟩ hidle
    obtain rfl : stage = .idle := hidle
    refine referral_plain rfl fun r s hr => ?_
    split
    · trivial
    · rename_i referrerId hreferrer
      have hmem := mem_read (φ := ⟨referrers, .idle⟩) hr hreferrer
      refine referral_plain rfl fun r s _ => ?_
      have hmem := mem_next_referrers referredUserId (c := .findUser referrerId) r s hmem
      split
      · trivial
      refine referral_plain rfl fun r s _ => ?_
      have hmem := mem_next_referrers referredUserId
        (c := .findTransaction (referralRewardTransactionId referrerId referredUserId)) r s hmem
      split
      · apply referral_attempt
        · exact referral_last (c := .grant referrerId referredUserId none) ⟨rfl, hmem, rfl⟩
        intro _ φ'
        apply referral_attempt
        · exact referral_last (c := .grantEdge referredUserId) trivial
        intro _ _
        trivial
      · exact grantOnPurchase_follows hmem _
  · intro _ _ _
    trivial

theorem creditReferral_follows (hmem : referrerId ∈ referrers) (coins : ℤ) (attempts : ℕ) :
    ReferralFollows referredUserId ⟨referrers, .granted none⟩
      (creditOnceTaskReward (referralInput referrerId referredUserId coins) attempts)
      fun _ _ => True := by
  apply follows_bind
  apply follows_withTransaction transactions (P := fun φ => φ = ⟨referrers, .granted none⟩)
  · rintro φ r s rfl
    refine ⟨_, guarded_of trivial, ?_⟩
    have hstage : ReferralStage.next (.granted none) referredUserId .snapshot r s = .granted none :=
      plain_stage rfl r s _
    exact congrArg (ReferralPhase.mk referrers) hstage
  · rintro φ s₀ w a rfl hok r s
    have hspec := onceTask_spec hok
    cases w with
    | none =>
      refine ⟨_, guarded_of trivial, fun _ => ⟨?_, fun _ => trivial⟩, fun _ => ?_⟩
      · apply follows_issue_bind
        intro _ _
        exact ⟨_, guarded_of trivial, trivial⟩
      · have hstage : ReferralStage.next (.granted none) referredUserId (.commit none) r s =
            .granted none := plain_stage rfl r s _
        exact congrArg (ReferralPhase.mk referrers) hstage
    | some credit =>
      have hrow : ReferralPhase.RowOf referredUserId ⟨referrers, .granted none⟩ credit.row := by
        rw [hspec.1]
        exact ⟨hmem, rfl⟩
      refine ⟨_, guarded_of ⟨hrow, rfl⟩, fun _ => ⟨?_, fun _ => trivial⟩, fun happlied => ?_⟩
      · apply follows_issue_bind
        intro _ _
        exact ⟨_, guarded_of trivial, trivial⟩
      · apply congrArg (ReferralPhase.mk referrers)
        unfold ReferralStage.next
        split
        · rfl
        · rename_i hr
          have happlied : (r.delivered && !credit.conflicts s) = false := happlied
          rw [Bool.not_eq_false] at hr
          rw [hr, Bool.true_and, Bool.not_eq_false'] at happlied
          apply if_neg
          simp [happlied]
  · intro e φ _
    trivial
  · rfl

theorem call_follows (cfg : CallReferralConfig) (durationSeconds attempts : ℕ) :
    ReferralFollows referredUserId .start
      (tryCreditSuccessfulReferralOnCall cfg referredUserId durationSeconds attempts)
      fun _ _ => True := by
  unfold tryCreditSuccessfulReferralOnCall
  split
  · trivial
  split
  · trivial
  split
  · trivial
  refine referral_plain rfl fun r s hr => ?_
  dsimp only
  split
  · trivial
  · rename_i referrerId hreferrer
    have hmem := mem_read (φ := .start) hr hreferrer
    refine referral_plain rfl fun r s _ => ?_
    have hmem := mem_next_referrers referredUserId (c := .findUser referrerId) r s hmem
    split
    · trivial
    refine referral_plain rfl fun r s _ => ?_
    have hmem := mem_next_referrers referredUserId
      (c := .findTransaction (referralRewardTransactionId referrerId referredUserId)) r s hmem
    split
    · trivial
    · apply grant_follows hmem
      · intro r s hgrantable
        rw [if_pos hgrantable]
        trivial
      · intro r s hgrantable
        rw [if_neg (by simp [hgrantable])]
        apply follows_bind
        apply Follows.mono (creditReferral_follows hmem cfg.coins attempts)
        · intro _ _ _
          trivial
        · intro _ _ _
          trivial

theorem referralProgram_follows (referredUserId : String) (q : ReferralRequest) :
    (referralProgram referredUserId q).Follows
      (guarded (ReferralAllows referredUserId) (ReferralPhase.next referredUserId)) .start
      fun _ _ => True := by
  cases q with
  | purchase live env purchasePriceInr =>
    exact Follows.run (purchase_follows live env purchasePriceInr)
  | call cfg durationSeconds attempts =>
    exact Follows.run (call_follows cfg durationSeconds attempts)
  | income userId amount => exact fun r s => ⟨_, guarded_of trivial, trivial⟩

end protocol

end VibemeetBackend.Rewards
