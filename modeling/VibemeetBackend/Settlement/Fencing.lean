import VibemeetBackend.Async.Watch
import VibemeetBackend.Settlement.Absorbing
import VibemeetBackend.Settlement.Records

/-!
# Is the durable session fenced?

A finalizer claims the durable session and is told the version of its claim.  The updates that settle
the session or mark it failed look at `finalized` only, and the first writes back the finalizer's own
version.
-/

namespace VibemeetBackend.Settlement

open Async Flow Billing Pool

abbrev SettlementEvent : Type := Event SettlementCmd SettlementReply SettlementStore

/-! ### Claims and completing writes -/

def claimVersionOf (c : SettlementCmd) (r : SettlementReply) (s : SettlementStore) : Option ℤ :=
  match c with
  | .claimDurable =>
    if r.delivered then
      (s.durable.filter (·.isOpen claimableStates)).map fun d => d.settlementVersion + 1
    else none
  | .takeoverDurable maxSettlingMs =>
    if r.delivered then
      (s.durable.filter (DurableRow.isStale maxSettlingMs r.now)).map fun d =>
        d.settlementVersion + 1
    else none
  | _ => none

def claimVersion (e : SettlementEvent) : Option ℤ := claimVersionOf e.cmd e.ans e.before

def claimVersions (log : List (Option ℤ × SettlementEvent)) : List ℤ :=
  log.filterMap fun x => claimVersion x.2

def Completes (e : SettlementEvent) : Prop :=
  (e.after.durableState = some .settled ∨ e.after.durableState = some .failedSettlement) ∧
    e.before.durableState ≠ e.after.durableState

/-- The version that a process holds after a command.  A process that has marked the session failed
has given up its claim. -/
def holdNext (φ : Option ℤ) (c : SettlementCmd) (r : SettlementReply) (s : SettlementStore) :
    Option ℤ :=
  match claimVersionOf c r s with
  | some v => some v
  | none =>
    match c with
    | .markDurableFailed => if r.delivered then none else φ
    | _ => φ

def HoldAllows (φ : Option ℤ) : SettlementCmd → Prop
  | .markDurableSettled version => φ = some version
  | _ => True

/-- A step of a process that holds the version `x.1`. -/
structure FencedAt (l : List (Option ℤ × SettlementEvent)) (x : Option ℤ × SettlementEvent) :
    Prop where
  monotone : ∀ d d', x.2.before.durable = some d → x.2.after.durable = some d' →
    d.settlementVersion ≤ d'.settlementVersion
  fresh : ∀ v, claimVersion x.2 = some v → v ∉ claimVersions l
  latest : Completes x.2 → ∃ v, x.1 = some v ∧ ∀ v' ∈ claimVersions l, v' ≤ v

instance (e : SettlementEvent) : Decidable (Completes e) :=
  inferInstanceAs (Decidable
    ((e.after.durableState = some .settled ∨ e.after.durableState = some .failedSettlement) ∧
      e.before.durableState ≠ e.after.durableState))

def Fenced (log : List (Option ℤ × SettlementEvent)) : Prop := Along FencedAt log

def UnderOwnClaim (x : Option ℤ × SettlementEvent) : Prop :=
  ∃ v d, x.1 = some v ∧ x.2.before.durable = some d ∧ d.state = .settling ∧ d.settlementVersion = v

instance (x : Option ℤ × SettlementEvent) : Decidable (UnderOwnClaim x) :=
  decidable_of_iff (∃ v ∈ x.1, ∃ d ∈ x.2.before.durable, d.state = .settling ∧
      d.settlementVersion = v) (by
    constructor
    · rintro ⟨v, hv, d, hd, hown⟩
      exact ⟨v, d, hv, hd, hown⟩
    · rintro ⟨v, d, hv, hd, hown⟩
      exact ⟨v, hv, d, hd, hown⟩)

/-! ### What a command does to the session -/

variable {c : SettlementCmd} {r : SettlementReply} {s : SettlementStore} {d : DurableRow}

/-- What a command is to the session `d`. -/
inductive DurableStep (c : SettlementCmd) (r : SettlementReply) (s : SettlementStore)
    (d : DurableRow) : DurableRow → Prop where
  | claimed (d' : DurableRow) : claimVersionOf c r s = some d'.settlementVersion →
      d'.settlementVersion = d.settlementVersion + 1 → d'.state = .settling →
      d.finalized = false → d'.finalized = false → (∀ v, c ≠ .markDurableSettled v) →
      DurableStep c r s d d'
  | settled (v : ℤ) : c = .markDurableSettled v → r.delivered = true → d.finalized = false →
      DurableStep c r s d (settleDurable v r.now d)
  | failed : c = .markDurableFailed → r.delivered = true → d.finalized = false →
      DurableStep c r s d (failDurable r.now d)
  | reset : c = .resetDurable → d.finalized = false → d.state = .failedSettlement →
      DurableStep c r s d (resetDurable r.now d)
  | other (d' : DurableRow) : claimVersionOf c r s = none → d'.state = d.state →
      d'.settlementVersion = d.settlementVersion → d'.finalized = d.finalized →
      (c = .markDurableFailed → r.delivered = true → d.finalized = true) → DurableStep c r s d d'

theorem isOpen_iff {states : List DurableState} :
    d.isOpen states = true ↔ d.finalized = false ∧ d.state ∈ states := by
  rw [DurableRow.isOpen, Bool.and_eq_true, Bool.not_eq_true', List.contains_iff_mem]

theorem updateWhere_some (filter : DurableRow → Bool) (f : DurableRow → DurableRow) :
    updateWhere filter f (some d) = some (if filter d then f d else d) := rfl

theorem durable_setLock (s : SettlementStore) (v : Option String) (k : LockKey) :
    (s.setLock v k).durable = s.durable := by
  cases k <;> rfl

theorem durable_setHistory (s : SettlementStore) (row : Option HistoryRow) (role : OwnerRole) :
    (s.setHistory row role).durable = s.durable := by
  cases role <;> rfl

/-- **What a command does to the durable session.** -/
theorem durableStep_exec (hd : s.durable = some d) (c : SettlementCmd) (r : SettlementReply) :
    ∃ d', DurableStep c r s d d' ∧ (exec c r s).durable = some d' := by
  by_cases hr : r.delivered = true
  · rw [exec_delivered hr]
    cases c with
    | claimDurable =>
      refine ⟨_, ?_, (congrArg _ hd).trans (updateWhere_some _ _)⟩
      split
      · rename_i hopen
        refine .claimed _ ?_ rfl rfl (isOpen_iff.1 hopen).1 (isOpen_iff.1 hopen).1
          (by rintro v ⟨⟩)
        simp [claimVersionOf, hr, hd, hopen, Option.filter, claimDurable]
      · rename_i hopen
        refine .other _ ?_ rfl rfl rfl (by rintro ⟨⟩)
        simp [claimVersionOf, hd, hopen, Option.filter]
    | takeoverDurable m =>
      refine ⟨_, ?_, (congrArg _ hd).trans (updateWhere_some _ _)⟩
      split
      · rename_i hstale
        have hopen : d.isOpen [.settling] = true := by
          rw [DurableRow.isStale, Bool.and_eq_true] at hstale
          exact hstale.1
        obtain ⟨hfinal, hstate⟩ := isOpen_iff.1 hopen
        refine .claimed _ ?_ rfl (List.mem_singleton.1 hstate) hfinal hfinal (by rintro v ⟨⟩)
        simp [claimVersionOf, hr, hd, hstale, Option.filter, takeoverDurable]
      · rename_i hstale
        refine .other _ ?_ rfl rfl rfl (by rintro ⟨⟩)
        simp [claimVersionOf, hd, hstale, Option.filter]
    | markDurableSettled v =>
      refine ⟨_, ?_, (congrArg _ hd).trans (updateWhere_some _ _)⟩
      split
      · rename_i hfinal
        rw [DurableRow.unfinalized, Bool.not_eq_true'] at hfinal
        exact .settled v rfl hr hfinal
      · exact .other _ rfl rfl rfl rfl (by rintro ⟨⟩)
    | markDurableFailed =>
      refine ⟨_, ?_, (congrArg _ hd).trans (updateWhere_some _ _)⟩
      split
      · rename_i hfinal
        rw [DurableRow.unfinalized, Bool.not_eq_true'] at hfinal
        exact .failed rfl hr hfinal
      · rename_i hfinal
        rw [DurableRow.unfinalized, Bool.not_eq_true', Bool.not_eq_false] at hfinal
        exact .other _ rfl rfl rfl rfl fun _ _ => hfinal
    | resetDurable =>
      refine ⟨_, ?_, (congrArg _ hd).trans (updateWhere_some _ _)⟩
      split
      · rename_i hopen
        obtain ⟨hfinal, hstate⟩ := isOpen_iff.1 hopen
        exact .reset rfl hfinal (List.mem_singleton.1 hstate)
      · exact .other _ rfl rfl rfl rfl (by rintro ⟨⟩)
    | raiseDurableTotals totals =>
      refine ⟨_, .other (raiseDurableTotals totals r.now d) rfl rfl rfl rfl (by rintro ⟨⟩), ?_⟩
      exact congrArg (Option.map _) hd
    | lock k token =>
      refine ⟨d, .other d rfl rfl rfl rfl (by rintro ⟨⟩), ?_⟩
      rw [effect]
      split
      · rw [durable_setLock, hd]
      · exact hd
    | release k token =>
      refine ⟨d, .other d rfl rfl rfl rfl (by rintro ⟨⟩), ?_⟩
      rw [effect]
      split
      · rw [durable_setLock, hd]
      · exact hd
    | delLock k | expireLock k =>
      exact ⟨d, .other d rfl rfl rfl rfl (by rintro ⟨⟩), (durable_setLock _ _ k).trans hd⟩
    | upsertPending role | projectSettled role =>
      exact ⟨d, .other d rfl rfl rfl rfl (by rintro ⟨⟩), (durable_setHistory _ _ role).trans hd⟩
    | persistEvent e =>
      refine ⟨d, .other d rfl rfl rfl rfl (by rintro ⟨⟩), ?_⟩
      rw [effect]
      split <;> exact hd
    | _ => exact ⟨d, .other d rfl rfl rfl rfl (by rintro ⟨⟩), hd⟩
  · rw [exec_lost hr]
    refine ⟨d, .other d ?_ rfl rfl rfl (fun _ h => absurd h hr), hd⟩
    cases c <;> simp [claimVersionOf, hr]

/-! ### The protocol of a claim -/

section protocol

variable {φ : Option ℤ} {α : Type} (cfg : SettlementConfig)

/-- The command neither claims nor completes the session. -/
def Steady : SettlementCmd → Prop
  | .claimDurable | .takeoverDurable _ | .markDurableSettled _ | .markDurableFailed => False
  | _ => True

theorem holdNext_of_claim {v : ℤ} (h : claimVersionOf c r s = some v) :
    holdNext φ c r s = some v := by
  unfold holdNext
  rw [h]

theorem holdNext_steady (h : Steady c) : HoldAllows φ c ∧ holdNext φ c r s = φ := by
  cases c with
  | claimDurable | takeoverDurable | markDurableSettled | markDurableFailed => exact h.elim
  | _ => exact ⟨trivial, rfl⟩

abbrev KeepsHold (φ : Option ℤ) (p : SettlementFlow α) : Prop :=
  Follows (guarded HoldAllows holdNext) φ p (fun _ φ' => φ' = φ) fun _ φ' => φ' = φ

abbrev FollowsHold (p : SettlementFlow α) : Prop :=
  Anytime (guarded HoldAllows holdNext) p

variable {p : SettlementFlow α}

theorem keepsHold_of_steady (hp : p.Issues (fun _ => True) Steady) : KeepsHold φ p := by
  apply follows_of_issues hp
  intro c hc r s
  obtain ⟨hallows, hnext⟩ := holdNext_steady (φ := φ) (r := r) (s := s) hc
  rw [guarded_of hallows, hnext]

theorem followsHold_of_steady (hp : p.Issues (fun _ => True) Steady) :
    FollowsHold p := fun _ =>
  (keepsHold_of_steady hp).mono (fun _ _ _ => trivial) fun _ _ _ => trivial

theorem followsHold_of_plain (hp : IsPlain p) : FollowsHold p := by
  apply anytime_of_issues hp
  intro c hc φ r s
  refine ⟨_, guarded_of ?_⟩
  cases c with
  | markDurableSettled v => cases hc
  | _ => trivial

variable {f : SettlementReply × SettlementStore → SettlementFlow α}

theorem followsHold_call {ok : SettlementReply → Bool} {err : String} {c : SettlementCmd}
    (hc : ∀ φ, HoldAllows φ c) (hf : ∀ r s, FollowsHold (f (r, s))) :
    FollowsHold (call ok err c >>= f) :=
  anytime_call_bind (fun φ _ _ => ⟨_, guarded_of (hc φ)⟩) hf

/-! ### Steady programs -/

theorem steady_call {ok : SettlementReply → Bool} {err : String} {c : SettlementCmd}
    (hc : Steady c) (h : ∀ r s, (f (r, s)).Issues (fun _ => True) Steady) :
    (call ok err c >>= f).Issues (fun _ => True) Steady :=
  issues_call_bind hc fun r s _ => h r s

theorem isCallBillingAlreadySettled_steady :
    (isCallBillingAlreadySettled cfg).Issues (fun _ => True) Steady := by
  simp [isDurableCallSessionFinalized, Steady, run, isCallBillingAlreadySettled]

theorem settleAttempts_steady (attempts : ℕ) :
    (settleAttempts cfg attempts).Issues (fun _ => True) Steady := by
  induction attempts with
  | zero => exact issues_throw _
  | succ attempts ih =>
    have hrest : ∀ (r : SettlementReply) (committed : Bool), Issues (fun _ => True) Steady
        (if committed = true then pure ()
        else if r.view.transient = true ∧ 0 < attempts then settleAttempts cfg attempts
        else do
          let _ ← quiet .delSettledKey
          throw "settlement transaction error") := by
      intro r committed
      split
      · exact issues_pure _
      · split
        · exact ih
        · exact steady_call trivial fun _ _ => issues_throw _
    refine steady_call trivial fun r s => ?_
    dsimp only
    split
    · exact hrest r true
    · split
      · exact issues_bind (isCallBillingAlreadySettled_steady cfg) (hrest r)
      · exact hrest r false

theorem settleCall_steady (fromFinalizer : Bool) (lockToken : String) :
    (settleCall cfg fromFinalizer lockToken).Issues (fun _ => True) Steady := by
  simp [settleCall, settleAttempts_steady, Steady, quiet, run]

theorem projectCallHistory_steady (coinsDeducted : ℕ) :
    (projectCallHistoryFromBillingEvent (.settled coinsDeducted)).Issues (fun _ => True) Steady := by
  apply issues_tryCatch
  · simp [Steady, run, projectEvent]
  · intro _
    exact issues_pure _

theorem projectCallHistory_follows (e : ProjectionEvent) :
    FollowsHold (projectCallHistoryFromBillingEvent e) := by
  cases e with
  | settled coinsDeducted => exact followsHold_of_steady (projectCallHistory_steady coinsDeducted)
  | _ => exact followsHold_of_plain (projectCallHistoryFromBillingEvent_plain rfl)

/-! ### The finalizer -/

theorem followsHold_plain_bind {β : Type} {p : SettlementFlow β} {f : β → SettlementFlow α}
    (hp : IsPlain p) (hf : ∀ x, FollowsHold (f x)) : FollowsHold (p >>= f) :=
  anytime_bind (followsHold_of_plain hp) hf

theorem steady_bind {β : Type} {p : SettlementFlow β} {f : β → SettlementFlow α}
    (hp : p.Issues (fun _ => True) Steady)
    (hf : ∀ x, Follows (guarded HoldAllows holdNext) φ (f x) (fun _ _ => True)
      fun _ _ => True) :
    Follows (guarded HoldAllows holdNext) φ (p >>= f) (fun _ _ => True)
      fun _ _ => True := by
  apply follows_bind
  apply (keepsHold_of_steady hp).mono
  · rintro x φ' rfl
    exact hf x
  · intro _ _ _
    trivial

theorem retry_follows (p : FinalizeParams) (status : FinalizeStatus) :
    FollowsHold (do
      enqueueSettlementRetry cfg p
      pure status) :=
  followsHold_plain_bind (enqueueRetry_plain cfg p) fun _ => anytime_pure _

theorem retryThenRelease_follows (p : FinalizeParams) (token : String) (status : FinalizeStatus) :
    FollowsHold (do
      enqueueSettlementRetry cfg p
      let _ ← quiet (.release .finalizeInflight token)
      pure status) :=
  followsHold_plain_bind (enqueueRetry_plain cfg p) fun _ =>
    followsHold_call (fun _ => trivial) fun _ _ => anytime_pure _

theorem teardown_follows (status : FinalizeStatus) :
    FollowsHold (do
      ensureTerminalBillingTeardown cfg
      pure status) :=
  followsHold_plain_bind (ensureTerminalBillingTeardown_plain cfg) fun _ => anytime_pure _

theorem pollThenRetry_follows (p : FinalizeParams) (token : String) :
    FollowsHold (do
      if (← pollUntilSettled cfg) = true then do
        ensureTerminalBillingTeardown cfg
        let _ ← quiet (.release .finalizeInflight token)
        pure FinalizeStatus.duplicate
      else do
        enqueueSettlementRetry cfg p
        let _ ← quiet (.release .finalizeInflight token)
        pure FinalizeStatus.pendingRetry) := by
  apply followsHold_plain_bind (pollUntilSettled_plain cfg)
  intro settled
  split
  · apply followsHold_plain_bind (ensureTerminalBillingTeardown_plain cfg)
    intro _
    exact followsHold_call (fun _ => trivial) fun _ _ => anytime_pure _
  · exact retryThenRelease_follows cfg p token _

theorem afterSettlement_follows {v : ℤ}
    (hφ : cfg.durableCallSessionEnabled = true → φ = some v) :
    Follows (guarded HoldAllows holdNext) φ (afterSettlement cfg v)
      (fun _ _ => True) fun _ _ => True := by
  have hkey : FollowsHold (do
      let _ ← quiet .setSettledKey
      let _ ← quiet (.delLock .settlementClaim)
      pure FinalizeStatus.settled) := by
    refine followsHold_call (fun _ => trivial) fun _ _ => ?_
    exact followsHold_call (fun _ => trivial) fun _ _ => anytime_pure _
  have hproject : ∀ e, FollowsHold (enqueueCallBillingProjectionEvent cfg e) := by
    intro e
    rw [enqueueCallBillingProjectionEvent]
    split
    · exact followsHold_call (fun _ => trivial) fun _ _ => anytime_pure _
    · exact projectCallHistory_follows e
  have hlast : FollowsHold (do
      let read ← quiet .query
      if cfg.billingOutboxProjectionEnabled = true then
        enqueueCallBillingProjectionEvent cfg (.settled read.1.view.coinsDeducted)
      let _ ← quiet .setSettledKey
      let _ ← quiet (.delLock .settlementClaim)
      pure FinalizeStatus.settled) := by
    refine followsHold_call (fun _ => trivial) fun r s => ?_
    dsimp only
    split
    · exact anytime_bind (hproject _) fun _ => hkey
    · exact hkey
  apply follows_guarded_bind trivial
  · intro r s
    trivial
  · intro r s _
    dsimp only
    split
    · rename_i henabled
      refine follows_guarded_bind (hφ henabled) (fun _ _ => trivial) fun _ _ _ => ?_
      exact hlast _
    · exact hlast _

theorem settleClaimed_follows (p : FinalizeParams) (lockToken : String) (source : RecoverySource)
    {v : ℤ} (hφ : cfg.durableCallSessionEnabled = true → φ = some v) :
    Follows (guarded HoldAllows holdNext) φ
      (settleClaimed cfg p lockToken source v) (fun _ _ => True) fun _ _ => True := by
  apply follows_guarded_bind trivial
  · intro r s
    trivial
  intro r s _
  dsimp only
  split
  · split
    · exact retry_follows cfg p _ _
    · exact followsHold_plain_bind (moveCallToRecoveryDeadLetter_plain cfg)
        (fun _ => anytime_pure _) _
  · apply steady_bind (isCallBillingAlreadySettled_steady cfg)
    intro settled
    split
    · exact teardown_follows cfg _ _
    · apply follows_guarded_bind trivial
      · intro r s
        trivial
      intro r s _
      split
      · exact retry_follows cfg p _ _
      · apply steady_bind (settleCall_steady cfg true lockToken)
        intro result
        split
        · exact afterSettlement_follows cfg hφ
        · apply steady_bind (isCallBillingAlreadySettled_steady cfg)
          intro settled
          split
          · exact teardown_follows cfg _ _
          · exact retry_follows cfg p _ _

theorem claim_follows :
    Follows (guarded HoldAllows holdNext) φ (claimDurableCallSessionForSettlement cfg)
      (fun result φ' => match result with
        | .ok v => φ' = some v
        | _ => True) fun _ _ => True := by
  have hdelivered : ∀ {r : SettlementReply}, r.ok = true → r.delivered = true := by
    intro r hr
    rw [SettlementReply.ok, Bool.and_eq_true] at hr
    exact hr.1
  apply follows_guarded_bind trivial
  · intro r s
    trivial
  intro r s hr
  dsimp only
  split
  · rename_i d hfound
    have hhold : holdNext φ .claimDurable r s = some (d.settlementVersion + 1) := by
      apply holdNext_of_claim
      simp [claimVersionOf, (hdelivered hr), hfound]
    rw [hhold]
    apply follows_guarded_bind trivial
    · intro _ _
      trivial
    · intro _ _ _
      rfl
  · apply follows_guarded_bind trivial
    · intro _ _
      trivial
    intro _ s' _
    split
    · trivial
    split
    · trivial
    split
    · apply follows_guarded_bind trivial
      · intro _ _
        trivial
      intro r s hr
      split
      · rename_i d hfound
        have hhold : ∀ φ, holdNext φ (.takeoverDurable cfg.billingMaxSettlingMs) r s =
            some (d.settlementVersion + 1) := by
          intro φ
          apply holdNext_of_claim
          simp [claimVersionOf, (hdelivered hr), hfound]
        rw [hhold]
        apply follows_guarded_bind trivial
        · intro _ _
          trivial
        intro _ _ _
        apply follows_guarded_bind trivial
        · intro _ _
          trivial
        · intro _ _ _
          rfl
      · trivial
    · trivial

theorem handleDurableClaimLost_follows (p : FinalizeParams) (token : String)
    (detail : ClaimLostDetail) : FollowsHold (handleDurableClaimLost cfg p token detail) := by
  cases detail with
  | settlingActive => exact pollThenRetry_follows cfg p token
  | settlingStaleRace =>
    rw [handleDurableClaimLost]
    split
    · apply followsHold_plain_bind (moveCallToRecoveryDeadLetter_plain cfg)
      intro _
      exact followsHold_call (fun _ => trivial) fun _ _ => anytime_pure _
    · exact retryThenRelease_follows cfg p token _
  | stateBlocked =>
    refine followsHold_call (fun _ => trivial) fun r s => ?_
    dsimp only
    split
    · refine followsHold_call (fun _ => trivial) fun _ _ => ?_
      apply followsHold_plain_bind (attemptFailedSettlementRecovery_plain cfg false)
      intro recovered
      split
      · exact anytime_pure _
      · exact retry_follows cfg p _
    · exact retryThenRelease_follows cfg p token _

theorem claimAndSettle_follows (p : FinalizeParams) (inflightToken ownerToken : String)
    (source : RecoverySource) :
    FollowsHold (claimAndSettle cfg p inflightToken ownerToken source) := by
  intro φ
  rw [claimAndSettle]
  split
  · apply follows_bind
    apply (claim_follows cfg).mono
    · intro claim φ' hφ'
      cases claim with
      | ok v =>
        exact settleClaimed_follows cfg p ownerToken source fun _ => hφ'
      | alreadyFinalized => exact teardown_follows cfg _ _
      | claimLost detail => exact handleDurableClaimLost_follows cfg p inflightToken detail _
    · intro _ _ _
      trivial
  · rename_i hdisabled
    refine follows_guarded_bind trivial (fun _ _ => trivial) fun _ _ _ => ?_
    exact settleClaimed_follows cfg p ownerToken source fun henabled => absurd henabled hdisabled

theorem finalizeLocked_follows (p : FinalizeParams) (inflightToken ownerToken : String)
    (source : RecoverySource) :
    FollowsHold (do
      let result ← attempt
        (tryCatch (claimAndSettle cfg p inflightToken ownerToken source) fun _ => do
          enqueueSettlementRetry cfg p
          pure .pendingRetry)
      let _ ← quiet (.release .settleLock ownerToken)
      let _ ← quiet (.delLock .settlementClaim)
      let _ ← quiet (.release .finalizeInflight inflightToken)
      ExceptT.mk (pure result)) := by
  apply anytime_bind
  · apply anytime_attempt
    apply anytime_tryCatch (claimAndSettle_follows cfg p inflightToken ownerToken source)
    intro _
    exact retry_follows cfg p _
  · intro result
    refine followsHold_call (fun _ => trivial) fun _ _ => ?_
    refine followsHold_call (fun _ => trivial) fun _ _ => ?_
    refine followsHold_call (fun _ => trivial) fun _ _ => ?_
    exact anytime_mk result

theorem finalizeCallSession_follows (p : FinalizeParams) (inflightToken ownerToken : String) :
    FollowsHold (finalizeCallSession cfg p inflightToken ownerToken) := by
  rw [finalizeCallSession]
  split
  · apply anytime_bind (followsHold_of_steady (settleCall_steady cfg false ownerToken))
    intro _
    exact anytime_pure _
  refine followsHold_call (fun _ => trivial) fun r₀ _ => ?_
  refine followsHold_call (fun _ => trivial) fun r s => ?_
  dsimp only
  split
  · exact anytime_pure _
  refine followsHold_call (fun _ => trivial) fun r s => ?_
  dsimp only
  split
  · refine followsHold_call (fun _ => trivial) fun r s => ?_
    split
    · exact anytime_pure _
    split
    · apply anytime_bind
      · exact anytime_attempt (followsHold_of_plain (enqueueRetry_plain cfg p))
      · intro _
        exact anytime_pure _
    · exact anytime_pure _
  refine followsHold_call (fun _ => trivial) fun r s => ?_
  dsimp only
  split
  · refine followsHold_call (fun _ => trivial) fun _ _ => ?_
    exact retry_follows cfg p _
  apply anytime_bind (followsHold_of_steady (isCallBillingAlreadySettled_steady cfg))
  intro settled
  split
  · apply followsHold_plain_bind (ensureTerminalBillingTeardown_plain cfg)
    intro _
    exact followsHold_call (fun _ => trivial) fun _ _ => anytime_pure _
  have hclaim : FollowsHold (do
      let claim ← run (.lock .settlementClaim ownerToken)
      if claim.2.settlementClaim.isSome = true then
        if (← pollUntilSettled cfg) = true then do
          ensureTerminalBillingTeardown cfg
          let _ ← quiet (.release .finalizeInflight inflightToken)
          pure FinalizeStatus.duplicate
        else do
          enqueueSettlementRetry cfg p
          let _ ← quiet (.release .finalizeInflight inflightToken)
          pure FinalizeStatus.pendingRetry
      else do
        let lock ← run (.lock .settleLock ownerToken)
        if lock.2.settleLock.isSome = true then do
          let _ ← quiet (.delLock .settlementClaim)
          if (← pollUntilSettled cfg) = true then do
            ensureTerminalBillingTeardown cfg
            let _ ← quiet (.release .finalizeInflight inflightToken)
            pure FinalizeStatus.duplicate
          else do
            enqueueSettlementRetry cfg p
            let _ ← quiet (.release .finalizeInflight inflightToken)
            pure FinalizeStatus.pendingRetry
        else do
          let result ← attempt
            (tryCatch (claimAndSettle cfg p inflightToken ownerToken r₀.view.recoverySource)
              fun _ => do
                enqueueSettlementRetry cfg p
                pure .pendingRetry)
          let _ ← quiet (.release .settleLock ownerToken)
          let _ ← quiet (.delLock .settlementClaim)
          let _ ← quiet (.release .finalizeInflight inflightToken)
          ExceptT.mk (pure result)) := by
    refine followsHold_call (fun _ => trivial) fun r s => ?_
    dsimp only
    split
    · exact pollThenRetry_follows cfg p inflightToken
    refine followsHold_call (fun _ => trivial) fun r s => ?_
    split
    · refine followsHold_call (fun _ => trivial) fun _ _ => ?_
      exact pollThenRetry_follows cfg p inflightToken
    · exact finalizeLocked_follows cfg p inflightToken ownerToken r₀.view.recoverySource
  split
  · exact followsHold_plain_bind (tryStaleDurableSettlingTakeover_plain cfg) fun _ => hclaim
  · exact followsHold_plain_bind (tryStaleSettlingTakeover_plain cfg) fun _ => hclaim

theorem processSettlementRetry_follows (inflightToken ownerToken : String) :
    FollowsHold (processSettlementRetry cfg inflightToken ownerToken) := by
  refine followsHold_call (fun _ => trivial) fun r s => ?_
  dsimp only
  split
  · exact anytime_pure _
  refine followsHold_call (fun _ => trivial) fun r s => ?_
  split
  · exact followsHold_call (fun _ => trivial) fun _ _ => anytime_pure _
  · rename_i p _
    apply anytime_tryCatch
    · refine followsHold_call (fun _ => trivial) fun _ _ => ?_
      apply anytime_bind (finalizeCallSession_follows cfg p inflightToken ownerToken)
      intro status
      split
      · exact anytime_pure _
      · exact followsHold_call (fun _ => trivial) fun _ _ => anytime_pure _
    · intro _
      apply anytime_bind
      · exact anytime_attempt (followsHold_of_plain (enqueueRetry_plain cfg p))
      · intro _
        exact anytime_pure _

/-- **Every party follows the protocol.** -/
theorem program_followsHold (q : Request) :
    (program cfg q).Follows (guarded HoldAllows holdNext) none fun _ _ => True := by
  have hreturn : ∀ {f : SettlementFlow Unit}, FollowsHold f →
      (f.run >>= fun _ => Prog.ret ()).Follows (guarded HoldAllows holdNext) none
        fun _ _ => True := by
    intro f hf
    apply Prog.follows_bind.2
    exact Prog.Follows.mono (hf none) fun _ _ _ => trivial
  apply hreturn
  cases q with
  | finalize p inflightToken ownerToken =>
    apply anytime_bind (finalizeCallSession_follows cfg p inflightToken ownerToken)
    intro _
    exact anytime_pure _
  | retryWorker inflightToken ownerToken =>
    exact processSettlementRetry_follows cfg inflightToken ownerToken
  | deadLetter =>
    refine followsHold_call (fun _ => trivial) fun r s => ?_
    dsimp only
    split
    · exact anytime_pure _
    · exact followsHold_of_plain (moveCallToRecoveryDeadLetter_plain cfg)
  | recover force =>
    apply followsHold_plain_bind (attemptFailedSettlementRecovery_plain cfg force)
    intro _
    exact anytime_pure _
  | ending =>
    dsimp only
    split
    · exact followsHold_of_plain (enqueueCallBillingProjectionEvent_plain cfg rfl)
    · exact followsHold_of_plain (upsertPendingCallHistoryOnEnding_plain cfg)
  | deliver e =>
    refine followsHold_call (fun _ => trivial) fun r s => ?_
    dsimp only
    split
    · exact projectCallHistory_follows e
    · exact anytime_pure _
  | expire c => exact followsHold_of_plain (expireKey_plain c)

end protocol

/-! ### The invariant -/

variable {φ : Option ℤ} {φs : List (Option ℤ)} {l : List (Option ℤ × SettlementEvent)}
  {t : SettlementStore} {d' : DurableRow}

theorem claimVersions_snoc (l : List (Option ℤ × SettlementEvent))
    (x : Option ℤ × SettlementEvent) :
    claimVersions (l ++ [x]) = claimVersions l ++ (claimVersion x.2).toList := by
  cases h : claimVersion x.2 <;> simp [claimVersions, h]

/-- Who holds the session `d`, while every completing write was under its own claim. -/
structure Holds (φs : List (Option ℤ)) (l : List (Option ℤ × SettlementEvent)) (d : DurableRow) :
    Prop where
  claimed : ∀ v ∈ claimVersions l, v ≤ d.settlementVersion
  held : ∀ (i : ℕ) (v : ℤ), φs[i]? = some (some v) → v ∈ claimVersions l
  sole : ∀ (i j : ℕ) (v : ℤ), φs[i]? = some (some v) → φs[j]? = some (some v) → i = j
  latest : d.finalized = false → ∀ (i : ℕ) (v : ℤ), φs[i]? = some (some v) →
    (∀ v' ∈ claimVersions l, v' ≤ v) → d.state = .settling ∧ d.settlementVersion = v
  settled : d.state = .settled → d.finalized = true

theorem Holds.append (h : Holds φs l d) : Holds (φs ++ [none]) l d := by
  have hold : ∀ (i : ℕ) (v : ℤ), (φs ++ [none])[i]? = some (some v) → φs[i]? = some (some v) := by
    intro i v hi
    rcases getElem?_snoc_cases hi with hi | hnone
    · exact hi
    · cases hnone
  constructor
  · exact h.claimed
  · intro i v hi
    exact h.held i v (hold i v hi)
  · intro i j v hi hj
    exact h.sole i j v (hold i v hi) (hold j v hj)
  · intro hfinal i v hi
    exact h.latest hfinal i v (hold i v hi)
  · exact h.settled

/-- The event of a command of a process that holds `φ`. -/
abbrev stepOf (φ : Option ℤ) (c : SettlementCmd) (r : SettlementReply) (t : SettlementStore) :
    Option ℤ × SettlementEvent := (φ, ⟨t, c, r, exec c r t⟩)

theorem completes_iff (hd : t.durable = some d) (hd' : (exec c r t).durable = some d') :
    Completes ⟨t, c, r, exec c r t⟩ ↔
      (d'.state = .settled ∨ d'.state = .failedSettlement) ∧ d.state ≠ d'.state := by
  simp [Completes, SettlementStore.durableState, hd, hd']

theorem underOwnClaim_iff (hd : t.durable = some d) :
    UnderOwnClaim (stepOf φ c r t) ↔ φ = some d.settlementVersion ∧ d.state = .settling := by
  constructor
  · rintro ⟨v, e, hv, he, hstate, rfl⟩
    obtain rfl : d = e := Option.mem_unique hd he
    exact ⟨hv, hstate⟩
  · rintro ⟨hv, hstate⟩
    exact ⟨_, d, hv, hd, hstate, rfl⟩

theorem fencedAt_of_not_completes (hd : t.durable = some d) (hd' : (exec c r t).durable = some d')
    (hle : d.settlementVersion ≤ d'.settlementVersion)
    (hfresh : ∀ v, claimVersionOf c r t = some v → v ∉ claimVersions l)
    (hnot : ¬ Completes ⟨t, c, r, exec c r t⟩) : FencedAt l (stepOf φ c r t) where
  monotone e e' he he' := by
    obtain rfl : d = e := Option.mem_unique hd he
    obtain rfl : d' = e' := Option.mem_unique hd' he'
    exact hle
  fresh := hfresh
  latest h := absurd h hnot

variable {i : ℕ}

theorem own_of_fenced (h : Holds φs l d) (hi : φs[i]? = some φ) (hd : t.durable = some d)
    (hfinal : d.finalized = false) (hfenced : FencedAt l (stepOf φ c r t))
    (hcompletes : Completes ⟨t, c, r, exec c r t⟩) : UnderOwnClaim (stepOf φ c r t) := by
  obtain ⟨v, hv, hlatest⟩ := hfenced.latest hcompletes
  obtain rfl : φ = some v := hv
  obtain ⟨hstate, rfl⟩ := h.latest hfinal i v hi hlatest
  exact (underOwnClaim_iff hd).2 ⟨rfl, hstate⟩

theorem fenced_of_own (h : Holds φs l d) (hd : t.durable = some d)
    (hd' : (exec c r t).durable = some d') (hclaim : claimVersionOf c r t = none)
    (hle : φ = some d.settlementVersion → d.settlementVersion ≤ d'.settlementVersion)
    (hown : UnderOwnClaim (stepOf φ c r t)) : FencedAt l (stepOf φ c r t) := by
  obtain ⟨hφ, -⟩ := (underOwnClaim_iff hd).1 hown
  constructor
  · intro e e' he he'
    obtain rfl : d = e := Option.mem_unique hd he
    obtain rfl : d' = e' := Option.mem_unique hd' he'
    exact hle hφ
  · intro v hv
    simp [claimVersion, hclaim] at hv
  · intro _
    exact ⟨d.settlementVersion, hφ, h.claimed⟩

/-- **A step is fenced** exactly when its write, if it completes the session, is under its own
claim. -/
theorem fencedAt_iff (h : Holds φs l d) (hi : φs[i]? = some φ) (hd : t.durable = some d)
    (hallows : HoldAllows φ c) :
    FencedAt l (stepOf φ c r t) ↔
      (Completes ⟨t, c, r, exec c r t⟩ → UnderOwnClaim (stepOf φ c r t)) := by
  obtain ⟨d', hstep, hd'⟩ := durableStep_exec hd c r
  have hcompletes := completes_iff (c := c) (r := r) hd hd'
  cases hstep with
  | claimed _ hclaim hversion hstate hfinal =>
    have hnot : ¬ Completes ⟨t, c, r, exec c r t⟩ := by
      rw [hcompletes, hstate]
      rintro ⟨hs | hs, -⟩ <;> cases hs
    refine iff_of_true (fencedAt_of_not_completes hd hd' (by omega) ?_ hnot) fun hc => absurd hc hnot
    intro v hv hmem
    obtain rfl : d'.settlementVersion = v := Option.mem_unique hclaim hv
    have hle := h.claimed _ hmem
    omega
  | settled v hc _ hfinal =>
    subst hc
    constructor
    · exact own_of_fenced h hi hd hfinal
    · intro hown
      have hsettles : Completes ⟨t, .markDurableSettled v, r, exec (.markDurableSettled v) r t⟩ := by
        rw [hcompletes]
        refine ⟨.inl rfl, fun hstate => ?_⟩
        simp [h.settled hstate] at hfinal
      apply fenced_of_own h hd hd' rfl _ (hown hsettles)
      intro hheld
      obtain rfl : d.settlementVersion = v := Option.mem_unique hheld hallows
      exact le_rfl
  | failed hc _ hfinal =>
    subst hc
    constructor
    · exact own_of_fenced h hi hd hfinal
    · intro hown
      by_cases hfails : Completes ⟨t, .markDurableFailed, r, exec .markDurableFailed r t⟩
      · exact fenced_of_own h hd hd' rfl (fun _ => le_rfl) (hown hfails)
      · exact fencedAt_of_not_completes hd hd' le_rfl nofun hfails
  | reset hc hfinal hstate =>
    subst hc
    have hnot : ¬ Completes ⟨t, .resetDurable, r, exec .resetDurable r t⟩ := by
      rw [hcompletes]
      rintro ⟨hs | hs, -⟩ <;> cases hs
    refine iff_of_true (fencedAt_of_not_completes hd hd' ?_ nofun hnot) fun hc => absurd hc hnot
    exact Int.le_add_one le_rfl
  | other _ hclaim hstate hversion hfinal hfail =>
    have hnot : ¬ Completes ⟨t, c, r, exec c r t⟩ := by
      rw [hcompletes]
      rintro ⟨-, hne⟩
      exact hne hstate.symm
    refine iff_of_true (fencedAt_of_not_completes hd hd' hversion.ge ?_ hnot) fun hc => absurd hc hnot
    intro v hv
    simp [hclaim] at hv

theorem holdNext_unclaimed (h : claimVersionOf c r s = none) :
    holdNext φ c r s = φ ∨ holdNext φ c r s = none := by
  unfold holdNext
  rw [h]
  dsimp only
  split
  · split
    · exact .inr rfl
    · exact .inl rfl
  · exact .inl rfl

theorem Holds.unclaimed (h : Holds φs l d) (hi : φs[i]? = some φ) {φ' : Option ℤ}
    (hclaim : claimVersionOf c r t = none) (hφ' : φ' = φ ∨ φ' = none)
    (hle : d.settlementVersion ≤ d'.settlementVersion)
    (hlatest : d'.finalized = false → ∀ (j : ℕ) (v : ℤ), (φs.set i φ')[j]? = some (some v) →
      φs[j]? = some (some v) → (∀ v' ∈ claimVersions l, v' ≤ v) →
        d'.state = .settling ∧ d'.settlementVersion = v)
    (hsettled : d'.state = .settled → d'.finalized = true) :
    Holds (φs.set i φ') (l ++ [stepOf φ c r t]) d' := by
  have hversions : claimVersions (l ++ [stepOf φ c r t]) = claimVersions l := by
    simp [claimVersions_snoc, claimVersion, hclaim]
  have hold : ∀ (j : ℕ) (v : ℤ), (φs.set i φ')[j]? = some (some v) → φs[j]? = some (some v) := by
    intro j v hj
    rcases getElem?_set_cases hj with ⟨rfl, hv⟩ | ⟨-, hj⟩
    · rcases hφ' with rfl | rfl
      · rw [hi, hv]
      · cases hv
    · exact hj
  constructor
  · intro v hv
    rw [hversions] at hv
    exact (h.claimed v hv).trans hle
  · intro j v hj
    rw [hversions]
    exact h.held j v (hold j v hj)
  · intro j k v hj hk
    exact h.sole j k v (hold j v hj) (hold k v hk)
  · intro hfinal j v hj hmax
    rw [hversions] at hmax
    exact hlatest hfinal j v hj (hold j v hj) hmax
  · exact hsettled

/-- **What one command keeps**, when its write is under its own claim. -/
theorem Holds.step (h : Holds φs l d) (hi : φs[i]? = some φ) (hd : t.durable = some d)
    (hallows : HoldAllows φ c)
    (hown : Completes ⟨t, c, r, exec c r t⟩ → UnderOwnClaim (stepOf φ c r t)) :
    ∃ d', (exec c r t).durable = some d' ∧
      Holds (φs.set i (holdNext φ c r t)) (l ++ [stepOf φ c r t]) d' := by
  obtain ⟨d', hstep, hd'⟩ := durableStep_exec hd c r
  have hcompletes := completes_iff (c := c) (r := r) hd hd'
  refine ⟨d', hd', ?_⟩
  cases hstep with
  | claimed _ hclaim hversion hstate hfinal hfinal' =>
    have hnext : holdNext φ c r t = some d'.settlementVersion := holdNext_of_claim hclaim
    have hversions : claimVersions (l ++ [stepOf φ c r t]) =
        claimVersions l ++ [d'.settlementVersion] := by
      rw [claimVersions_snoc, claimVersion, hclaim]
      rfl
    have hnew : d'.settlementVersion ∉ claimVersions l := by
      intro hmem
      have hle := h.claimed _ hmem
      omega
    rw [hnext]
    constructor
    · intro v hv
      rw [hversions] at hv
      rcases List.mem_append.1 hv with hv | hv
      · have hle := h.claimed v hv
        omega
      · exact (List.mem_singleton.1 hv).le
    · intro j v hj
      rw [hversions]
      rcases getElem?_set_cases hj with ⟨-, hv⟩ | ⟨-, hj⟩
      · cases hv
        exact List.mem_concat_self
      · exact List.mem_append_left _ (h.held j v hj)
    · intro j k v hj hk
      rcases getElem?_set_cases hj with ⟨hji, hv⟩ | ⟨-, hj'⟩
      · rcases getElem?_set_cases hk with ⟨hki, -⟩ | ⟨-, hk'⟩
        · rw [hji, hki]
        · rw [← Option.some.inj hv] at hk'
          exact absurd (h.held k _ hk') hnew
      · rcases getElem?_set_cases hk with ⟨-, hv⟩ | ⟨-, hk'⟩
        · rw [← Option.some.inj hv] at hj'
          exact absurd (h.held j _ hj') hnew
        · exact h.sole j k v hj' hk'
    · intro _ j v hj hlatest
      rcases getElem?_set_cases hj with ⟨-, hv⟩ | ⟨-, hj⟩
      · exact ⟨hstate, Option.some.inj hv⟩
      · -- the new claim is later than those of the others
        have hle := h.claimed v (h.held j v hj)
        have hge := hlatest d'.settlementVersion (by
          simp [hversions])
        omega
    · intro hsettled
      simp [hstate] at hsettled
  | settled v hc _ hfinal =>
    subst hc
    have hsettles : Completes ⟨t, .markDurableSettled v, r, exec (.markDurableSettled v) r t⟩ := by
      rw [hcompletes]
      refine ⟨.inl rfl, fun hstate => ?_⟩
      simp [h.settled hstate] at hfinal
    obtain ⟨hheld, -⟩ := (underOwnClaim_iff hd).1 (hown hsettles)
    obtain rfl : d.settlementVersion = v := Option.mem_unique hheld hallows
    exact h.unclaimed hi rfl (.inl rfl) le_rfl nofun fun _ => rfl
  | failed hc hr hfinal =>
    subst hc
    have hnext : holdNext φ .markDurableFailed r t = none := if_pos hr
    refine h.unclaimed hi rfl (.inr hnext) le_rfl ?_ nofun
    intro _ j v hset hj hlatest
    obtain ⟨hstate, rfl⟩ := h.latest hfinal j v hj hlatest
    have hji : j ≠ i := by
      rw [hnext] at hset
      rcases getElem?_set_cases hset with ⟨-, hv⟩ | ⟨hji, -⟩
      · cases hv
      · exact hji
    -- the holder of the latest claim is the process that failed the session
    have hfails : Completes ⟨t, .markDurableFailed, r, exec .markDurableFailed r t⟩ := by
      rw [hcompletes, hstate]
      exact ⟨.inr rfl, nofun⟩
    obtain ⟨hheld, -⟩ := (underOwnClaim_iff hd).1 (hown hfails)
    rw [hheld] at hi
    exact absurd (h.sole j i _ hj hi) hji
  | reset hc hfinal hstate =>
    subst hc
    refine h.unclaimed hi rfl (.inl rfl) (Int.le_add_one le_rfl) ?_ nofun
    intro _ j v _ hj hlatest
    simp [(h.latest hfinal j v hj hlatest).1] at hstate
  | other _ hclaim hstate hversion hfinal hfail =>
    refine h.unclaimed hi hclaim (holdNext_unclaimed hclaim) hversion.ge ?_ ?_
    · intro hunfinal j v _ hj hlatest
      rw [hstate, hversion]
      rw [hfinal] at hunfinal
      exact h.latest hunfinal j v hj hlatest
    · intro hsettled
      rw [hfinal]
      exact h.settled (hstate.symm.trans hsettled)

/-! ### Runs -/

/-- A run, with the versions that its processes hold. -/
abbrev settlements (cfg : SettlementConfig) (s : SettlementStore)
    (ms : List (Move Request SettlementReply)) :
    Watched (Option ℤ) SettlementCmd SettlementReply SettlementStore :=
  (Watched.start s).play holdNext (fun _ => none) exec (program cfg) ms

/-- What holds along a run: whether it is fenced, and who holds the session while it is. -/
def FencingState (φs : List (Option ℤ)) (l : List (Option ℤ × SettlementEvent))
    (t : SettlementStore) : Prop :=
  ∃ d, t.durable = some d ∧
    (Fenced l ↔ Along (fun _ x => Completes x.2 → UnderOwnClaim x) l) ∧ (Fenced l → Holds φs l d)

theorem fencingState_step (h : FencingState φs l t) (hi : φs[i]? = some φ)
    (hallows : HoldAllows φ c) :
    FencingState (φs.set i (holdNext φ c r t)) (l ++ [stepOf φ c r t]) (exec c r t) := by
  obtain ⟨d, hd, hiff, hholds⟩ := h
  obtain ⟨d', -, hd'⟩ := durableStep_exec hd c r
  refine ⟨d', hd', ?_, ?_⟩
  · rw [Fenced, along_snoc, along_snoc, ← hiff]
    exact and_congr_right fun hl => fencedAt_iff (hholds hl) hi hd hallows
  · intro hfenced
    rw [Fenced, along_snoc] at hfenced
    have hl := hholds hfenced.1
    obtain ⟨e, he, hstep⟩ := hl.step hi hd hallows ((fencedAt_iff hl hi hd hallows).1 hfenced.2)
    obtain rfl : d' = e := Option.mem_unique hd' he
    exact hstep

/-- **A run is fenced** exactly when every write that completes the session finds it settling under
the claim of its own process. -/
theorem fenced_iff (cfg : SettlementConfig) (hd : s.durable = some d)
    (hsettled : d.state = .settled → d.finalized = true)
    (ms : List (Move Request SettlementReply)) :
    Fenced (settlements cfg s ms).log ↔
      ∀ x ∈ (settlements cfg s ms).log, Completes x.2 → UnderOwnClaim x := by
  have hholds : Holds [] [] d := by
    constructor
    · exact fun v hv => nomatch hv
    · exact fun i v hv => nomatch hv
    · exact fun i j v hv => nomatch hv
    · exact fun _ i v hv => nomatch hv
    · exact hsettled
  have h₀ : FencingState [] [] s := ⟨d, hd, iff_of_true along_nil along_nil, fun _ => hholds⟩
  obtain ⟨-, -, hrun⟩ := Watched.play_phased (R := fun _ => True) FencingState (fun _ => True)
    (program_followsHold cfg) h₀
    (fun φs l t q ⟨d, hd, hiff, hholds⟩ => ⟨d, hd, hiff, fun hl => (hholds hl).append⟩)
    (fun φs l t i φ c r hstate hi hallows _ => fencingState_step hstate hi hallows) ms
    fun _ _ => trivial
  obtain ⟨-, -, hiff, -⟩ := hrun
  rw [hiff, along_const]

/-! ### Sample runs -/

def durableConfig : SettlementConfig := { defaultConfig with durableCallSessionEnabled := true }

def endingSession : DurableRow where
  callerId := "u"
  creatorId := "c"
  callerFirebaseUid := "uf"
  creatorFirebaseUid := "cf"
  state := .ending
  lastServerAccrualAt := 0
  serverStartedAt := 0
  accumulatedDurationSec := 12
  totalUserDebitedMicros := 5000000
  totalCreatorCreditedMicros := 1000000
  billingSequence := 12
  settlementVersion := 0
  finalized := false
  pricePerMinute := some 25
  pricePerSecondMicros := none
  finalizationStartedAt := none
  updatedAt := 0

def endingStore : SettlementStore :=
  { sampleStore with
    durable := some endingSession
    retryDedup := false
    retryPayload := none
    retryQueued := false }

theorem fenced_sample :
    Fenced (settlements durableConfig endingStore
      (.spawn (.finalize ⟨none, none⟩ "a" "b") :: steps 0 31 1000)).log := by
  apply (fenced_iff durableConfig (d := endingSession) rfl nofun _).2
  decide +kernel

/-- A finalizer stops before its transaction until its locks have expired and another one has taken
its claim over. -/
def overtaken : List (Move Request SettlementReply) :=
  .spawn (.finalize ⟨none, none⟩ "a" "b") :: steps 0 22 1000 ++
  [.spawn (.expire (.expireLock .finalizeInflight)), .spawn (.expire (.expireLock .settleLock))] ++
  steps 1 1 182000 ++ steps 2 1 182000 ++
  .spawn (.finalize ⟨none, none⟩ "c" "d") :: steps 3 16 182000 ++ steps 0 3 182000

theorem not_fenced : ¬ Fenced (settlements durableConfig endingStore overtaken).log := by
  intro h
  have hlast : ((settlements durableConfig endingStore overtaken).log[42]?.any fun x =>
      x.1 == some 1 && decide (Completes x.2)) = true := by decide +kernel
  obtain ⟨x, hx, hboth⟩ := (Option.any_eq_true _ _).1 hlast
  rw [Bool.and_eq_true, beq_iff_eq, decide_eq_true_iff] at hboth
  obtain ⟨v, hv, hlatest⟩ := (h.getElem? hx).latest hboth.2
  obtain rfl : 1 = v := Option.some.inj (hboth.1.symm.trans hv)
  exact absurd (hlatest 2 (by decide +kernel)) (by decide)

end VibemeetBackend.Settlement
