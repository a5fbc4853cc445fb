import VibemeetBackend.Async.Knowledge
import VibemeetBackend.Settlement.Finalize

/-!
# What records a settlement

Several documents and keys record that a call is settled: the settled key, the durable session, the
payer's history, the call and the outbox.  With the unified finalizer a party writes one of them only
after it committed the settlement transaction or found another one of them.
-/

namespace VibemeetBackend.Settlement

open Async Billing Knowledge

def HistoryRow.recordsSettled (row : HistoryRow) : Bool :=
  row.settlementStatus == some .settled || row.settledAt.isSome || decide (0 < row.coinsDeducted)

def DurableRow.recordsSettled (d : DurableRow) : Bool := d.finalized || d.state == .settled

def ProjectionEvent.recordsSettled : ProjectionEvent → Bool
  | .settled _ => true
  | .ending | .failedSettlement => false

def SettlementStore.recordsSettled (s : SettlementStore) : Bool :=
  s.settledKey || s.durable.any DurableRow.recordsSettled ||
    s.userHistory.any HistoryRow.recordsSettled || s.callStatus == some .settled ||
    s.outbox.any ProjectionEvent.recordsSettled

/-- The commands that write such a record; the transaction itself is none of them. -/
def SettlementCmd.records : SettlementCmd → Bool
  | .setSettledKey | .markCallSettled _ | .markDurableSettled _ | .projectSettled .. => true
  | .persistEvent e => e.recordsSettled
  | _ => false

def settledKnowledge : Knowledge SettlementCmd SettlementReply SettlementStore Unit where
  allows _ _ := True
  needs c := c.records = true
  shows _ c r s := s.recordsSettled || (c.isCommit && r.delivered)

/-! ### Rules -/

section rules

variable {α β : Type} {b : Bool} {R : α → Prop}

/-- A party that knows of a commit when `b`, and when its result satisfies `R`. -/
abbrev Learns (b : Bool) (p : SettlementFlow α) (R : α → Prop) : Prop :=
  settledKnowledge.Learns () b p R

abbrev Plain (c : SettlementCmd) : Prop := c.records = false

abbrev IsPlain (p : SettlementFlow α) : Prop := Flow.Issues (fun _ => True) Plain p

theorem learns_call {ok : SettlementReply → Bool} {err : String} {c : SettlementCmd}
    {f : SettlementReply × SettlementStore → SettlementFlow α} (hc : c.records = true → b = true)
    (h : ∀ r s b', (b = true → b' = true) → (s.recordsSettled = true → b' = true) →
      (c.isCommit = true → r.delivered = true → b' = true) → ok r = true → Learns b' (f (r, s)) R) :
    Learns b (Flow.call ok err c >>= f) R := by
  refine learns_call_bind trivial hc fun r s b' hb' hr => ?_
  refine h r s b' (fun hb => hb' (.inl hb)) (fun hs => hb' (.inr ?_)) (fun hc hd => hb' (.inr ?_)) hr
  · exact (Bool.or_eq_true _ _).mpr (.inl hs)
  · exact (Bool.or_eq_true _ _).mpr (.inr ((Bool.and_eq_true _ _).mpr ⟨hc, hd⟩))

theorem learns_of_plain {p : SettlementFlow α} (hp : IsPlain p) :
    Learns b p fun _ => False := by
  refine learns_of_issues (Flow.Issues.mono hp fun c hc => ⟨trivial, fun hn => ?_⟩)
  exact absurd hn (Bool.eq_false_iff.1 hc)

theorem learns_plain_bind {p : SettlementFlow β} {f : β → SettlementFlow α} (hp : IsPlain p)
    (hf : ∀ x b', (b = true → b' = true) → Learns b' (f x) R) : Learns b (p >>= f) R :=
  learns_bind (learns_of_plain hp) fun x b' hb' => hf x b' fun hb => hb' (.inl hb)

end rules

/-! ### The parties without records -/

variable (cfg : SettlementConfig)

variable {e : ProjectionEvent}

variable (p : FinalizeParams)

section plain

variable {α : Type}

attribute [simp] Plain SettlementCmd.records run quiet

@[simp] theorem isDurableCallSessionFinalized_plain :
    IsPlain (isDurableCallSessionFinalized cfg) := by
  simp [isDurableCallSessionFinalized]

@[simp] theorem isCallBillingAlreadySettled_plain : IsPlain (isCallBillingAlreadySettled cfg) := by
  simp [isCallBillingAlreadySettled]

@[simp] theorem ensureTerminalBillingTeardown_plain :
    IsPlain (ensureTerminalBillingTeardown cfg) := by
  simp [ensureTerminalBillingTeardown]

@[simp] theorem dateNow_plain : IsPlain dateNow := by simp [dateNow]

@[simp] theorem pollUntil_plain (deadline : ℤ) (polls : ℕ) :
    IsPlain (pollUntil cfg deadline polls) := by
  induction polls with
  | zero => simp [pollUntil]
  | succ polls ih => simp [pollUntil, ih]

@[simp] theorem pollUntilSettled_plain : IsPlain (pollUntilSettled cfg) := by
  simp [pollUntilSettled]

@[simp] theorem upsertPendingRow_plain (role : OwnerRole) : IsPlain (upsertPendingRow role) := by
  simp only [upsertPendingRow, run, Flow.issues_bind_iff]
  refine ⟨by simp, fun _ _ => ?_⟩
  split <;> simp

@[simp] theorem upsertPendingRows_plain (creatorOwner : Bool) :
    IsPlain (upsertPendingRows creatorOwner) := by
  simp [upsertPendingRows]

@[simp] theorem upsertPendingCallHistoryOnEnding_plain :
    IsPlain (upsertPendingCallHistoryOnEnding cfg) := by
  simp [upsertPendingCallHistoryOnEnding]

@[simp] theorem projectEvent_plain (he : e.recordsSettled = false) : IsPlain (projectEvent e) := by
  cases e with
  | settled coinsDeducted => cases he
  | ending | failedSettlement => simp [projectEvent]

@[simp] theorem projectCallHistoryFromBillingEvent_plain (he : e.recordsSettled = false) :
    IsPlain (projectCallHistoryFromBillingEvent e) := by
  simp [projectCallHistoryFromBillingEvent, he]

@[simp] theorem enqueueCallBillingProjectionEvent_plain (he : e.recordsSettled = false) :
    IsPlain (enqueueCallBillingProjectionEvent cfg e) := by
  simp [enqueueCallBillingProjectionEvent, he]

@[simp] theorem moveCallToRecoveryDeadLetter_plain :
    IsPlain (moveCallToRecoveryDeadLetter cfg) := by
  have hfailed : ProjectionEvent.failedSettlement.recordsSettled = false := rfl
  simp [moveCallToRecoveryDeadLetter, hfailed]

@[simp] theorem enqueueRetry_plain : IsPlain (enqueueRetry cfg p) := by
  simp [enqueueRetry]

@[simp] theorem attemptFailedSettlementRecovery_plain (force : Bool) :
    IsPlain (attemptFailedSettlementRecovery cfg force) := by
  simp [attemptFailedSettlementRecovery, enqueueImmediateSettlementRetry]
  intros
  split <;> simp

@[simp] theorem claimDurableCallSessionForSettlement_plain :
    IsPlain (claimDurableCallSessionForSettlement cfg) := by
  simp [claimDurableCallSessionForSettlement]
  intros
  split
  · simp
  · simp
    intros
    split <;> simp
    intros
    split <;> simp

@[simp] theorem tryStaleDurableSettlingTakeover_plain :
    IsPlain (tryStaleDurableSettlingTakeover cfg) := by
  simp [tryStaleDurableSettlingTakeover]

@[simp] theorem tryStaleSettlingTakeover_plain : IsPlain (tryStaleSettlingTakeover cfg) := by
  simp [tryStaleSettlingTakeover]
  intros
  split <;> simp

end plain

/-! ### The parties that learn of a commit -/

theorem recordsSettled_of_counts {s : SettlementStore}
    (h : s.userHistory.any HistoryRow.countsAsSettled = true) : s.recordsSettled = true := by
  obtain ⟨row, hrow, hcounts⟩ := (Option.any_eq_true _ _).1 h
  have hany : s.userHistory.any HistoryRow.recordsSettled = true := by
    refine (Option.any_eq_true _ _).2 ⟨row, hrow, ?_⟩
    simp only [HistoryRow.countsAsSettled, HistoryRow.recordsSettled, Bool.or_eq_true,
      Bool.and_eq_true] at hcounts ⊢
    exact hcounts.imp_right And.right
  simp [SettlementStore.recordsSettled, hany]

section learns

variable {b : Bool}

theorem isDurableCallSessionFinalized_learns :
    Learns b (isDurableCallSessionFinalized cfg) (· = true) := by
  unfold isDurableCallSessionFinalized
  split
  · exact learns_pure (by simp)
  · refine learns_call (by simp) fun r s b' hb hs _ _ => learns_pure fun hd => hs ?_
    have hany : s.durable.any DurableRow.recordsSettled = true := hd
    simp [SettlementStore.recordsSettled, hany]

theorem isCallBillingAlreadySettled_learns :
    Learns b (isCallBillingAlreadySettled cfg) (· = true) := by
  refine learns_call nofun fun r s b₁ _ hs₁ _ _ => ?_
  dsimp only
  split
  · rename_i hkey
    exact learns_pure fun _ => hs₁ (by simp [SettlementStore.recordsSettled, hkey])
  refine learns_bind (isDurableCallSessionFinalized_learns cfg) fun finalized b₂ hb₂ => ?_
  split
  · rename_i hfinalized
    exact learns_pure fun _ => hb₂ (.inr hfinalized)
  refine learns_call nofun fun r s b₃ _ hs₃ _ _ => ?_
  split
  · rename_i hrow
    exact learns_pure fun _ => hs₃ (recordsSettled_of_counts hrow)
  · refine learns_call nofun fun r s b₄ _ hs₄ _ _ => learns_pure fun hcall => hs₄ ?_
    simp [SettlementStore.recordsSettled, hcall]

theorem settleAttempts_learns (attempts : ℕ) :
    Learns b (settleAttempts cfg attempts) fun _ => True := by
  induction attempts generalizing b with
  | zero => exact learns_throw _
  | succ attempts ih =>
    -- what follows once it is known whether the transaction committed
    have hrest : ∀ (r : SettlementReply) (committed : Bool) (b' : Bool), (committed = true → b' = true) →
        Learns b' (if committed = true then pure ()
          else if r.view.transient = true ∧ 0 < attempts then settleAttempts cfg attempts
          else do
            let _ ← quiet .delSettledKey
            throw "settlement transaction error" : SettlementFlow Unit) fun _ => True := by
      intro r committed b' hb'
      split
      · rename_i hc
        exact learns_pure fun _ => hb' hc
      split
      · exact ih
      · exact learns_call (by simp) fun _ _ _ _ _ _ _ => learns_throw _
    refine learns_call (by simp) fun r s b₁ _ _ hcommit _ => ?_
    dsimp only
    split
    · rename_i hr
      rw [SettlementReply.ok, Bool.and_eq_true] at hr
      exact hrest r true b₁ fun _ => hcommit rfl hr.1
    split
    · refine learns_bind (isCallBillingAlreadySettled_learns cfg) fun committed b₂ hb₂ => ?_
      exact hrest r committed b₂ fun hc => hb₂ (.inr hc)
    · exact hrest r false b₁ (by simp)

theorem releaseNothing_learns (lockToken : String) :
    Learns b (do
      let _ ← quiet (.release .settleLock lockToken)
      pure false : SettlementFlow Bool) (· = true) :=
  learns_call (by simp) fun _ _ _ _ _ _ _ => learns_pure (by simp)

theorem settleCall_learns (fromFinalizer : Bool) (lockToken : String) :
    Learns b (settleCall cfg fromFinalizer lockToken) (· = true) := by
  have hfound : ∀ {b : Bool} {s : SettlementStore}, (s.recordsSettled = true → b = true) →
      s.userHistory.any HistoryRow.countsAsSettled = true →
      Learns b (do
        let _ ← run .setSettledKey
        let _ ← quiet (.release .settleLock lockToken)
        pure false : SettlementFlow Bool) (· = true) := by
    intro b s hs hrow
    refine learns_call (fun _ => hs (recordsSettled_of_counts hrow)) fun _ _ _ _ _ _ _ => ?_
    exact releaseNothing_learns lockToken
  unfold settleCall
  extract_lets go
  have hgo : ∀ b : Bool, Learns b go (· = true) := by
    intro b
    refine learns_call (by simp) fun r s b₁ _ _ _ _ => ?_
    dsimp only
    split
    · exact releaseNothing_learns lockToken
    split
    · refine learns_call (by simp) fun r s b₂ _ hs₂ _ _ => ?_
      split
      · rename_i hrow
        exact hfound hs₂ hrow
      · exact releaseNothing_learns lockToken
    refine learns_call (by simp) fun r s b₂ _ hs₂ _ _ => ?_
    split
    · rename_i hrow
      exact hfound hs₂ hrow
    refine learns_call (by simp) fun r s b₃ _ _ _ _ => ?_
    split
    · exact releaseNothing_learns lockToken
    refine learns_bind (settleAttempts_learns cfg _) fun _ b₄ hb₄ => ?_
    have hknown : b₄ = true := hb₄ (.inr trivial)
    split
    · exact learns_pure fun _ => hknown
    · refine learns_call (fun _ => hknown) fun r s b₅ hb₅ _ _ _ => ?_
      exact learns_call (by simp) fun r s b₆ hb₆ _ _ _ =>
        learns_pure fun _ => hb₆ (hb₅ hknown)
  split
  · exact hgo b
  refine learns_call (by simp) fun r s b₁ _ _ _ _ => ?_
  dsimp only
  split
  · exact learns_pure (by simp)
  refine learns_call (by simp) fun r s b₂ _ _ _ _ => ?_
  split
  · exact learns_pure (by simp)
  refine learns_call (by simp) fun r s b₃ _ _ _ _ => ?_
  split
  · exact learns_pure (by simp)
  · exact hgo b₃

theorem projectCallHistoryFromBillingEvent_learns (he : e.recordsSettled = true → b = true) :
    Learns b (projectCallHistoryFromBillingEvent e) fun _ => False := by
  cases e with
  | ending | failedSettlement =>
    exact learns_of_plain (projectCallHistoryFromBillingEvent_plain rfl)
  | settled coinsDeducted =>
    have hb : b = true := he rfl
    refine learns_tryCatch ?_ fun _ _ _ => learns_pure nofun
    refine learns_call nofun fun r s b₁ hb₁ _ _ _ => ?_
    dsimp only
    split
    · exact learns_throw _
    refine learns_call (fun _ => hb₁ hb) fun r s b₂ hb₂ _ _ _ => ?_
    refine learns_call (fun _ => hb₂ (hb₁ hb)) fun r s b₃ _ _ _ _ => ?_
    exact learns_pure nofun

theorem enqueueCallBillingProjectionEvent_learns (he : e.recordsSettled = true → b = true) :
    Learns b (enqueueCallBillingProjectionEvent cfg e) fun _ => False := by
  unfold enqueueCallBillingProjectionEvent
  split
  · exact learns_call he fun _ _ _ _ _ _ _ => learns_pure nofun
  · exact projectCallHistoryFromBillingEvent_learns he

theorem afterSettlement_learns (hb : b = true) (settlementVersion : ℤ) :
    Learns b (afterSettlement cfg settlementVersion) fun _ => True := by
  have hlast : ∀ b : Bool, b = true → Learns b (do
      let read ← quiet .query
      if cfg.billingOutboxProjectionEnabled = true then
        enqueueCallBillingProjectionEvent cfg (.settled read.1.view.coinsDeducted)
      let _ ← quiet .setSettledKey
      let _ ← quiet (.delLock .settlementClaim)
      pure .settled : SettlementFlow FinalizeStatus) fun _ => True := by
    intro b hb
    have hkey : ∀ b : Bool, b = true → Learns b (do
        let _ ← quiet .setSettledKey
        let _ ← quiet (.delLock .settlementClaim)
        pure .settled : SettlementFlow FinalizeStatus) fun _ => True := by
      intro b hb
      refine learns_call (fun _ => hb) fun r s b₁ hb₁ _ _ _ => ?_
      exact learns_call (by simp) fun r s b₂ hb₂ _ _ _ =>
        learns_pure fun _ => hb₂ (hb₁ hb)
    refine learns_call (by simp) fun r s b₁ hb₁ _ _ _ => ?_
    dsimp only
    split
    · refine learns_bind
        (enqueueCallBillingProjectionEvent_learns cfg fun _ => hb₁ hb) fun _ b₂ hb₂ => ?_
      exact hkey b₂ (hb₂ (.inl (hb₁ hb)))
    · exact hkey b₁ (hb₁ hb)
  refine learns_call (fun _ => hb) fun r s b₁ hb₁ _ _ _ => ?_
  dsimp only
  split
  · exact learns_call (fun _ => hb₁ hb) fun r s b₂ hb₂ _ _ _ => hlast b₂ (hb₂ (hb₁ hb))
  · exact hlast b₁ (hb₁ hb)

theorem retry_learns :
    Learns b (do
      enqueueSettlementRetry cfg p
      pure .pendingRetry : SettlementFlow FinalizeStatus) (· = .settled) :=
  learns_plain_bind (enqueueRetry_plain cfg p) fun _ _ _ => learns_pure nofun

theorem teardown_learns :
    Learns b (do
      ensureTerminalBillingTeardown cfg
      pure .duplicate : SettlementFlow FinalizeStatus) (· = .settled) :=
  learns_plain_bind (ensureTerminalBillingTeardown_plain cfg) fun _ _ _ =>
    learns_pure nofun

theorem settleClaimed_learns (lockToken : String) (source : RecoverySource)
    (settlementVersion : ℤ) :
    Learns b (settleClaimed cfg p lockToken source settlementVersion) (· = .settled) := by
  refine learns_call nofun fun r s b₁ _ _ _ _ => ?_
  dsimp only
  split
  · split
    · exact retry_learns cfg p
    · exact learns_plain_bind (moveCallToRecoveryDeadLetter_plain cfg) fun _ _ _ =>
        learns_pure nofun
  refine learns_plain_bind (isCallBillingAlreadySettled_plain cfg) fun settled b₂ _ => ?_
  split
  · exact teardown_learns cfg
  refine learns_call nofun fun r s b₃ _ _ _ _ => ?_
  split
  · exact retry_learns cfg p
  refine learns_bind (settleCall_learns cfg true lockToken) fun result b₄ hb₄ => ?_
  split
  · rename_i hresult
    exact (afterSettlement_learns cfg (hb₄ (.inr hresult)) settlementVersion).mono fun _ _ => trivial
  refine learns_plain_bind (isCallBillingAlreadySettled_plain cfg) fun settled b₅ _ => ?_
  split
  · exact teardown_learns cfg
  · exact retry_learns cfg p

theorem retryThenRelease_learns (token : String) :
    Learns b (do
      enqueueSettlementRetry cfg p
      let _ ← quiet (.release .finalizeInflight token)
      pure .pendingRetry : SettlementFlow FinalizeStatus) (· = .settled) :=
  learns_plain_bind (enqueueRetry_plain cfg p) fun _ _ _ =>
    learns_call nofun fun _ _ _ _ _ _ _ => learns_pure nofun

theorem pollThenRetry_learns (token : String) :
    Learns b (do
      if (← pollUntilSettled cfg) = true then do
        ensureTerminalBillingTeardown cfg
        let _ ← quiet (.release .finalizeInflight token)
        pure .duplicate
      else do
        enqueueSettlementRetry cfg p
        let _ ← quiet (.release .finalizeInflight token)
        pure .pendingRetry : SettlementFlow FinalizeStatus) (· = .settled) := by
  refine learns_plain_bind (pollUntilSettled_plain cfg) fun settled b₁ _ => ?_
  split
  · refine learns_plain_bind (ensureTerminalBillingTeardown_plain cfg) fun _ b₂ _ => ?_
    exact learns_call nofun fun _ _ _ _ _ _ _ => learns_pure nofun
  · exact retryThenRelease_learns cfg p token

/-- Its answers are `duplicate`, `pending_retry` and `dead_lettered`. -/
theorem handleDurableClaimLost_learns (token : String) (detail : ClaimLostDetail) :
    Learns b (handleDurableClaimLost cfg p token detail) (· = .settled) := by
  cases detail with
  | settlingActive => exact pollThenRetry_learns cfg p token
  | settlingStaleRace =>
    rw [handleDurableClaimLost]
    split
    · refine learns_plain_bind (moveCallToRecoveryDeadLetter_plain cfg) fun _ b₁ _ => ?_
      exact learns_call nofun fun _ _ _ _ _ _ _ => learns_pure nofun
    · exact retryThenRelease_learns cfg p token
  | stateBlocked =>
    refine learns_call nofun fun r s b₁ _ _ _ _ => ?_
    dsimp only
    split
    · refine learns_call nofun fun _ _ b₂ _ _ _ _ => ?_
      refine learns_plain_bind (attemptFailedSettlementRecovery_plain cfg false) fun recovered b₃ _ => ?_
      split
      · exact learns_pure nofun
      · exact retry_learns cfg p
    · exact retryThenRelease_learns cfg p token

theorem claimAndSettle_learns (inflightToken ownerToken : String) (source : RecoverySource) :
    Learns b (claimAndSettle cfg p inflightToken ownerToken source) (· = .settled) := by
  unfold claimAndSettle
  split
  · refine learns_plain_bind (claimDurableCallSessionForSettlement_plain cfg) fun claim b₁ _ => ?_
    cases claim with
    | ok settlementVersion => exact settleClaimed_learns cfg p ownerToken source settlementVersion
    | alreadyFinalized => exact teardown_learns cfg
    | claimLost detail => exact handleDurableClaimLost_learns cfg p inflightToken detail
  · exact learns_call nofun fun _ _ _ _ _ _ _ => settleClaimed_learns cfg p ownerToken source 1

theorem finalizeLocked_learns (inflightToken ownerToken : String) (source : RecoverySource) :
    Learns b (do
      let result ← Flow.attempt
        (tryCatch (claimAndSettle cfg p inflightToken ownerToken source) fun _ => do
          enqueueSettlementRetry cfg p
          pure .pendingRetry)
      let _ ← quiet (.release .settleLock ownerToken)
      let _ ← quiet (.delLock .settlementClaim)
      let _ ← quiet (.release .finalizeInflight inflightToken)
      ExceptT.mk (pure result) : SettlementFlow FinalizeStatus) (· = .settled) := by
  refine learns_bind (learns_attempt (learns_tryCatch
    (claimAndSettle_learns cfg p inflightToken ownerToken source) fun _ _ _ => retry_learns cfg p))
    fun result b₁ hb₁ => ?_
  refine learns_call nofun fun _ _ b₂ hb₂ _ _ _ => learns_call nofun fun _ _ b₃ hb₃ _ _ _ =>
    learns_call nofun fun _ _ b₄ hb₄ _ _ _ => ?_
  exact learns_mk fun status hresult hstatus =>
    hb₄ (hb₃ (hb₂ (hb₁ (.inr ⟨status, hresult, hstatus⟩))))

/-- **A finalizer that returns `settled` knows of a commit.** -/
theorem finalizeCallSession_learns (hunified : cfg.unifiedBillingFinalizerEnabled = true)
    (p : FinalizeParams) (inflightToken ownerToken : String) :
    Learns b (finalizeCallSession cfg p inflightToken ownerToken) (· = .settled) := by
  unfold finalizeCallSession
  rw [hunified, if_neg (by simp)]
  refine learns_call (by simp) fun r₀ _ b₁ _ _ _ _ => learns_call (by simp) fun r s b₂ _ _ _ _ => ?_
  dsimp only
  split
  · exact learns_pure (by simp)
  refine learns_call (by simp) fun r s b₃ _ _ _ _ => ?_
  dsimp only
  split
  · refine learns_call (by simp) fun r s b₄ _ _ _ _ => ?_
    split
    · exact learns_pure (by simp)
    split
    · refine learns_bind (learns_attempt (learns_of_plain
        (enqueueRetry_plain cfg p))) fun _ _ _ => learns_pure (by simp)
    · exact learns_pure (by simp)
  refine learns_call (by simp) fun r s b₄ _ _ _ _ => ?_
  dsimp only
  split
  · refine learns_call (by simp) fun _ _ b₅ _ _ _ _ => ?_
    exact retry_learns cfg p
  refine learns_plain_bind (isCallBillingAlreadySettled_plain cfg) fun settled b₅ _ => ?_
  split
  · refine learns_plain_bind (ensureTerminalBillingTeardown_plain cfg) fun _ b₆ _ => ?_
    exact learns_call (by simp) fun _ _ _ _ _ _ _ => learns_pure (by simp)
  have hclaim : ∀ b : Bool, Learns b (do
      let claim ← run (.lock .settlementClaim ownerToken)
      if claim.2.settlementClaim.isSome = true then
        if (← pollUntilSettled cfg) = true then do
          ensureTerminalBillingTeardown cfg
          let _ ← quiet (.release .finalizeInflight inflightToken)
          pure .duplicate
        else do
          enqueueSettlementRetry cfg p
          let _ ← quiet (.release .finalizeInflight inflightToken)
          pure .pendingRetry
      else do
        let lock ← run (.lock .settleLock ownerToken)
        if lock.2.settleLock.isSome = true then do
          let _ ← quiet (.delLock .settlementClaim)
          if (← pollUntilSettled cfg) = true then do
            ensureTerminalBillingTeardown cfg
            let _ ← quiet (.release .finalizeInflight inflightToken)
            pure .duplicate
          else do
            enqueueSettlementRetry cfg p
            let _ ← quiet (.release .finalizeInflight inflightToken)
            pure .pendingRetry
        else do
          let result ← Flow.attempt
            (tryCatch (claimAndSettle cfg p inflightToken ownerToken r₀.view.recoverySource)
              fun _ => do
                enqueueSettlementRetry cfg p
                pure .pendingRetry)
          let _ ← quiet (.release .settleLock ownerToken)
          let _ ← quiet (.delLock .settlementClaim)
          let _ ← quiet (.release .finalizeInflight inflightToken)
          ExceptT.mk (pure result) : SettlementFlow FinalizeStatus) (· = .settled) := by
    intro b
    refine learns_call (by simp) fun r s b₁ _ _ _ _ => ?_
    dsimp only
    split
    · exact pollThenRetry_learns cfg p inflightToken
    refine learns_call (by simp) fun r s b₂ _ _ _ _ => ?_
    split
    · exact learns_call (by simp) fun _ _ _ _ _ _ _ => pollThenRetry_learns cfg p inflightToken
    · exact finalizeLocked_learns cfg p inflightToken ownerToken r₀.view.recoverySource
  split
  · exact learns_plain_bind (tryStaleDurableSettlingTakeover_plain cfg) fun _ b _ => hclaim b
  · exact learns_plain_bind (tryStaleSettlingTakeover_plain cfg) fun _ b _ => hclaim b

theorem processSettlementRetry_learns (hunified : cfg.unifiedBillingFinalizerEnabled = true)
    (inflightToken ownerToken : String) :
    Learns b (processSettlementRetry cfg inflightToken ownerToken) fun _ => False := by
  refine learns_call nofun fun r s b₁ _ _ _ _ => ?_
  dsimp only
  split
  · exact learns_pure nofun
  refine learns_call nofun fun r s b₂ _ _ _ _ => ?_
  split
  · exact learns_call nofun fun _ _ _ _ _ _ _ => learns_pure nofun
  rename_i p _
  refine learns_tryCatch ?_ fun e b₃ _ => ?_
  · refine learns_call nofun fun _ _ b₃ _ _ _ _ => ?_
    refine learns_bind (finalizeCallSession_learns cfg hunified p inflightToken
      ownerToken) fun status b₄ _ => ?_
    split
    · exact learns_pure nofun
    · exact learns_call nofun fun _ _ _ _ _ _ _ => learns_pure nofun
  · exact learns_bind (learns_attempt (learns_of_plain
      (enqueueRetry_plain cfg p))) fun _ _ _ => learns_pure nofun

theorem deliverEvent_learns (e : ProjectionEvent) : Learns b (deliverEvent e) fun _ => False := by
  refine learns_call nofun fun r s b₁ _ hs₁ _ _ => ?_
  dsimp only
  split
  · rename_i hmem
    refine projectCallHistoryFromBillingEvent_learns fun he => hs₁ ?_
    have hany : s.outbox.any ProjectionEvent.recordsSettled = true :=
      List.any_eq_true.2 ⟨e, hmem, he⟩
    simp [SettlementStore.recordsSettled, hany]
  · exact learns_pure nofun

theorem expireKey_plain (c : SettlementCmd) : IsPlain (expireKey c) := by
  cases c <;> simp [expireKey]

/-- **Every party** writes a record only when it knows of a commit. -/
theorem program_learns (hunified : cfg.unifiedBillingFinalizerEnabled = true) (q : Request) :
    (program cfg q).Follows settledKnowledge.next ((), b) fun _ φ => b = true → φ.2 = true := by
  refine Prog.follows_bind.2 ?_
  have hreturn : ∀ {f : SettlementFlow Unit}, (Learns b f fun _ => False) →
      f.run.Follows settledKnowledge.next ((), b) fun _ φ' =>
        Prog.Follows settledKnowledge.next φ'
          (.ret () : Prog SettlementCmd SettlementReply SettlementStore Unit)
          fun _ φ => b = true → φ.2 = true := by
    intro f hf
    refine Prog.Follows.mono hf fun x φ hφ => ?_
    cases x with
    | ok a => exact fun hb => hφ.2 (.inl hb)
    | error e => exact hφ.2
  refine hreturn ?_
  cases q with
  | finalize p inflightToken ownerToken =>
    exact learns_bind (finalizeCallSession_learns cfg hunified p inflightToken ownerToken)
      fun _ _ _ => learns_pure nofun
  | retryWorker inflightToken ownerToken =>
    exact processSettlementRetry_learns cfg hunified inflightToken ownerToken
  | deadLetter =>
    refine learns_call nofun fun r s b₁ _ _ _ _ => ?_
    dsimp only
    split
    · exact learns_pure nofun
    · exact learns_of_plain (moveCallToRecoveryDeadLetter_plain cfg)
  | recover force =>
    exact learns_plain_bind (attemptFailedSettlementRecovery_plain cfg force)
      fun _ _ _ => learns_pure nofun
  | ending =>
    dsimp only
    split
    · exact learns_of_plain (enqueueCallBillingProjectionEvent_plain cfg rfl)
    · exact learns_of_plain (upsertPendingCallHistoryOnEnding_plain cfg)
  | deliver e => exact deliverEvent_learns e
  | expire c => exact learns_of_plain (expireKey_plain c)

end learns

/-! ### Records and commits -/

section store

variable {s : SettlementStore} {r : SettlementReply} {c : SettlementCmd}

theorem recordsSettled_mono {s' : SettlementStore} (h : s'.recordsSettled = true)
    (hkey : s'.settledKey = true → s.settledKey = true)
    (hdurable : s'.durable.any DurableRow.recordsSettled = true →
      s.durable.any DurableRow.recordsSettled = true)
    (hhistory : s'.userHistory.any HistoryRow.recordsSettled = true →
      s.userHistory.any HistoryRow.recordsSettled = true)
    (hcall : s'.callStatus = some .settled → s.callStatus = some .settled)
    (houtbox : s'.outbox.any ProjectionEvent.recordsSettled = true →
      s.outbox.any ProjectionEvent.recordsSettled = true) : s.recordsSettled = true := by
  simp only [SettlementStore.recordsSettled, Bool.or_eq_true, beq_iff_eq] at h ⊢
  exact h.imp (Or.imp (Or.imp (Or.imp hkey hdurable) hhistory) hcall) houtbox

theorem durableRecords_updateWhere {filter : DurableRow → Bool} {f : DurableRow → DurableRow}
    {d : Option DurableRow}
    (hf : ∀ d, filter d = true → (f d).recordsSettled = true → d.recordsSettled = true)
    (h : (updateWhere filter f d).any DurableRow.recordsSettled = true) :
    d.any DurableRow.recordsSettled = true := by
  cases d with
  | none => exact h
  | some d =>
    have h : (if filter d = true then f d else d).recordsSettled = true := h
    split at h
    · rename_i hfilter
      exact hf d hfilter h
    · exact h

theorem historyRecords_pending {row : Option HistoryRow}
    (h : (Mongo.afterUpdate freshHistory pendingOnlyFilter pendingUpdate row).any
      HistoryRow.recordsSettled = true) : row.any HistoryRow.recordsSettled = true := by
  cases row with
  | none =>
    cases h
  | some d =>
    cases hf : pendingOnlyFilter d with
    | false =>
      rw [Mongo.afterUpdate, Mongo.findOneAndUpdate_duplicate (by decide) hf] at h
      exact h
    | true =>
      rw [Mongo.afterUpdate, Mongo.findOneAndUpdate_matched (by decide) hf] at h
      have hdate : d.settledAt.isSome = true := by
        simpa [HistoryRow.recordsSettled, pendingUpdate] using h
      simp [HistoryRow.recordsSettled, hdate]

theorem historyRecords_fail {row : Option HistoryRow}
    (h : (row.map failRow).any HistoryRow.recordsSettled = true) :
    row.any HistoryRow.recordsSettled = true := by
  cases row with
  | none => exact h
  | some d =>
    have h : d.settledAt.isSome = true ∨ 0 < d.coinsDeducted := by
      simpa [HistoryRow.recordsSettled, failRow] using h
    rcases h with h | h
    · simp [HistoryRow.recordsSettled, h]
    · simp [HistoryRow.recordsSettled, h]

theorem callStatus_of_mark {f : CallDoc → CallDoc} {call : Option CallDoc}
    (hf : ∀ d, (f d).status = some .settled → d.status = some .settled)
    (h : ((call.map f).bind (·.status)) = some .settled) :
    (call.bind (·.status)) = some .settled := by
  cases call with
  | none => cases h
  | some d => exact hf d h

/-- **What records a settlement**: a record was there, or the command writes one, or commits. -/
theorem recordsSettled_effect (h : (effect r s c).recordsSettled = true) :
    s.recordsSettled = true ∨ c.records = true ∨ c.isCommit = true := by
  cases c with
  | setSettledKey | markCallSettled | markDurableSettled | projectSettled => exact .inr (.inl rfl)
  | commitSettlement => exact .inr (.inr rfl)
  | persistEvent e =>
    cases he : e.recordsSettled with
    | true => exact .inr (.inl he)
    | false =>
      refine .inl ?_
      rw [effect] at h
      split at h
      · exact h
      · refine recordsSettled_mono h id id id id fun hany => ?_
        rw [List.any_append, Bool.or_eq_true] at hany
        rcases hany with hany | hany
        · exact hany
        · simp [List.any_cons, he] at hany
  | delSettledKey | expireSettledKey => exact .inl (recordsSettled_mono h (by simp [effect]) id id id id)
  | lock k token =>
    refine .inl ?_
    rw [effect] at h
    split at h
    · cases k <;> exact h
    · exact h
  | release k token =>
    refine .inl ?_
    rw [effect] at h
    split at h
    · cases k <;> exact h
    · exact h
  | delLock k | expireLock k => exact .inl (by cases k <;> exact h)
  | takeoverCallSettling version =>
    exact .inl (recordsSettled_mono h id id id
      (callStatus_of_mark fun _ hd => by cases hd) id)
  | markCallSettling version =>
    refine .inl (recordsSettled_mono h id id id (callStatus_of_mark fun d hd => ?_) id)
    split at hd
    · cases hd
    · exact hd
  | deadLetterCall => exact .inl (recordsSettled_mono h id id id
      (callStatus_of_mark fun _ hd => by cases hd) id)
  | claimDurable =>
    refine .inl (recordsSettled_mono h id (durableRecords_updateWhere fun d hd hr => ?_) id id id)
    have hopen : d.finalized = false := by
      simp only [DurableRow.isOpen, Bool.and_eq_true, Bool.not_eq_true'] at hd
      exact hd.1
    simp [DurableRow.recordsSettled, claimDurable, hopen] at hr
  | takeoverDurable maxSettlingMs =>
    exact .inl (recordsSettled_mono h id (durableRecords_updateWhere fun d _ hr => hr) id id id)
  | raiseDurableTotals totals =>
    refine .inl (recordsSettled_mono h id (fun hr => ?_) id id id)
    cases hd : s.durable with
    | none =>
      simp only [effect, hd] at hr
      cases hr
    | some d =>
      simp only [effect, hd] at hr
      exact hr
  | markDurableFailed =>
    refine .inl (recordsSettled_mono h id (durableRecords_updateWhere fun d hd hr => ?_) id id id)
    have hopen : d.finalized = false := by simpa [DurableRow.unfinalized] using hd
    simp [DurableRow.recordsSettled, failDurable, hopen] at hr
  | resetDurable =>
    refine .inl (recordsSettled_mono h id (durableRecords_updateWhere fun d hd hr => ?_) id id id)
    have hopen : d.finalized = false := by
      simp only [DurableRow.isOpen, Bool.and_eq_true, Bool.not_eq_true'] at hd
      exact hd.1
    simp [DurableRow.recordsSettled, resetDurable, hopen] at hr
  | upsertPending role =>
    cases role with
    | user => exact .inl (recordsSettled_mono h id id historyRecords_pending id id)
    | creator => exact .inl h
  | projectFailed => exact .inl (recordsSettled_mono h id id historyRecords_fail id id)
  | query | setDeadLetter | delDeadLetter | setRecoveryCooldown | setRetryDedup | delRetryDedup
  | setRetryPayload | delRetryPayload | addRetry | removeRetry | drainArtifacts | expireDeadLetter
  | expireRecoveryCooldown | expireRetry => exact .inl h

end store

end VibemeetBackend.Settlement
