import VibemeetBackend.Async.Watch
import VibemeetBackend.Settlement.Finalize

/-!
# Is `settled` absorbing?

What the parties of `Settlement.Finalize` do to a call after one of them committed its settlement
transaction.  The updates that claim, mirror and project carry a filter that a settled document
fails; those of the dead-letter transition, of the stale takeover and of the failed projection do
not, and a process may have decided on them before the commit.
-/

namespace VibemeetBackend.Settlement

open Async Flow Billing

/-- From `s` to `s'` nothing moves away from `settled`, the durable session is not marked failed and
the call is not marked dead-lettered. -/
structure Keeps (s s' : SettlementStore) : Prop where
  call : s.callStatus = some .settled → s'.callStatus = some .settled
  history : ∀ role, s.historyStatus role = some .settled → s'.historyStatus role = some .settled
  durable : s'.durableState = some .failedSettlement → s.durableState = some .failedSettlement
  deadLetterKey : s'.deadLetter = true → s.deadLetter = true
  deadLettered : s'.callStatus = some .failedRecoverySettlement →
    s.callStatus = some .failedRecoverySettlement

/-- In a run, no step after a commit moves the call away from `settled`. -/
def SettledAbsorbing (log : List (Event SettlementCmd SettlementReply SettlementStore)) : Prop :=
  After Committed (fun e => Keeps e.before e.after) log

/-- The writes that name the call and not its state: those of a dead-letter transition, the update of
a stale takeover, and the failed projection. -/
def SettlementCmd.unguarded : SettlementCmd → Bool
  | .setDeadLetter | .deadLetterCall | .takeoverCallSettling _ | .markDurableFailed
  | .projectFailed => true
  | _ => false

/-- The payer's history carries the date of a settlement, which no later write removes. -/
def SettlementStore.hasSettledRow (s : SettlementStore) : Bool :=
  s.userHistory.any fun row => row.settledAt.isSome

/-! ### How a request stands to the settlement -/

/-- A retry at this time would be neither over the cap nor too old. -/
def retryLeft (cfg : SettlementConfig) (p : FinalizeParams) (now : ℤ) : Bool :=
  decide (p.attempt.getD 0 + 1 ≤ cfg.billingSettlementRetryMaxAttempts) &&
    decide (max 0 (now - p.enqueuedAt.getD now) ≤ cfg.retryMaxAgeMs)

/-- What the commands of a request have found so far. -/
structure Standing where
  request : Request
  /-- The parameters of a finalizer, or those that a worker has read from the queue. -/
  params : Option FinalizeParams
  /-- A command failed, another instance bills the call, or the call is marked settling. -/
  hindered : Bool
  /-- The request began before the settlement. -/
  early : Bool
  /-- It may move the call to the dead letter, or project a failure, even after the settlement. -/
  admitted : Bool

namespace Standing

def start (q : Request) : Standing where
  request := q
  params := match q with
    | .finalize p _ _ => some p
    | _ => none
  hindered := false
  early := false
  admitted := false

def meets (φ : Standing) (c : SettlementCmd) (r : SettlementReply) (s : SettlementStore) :
    Standing :=
  { φ with
    params := match c with
      | .removeRetry => none
      | _ => φ.params <|> s.retryPayload
    hindered := φ.hindered || !r.ok || r.view.activeElsewhere || s.callStatus == some .settling }

/-- The ways past the checks of the code: a hindered finalizer or worker without a retry left, a
dead-letter request of a call without the key, and a failed projection in the outbox. -/
def admits (cfg : SettlementConfig) (φ : Standing) (r : SettlementReply) (s : SettlementStore) :
    Bool :=
  match φ.request with
  | .finalize .. | .retryWorker .. =>
    φ.hindered && φ.params.any fun p => !retryLeft cfg p r.now
  | .deadLetter => !s.deadLetter
  | .deliver e => e == .failedSettlement && s.outbox.contains e
  | .recover _ | .ending | .expire _ => false

def next (cfg : SettlementConfig) (φ : Standing) (c : SettlementCmd) (r : SettlementReply)
    (s : SettlementStore) : Standing :=
  { φ.meets c r s with
    early := φ.early || !s.hasSettledRow
    admitted := φ.admitted || (φ.meets c r s).admits cfg r s }

/-- The request has met the settlement from its first command on, and has not been let past the
checks. -/
def Bound (φ : Standing) : Prop := φ.early = false ∧ φ.admitted = false

end Standing

/-- A request that began before the settlement makes its unguarded writes before it too, and one that
begins after it finds no way past the checks. -/
def Undisturbed (cfg : SettlementConfig)
    (x : Standing × Event SettlementCmd SettlementReply SettlementStore) : Prop :=
  (x.1.early = true → x.2.cmd.unguarded = true → x.2.ans.delivered = true →
    x.2.before.hasSettledRow = false) ∧
  (x.1.early = false → x.2.before.hasSettledRow = true →
    (x.1.meets x.2.cmd x.2.ans x.2.before).admits cfg x.2.ans x.2.before = false)

instance (cfg : SettlementConfig) : DecidablePred (Undisturbed cfg) := fun _ =>
  inferInstanceAs (Decidable ((_ = true → _ = true → _ = true → _ = false) ∧
    (_ = false → _ = true → _ = false)))

def Allows (φ : Standing) (c : SettlementCmd) : Prop := c.unguarded = true → ¬ φ.Bound

/-! ### The checks of the parties -/

section checks

variable (cfg : SettlementConfig)

def Request.retries : Request → Bool
  | .finalize .. | .retryWorker .. => true
  | _ => false

/-- What is known of a request: the parameters of its retry, and whether it was hindered. -/
structure Standing.Knows (φ : Standing) (o : Option FinalizeParams) (hindered : Bool) : Prop where
  params : ∀ p ∈ o, φ.params = some p
  retries : o.isSome = true → φ.request.retries = true
  hindered : hindered = true → φ.hindered = true

abbrev StandingFollows {α : Type} (φ : Standing) (p : SettlementFlow α) (Q : α → Standing → Prop)
    (E : Standing → Prop) : Prop :=
  Follows (guarded Allows (Standing.next cfg)) φ p Q fun _ => E

/-- A bound request makes no unguarded write, its result satisfies `R`, and it throws only if it was
hindered. -/
def Late {α : Type} (o : Option FinalizeParams) (b : Bool) (p : SettlementFlow α) (R : α → Prop) :
    Prop :=
  ∀ φ : Standing, (φ.Bound → φ.Knows o b) →
    StandingFollows cfg φ p (fun a ψ => ψ.Bound → ψ.Knows o b ∧ R a)
      fun ψ => ψ.Bound → ψ.Knows o true

variable {cfg} {α β : Type} {o : Option FinalizeParams} {b : Bool} {φ : Standing}
  {r : SettlementReply} {s : SettlementStore} {c : SettlementCmd} {R : α → Prop}

theorem Standing.Bound.of_next (h : (φ.next cfg c r s).Bound) :
    φ.Bound ∧ s.hasSettledRow = true ∧ (φ.meets c r s).admits cfg r s = false := by
  obtain ⟨hearly, hadmitted⟩ := h
  have hearly' := Bool.or_eq_false_iff.1 hearly
  have hadmitted' := Bool.or_eq_false_iff.1 hadmitted
  exact ⟨⟨hearly'.1, hadmitted'.1⟩, by simpa using hearly'.2, hadmitted'.2⟩

theorem Standing.Knows.weaken (h : φ.Knows o true) : φ.Knows o b :=
  ⟨h.params, h.retries, fun _ => h.hindered rfl⟩

/-- Every program follows the protocol once it is not bound. -/
theorem follows_of_not_bound (h : ¬ φ.Bound) (p : SettlementFlow α) {Q : α → Standing → Prop}
    {E : Standing → Prop} (hQ : ∀ a ψ, ¬ ψ.Bound → Q a ψ) (hE : ∀ ψ, ¬ ψ.Bound → E ψ) :
    StandingFollows cfg φ p Q E := by
  have hp : Issues (fun _ => True) (fun _ => True) p := Prog.issues_of_forall (fun _ => trivial) _
  refine Follows.mono (follows_within (R := fun ψ => ¬ ψ.Bound) hp h ?_) hQ fun _ => hE
  intro c _ ψ r s hψ
  exact ⟨_, guarded_of fun _ => hψ, fun hnext => hψ hnext.of_next.1⟩

theorem late_pure {a : α} (ha : R a) : Late cfg o b (pure a) R :=
  fun _ hφ hbound => ⟨hφ hbound, ha⟩

theorem late_bind {p : SettlementFlow β} {f : β → SettlementFlow α} {P : β → Prop}
    (hp : Late cfg o b p P) (hf : ∀ x, P x → Late cfg o b (f x) R) : Late cfg o b (p >>= f) R := by
  intro φ hφ
  refine follows_bind (Follows.mono (hp φ hφ) (fun x ψ hψ => ?_) fun _ _ he => he)
  by_cases hbound : ψ.Bound
  · exact hf x (hψ hbound).2 ψ fun _ => (hψ hbound).1
  · exact follows_of_not_bound hbound _ (fun _ _ h h' => absurd h' h) fun _ h h' => absurd h' h

variable {p : SettlementFlow α}

theorem late_tryCatch {handler : String → SettlementFlow α} (hp : Late cfg o b p R)
    (hh : ∀ e, Late cfg o true (handler e) R) : Late cfg o b (tryCatch p handler) R := by
  intro φ hφ
  refine follows_tryCatch (Follows.mono (hp φ hφ) (fun _ _ ha => ha) fun e ψ he => ?_)
  exact Follows.mono (hh e ψ he)
    (fun _ _ ha hbound => ⟨(ha hbound).1.weaken, (ha hbound).2⟩) fun _ _ h => h

theorem late_attempt (hp : Late cfg o b p R) :
    Late cfg o b (attempt p) fun _ => True := fun φ hφ =>
  follows_attempt (Follows.mono (hp φ hφ) (fun _ _ ha hbound => ⟨(ha hbound).1, trivial⟩)
    fun _ _ he hbound => ⟨(he hbound).weaken, trivial⟩)

theorem admits_of_retries (h : φ.request.retries = true) : φ.admits cfg r s =
    (φ.hindered && φ.params.any fun p => !retryLeft cfg p r.now) := by
  unfold Standing.admits
  cases hq : φ.request with
  | finalize | retryWorker => rfl
  | _ =>
    rw [hq] at h
    cases h

/-- What one command tells a bound request. -/
structure Tells (cfg : SettlementConfig) (o : Option FinalizeParams) (b b' : Bool)
    (r : SettlementReply) (s : SettlementStore) : Prop where
  keeps : b = true → b' = true
  settled : s.hasSettledRow = true
  elsewhere : r.view.activeElsewhere = true → b' = true
  settling : s.callStatus = some .settling → b' = true
  retry : b' = true → ∀ p ∈ o, retryLeft cfg p r.now = true

theorem Standing.Knows.next (h : φ.Knows o b) (hc : c ≠ .removeRetry)
    (hbound : (φ.next cfg c r s).Bound) :
    ∃ b', Tells cfg o b b' r s ∧ (r.ok = false → b' = true) ∧ (φ.next cfg c r s).Knows o b' := by
  obtain ⟨-, hsettled, hadmits⟩ := hbound.of_next
  have hparams : ∀ p ∈ o, (φ.meets c r s).params = some p := by
    intro p hp
    have hsome := h.params p hp
    unfold Standing.meets
    split
    · exact absurd rfl hc
    · rw [hsome]
      rfl
  refine ⟨(φ.meets c r s).hindered, ⟨?_, hsettled, ?_, ?_, ?_⟩, ?_, hparams, h.retries, fun h => h⟩
  · intro hb
    simp [Standing.meets, h.hindered hb]
  · intro helse
    simp [Standing.meets, helse]
  · intro hsettling
    simp [Standing.meets, hsettling]
  · intro hhindered p hp
    have hretries : (φ.meets c r s).request.retries = true := h.retries (Option.isSome_of_mem hp)
    rw [admits_of_retries hretries, hhindered, hparams p hp] at hadmits
    simpa using hadmits
  · intro hok
    simp [Standing.meets, hok]

variable {f : SettlementReply × SettlementStore → SettlementFlow α}

theorem late_call {ok : SettlementReply → Bool} {err : String} (hu : c.unguarded = false)
    (hc : c ≠ .removeRetry) (hok : ∀ r, ok r = false → r.ok = false)
    (h : ∀ r s b', Tells cfg o b b' r s → Late cfg o b' (f (r, s)) R) :
    Late cfg o b (call ok err c >>= f) R := by
  intro φ hφ
  refine follows_call_bind fun r s => ?_
  refine ⟨_, guarded_of fun hu' => absurd (hu ▸ hu') Bool.false_ne_true, fun _ => ?_, fun hr => ?_⟩
  · by_cases hbound : (φ.next cfg c r s).Bound
    · obtain ⟨b', htells, -, hknows⟩ := (hφ hbound.of_next.1).next hc hbound
      refine Follows.mono (h r s b' htells _ fun _ => hknows) ?_ fun _ _ he => he
      intro a ψ ha hψ
      obtain ⟨hknows, hR⟩ := ha hψ
      exact ⟨⟨hknows.params, hknows.retries, fun hb => hknows.hindered (htells.keeps hb)⟩, hR⟩
    · exact follows_of_not_bound hbound _ (fun _ _ h h' => absurd h' h) fun _ h h' => absurd h' h
  · intro hbound
    obtain ⟨b', -, hb', hknows⟩ := (hφ hbound.of_next.1).next hc hbound
    rw [hb' (hok r hr)] at hknows
    exact hknows

variable (cfg)

theorem late_run (hu : c.unguarded = false) (hc : c ≠ .removeRetry)
    (h : ∀ r s b', Tells cfg o b b' r s → Late cfg o b' (f (r, s)) R) :
    Late cfg o b (run c >>= f) R :=
  late_call hu hc (fun _ hr => hr) h

theorem late_query (h : ∀ r s b', Tells cfg o b b' r s → Late cfg o b' (f (r, s)) R) :
    Late cfg o b (run .query >>= f) R :=
  late_run cfg rfl nofun h

theorem late_quiet (hu : c.unguarded = false) (hc : c ≠ .removeRetry)
    (h : ∀ r s b', Tells cfg o b b' r s → Late cfg o b' (f (r, s)) R) :
    Late cfg o b (quiet c >>= f) R :=
  late_call hu hc (fun _ hr => absurd hr.symm Bool.false_ne_true) h

theorem countsAsSettled_of_hasSettledRow (h : s.hasSettledRow = true) :
    s.userHistory.any HistoryRow.countsAsSettled = true := by
  obtain ⟨row, hrow, hsettled⟩ := (Option.any_eq_true _ _).1 h
  refine (Option.any_eq_true _ _).2 ⟨row, hrow, ?_⟩
  simp [HistoryRow.countsAsSettled, hsettled]

theorem isDurableCallSessionFinalized_late :
    Late cfg o b (isDurableCallSessionFinalized cfg) fun _ => True := by
  unfold isDurableCallSessionFinalized
  split
  · exact late_pure trivial
  · exact late_query cfg fun _ _ _ _ => late_pure trivial

/-- **The check** of a request that began after the settlement finds the call settled. -/
theorem isCallBillingAlreadySettled_late :
    Late cfg o b (isCallBillingAlreadySettled cfg) (· = true) := by
  refine late_query cfg fun _ _ _ _ => ?_
  dsimp only
  split
  · exact late_pure rfl
  refine late_bind (isDurableCallSessionFinalized_late cfg) fun finalized _ => ?_
  split
  · exact late_pure rfl
  refine late_query cfg fun _ s _ htells => ?_
  rw [if_pos (countsAsSettled_of_hasSettledRow htells.settled)]
  exact late_pure rfl

theorem ensureTerminalBillingTeardown_late :
    Late cfg o b (ensureTerminalBillingTeardown cfg) fun _ => True := by
  refine late_bind (isCallBillingAlreadySettled_late cfg) fun settled hsettled => ?_
  rw [if_pos hsettled]
  exact late_query cfg fun _ _ _ _ => late_pure trivial

theorem enqueueRetry_late (p : FinalizeParams) :
    Late cfg (some p) true (enqueueRetry cfg p) fun _ => True := by
  apply late_bind (P := fun now => retryLeft cfg p now = true)
  · refine late_quiet cfg rfl nofun fun r s b' htells => ?_
    exact late_pure (htells.retry (htells.keeps rfl) p rfl)
  · intro now hleft
    rw [retryLeft, Bool.and_eq_true, decide_eq_true_iff, decide_eq_true_iff] at hleft
    rw [if_neg (not_lt.2 hleft.2), if_neg (not_lt.2 hleft.1)]
    refine late_run cfg rfl nofun fun _ _ _ _ => ?_
    dsimp only
    split
    · exact late_pure trivial
    · refine late_run cfg rfl nofun fun _ _ _ _ => ?_
      exact late_run cfg rfl nofun fun _ _ _ _ => late_pure trivial

/-- Without the unified finalizer a settlement finds the row. -/
theorem settleCall_late (lockToken : String) :
    Late cfg o b (settleCall cfg false lockToken) fun _ => True := by
  have hfound : ∀ b, Late cfg o b (do
      let _ ← run .setSettledKey
      let _ ← quiet (.release .settleLock lockToken)
      pure false) fun _ => True := fun b =>
    late_run cfg rfl nofun fun _ _ _ _ => late_quiet cfg rfl nofun fun _ _ _ _ => late_pure trivial
  unfold settleCall
  rw [if_neg Bool.false_ne_true]
  refine late_query cfg fun _ _ _ _ => ?_
  dsimp only
  split
  · exact late_pure trivial
  refine late_query cfg fun _ _ _ _ => ?_
  split
  · exact late_pure trivial
  refine late_run cfg rfl nofun fun _ _ _ _ => ?_
  split
  · exact late_pure trivial
  refine late_quiet cfg rfl nofun fun _ _ _ _ => ?_
  split
  · exact late_quiet cfg rfl nofun fun _ _ _ _ => late_pure trivial
  split
  · refine late_query cfg fun _ _ _ htells => ?_
    rw [if_pos (countsAsSettled_of_hasSettledRow htells.settled)]
    exact hfound _
  · refine late_query cfg fun _ _ _ htells => ?_
    rw [if_pos (countsAsSettled_of_hasSettledRow htells.settled)]
    exact hfound _

/-- **A finalizer** that begins after the settlement ends at one of its checks, or hands its retry
back. -/
theorem finalizeCallSession_late (p : FinalizeParams) (inflightToken ownerToken : String) :
    Late cfg (some p) b (finalizeCallSession cfg p inflightToken ownerToken) fun _ => True := by
  unfold finalizeCallSession
  split
  · exact late_bind (settleCall_late cfg ownerToken) fun _ _ => late_pure trivial
  refine late_query cfg fun _ _ _ _ => late_query cfg fun _ _ _ _ => ?_
  dsimp only
  split
  · exact late_pure trivial
  refine late_run cfg rfl nofun fun _ _ _ _ => ?_
  split
  · refine late_query cfg fun r s b' htells => ?_
    split
    · exact late_pure trivial
    · rename_i d hd
      split
      · obtain ⟨hcall, hstatus⟩ := Option.filter_eq_some_iff.1 hd
        have hsettling : s.callStatus = some .settling := by
          rw [SettlementStore.callStatus, hcall]
          exact beq_iff_eq.1 hstatus
        obtain rfl := htells.settling hsettling
        exact late_bind (late_attempt (enqueueRetry_late cfg p)) fun _ _ => late_pure trivial
      · exact late_pure trivial
  · refine late_query cfg fun r _ _ htells => ?_
    split
    · rename_i helsewhere
      obtain rfl := htells.elsewhere helsewhere
      refine late_quiet cfg rfl nofun fun _ _ _ htells' => ?_
      obtain rfl := htells'.keeps rfl
      exact late_bind (enqueueRetry_late cfg p) fun _ _ => late_pure trivial
    · refine late_bind (isCallBillingAlreadySettled_late cfg) fun settled hsettled => ?_
      rw [if_pos hsettled]
      refine late_bind (ensureTerminalBillingTeardown_late cfg) fun _ _ => ?_
      exact late_quiet cfg rfl nofun fun _ _ _ _ => late_pure trivial

/-! ### The requests -/

/-- A request that asks for nothing without a check. -/
theorem follows_of_late {q : Request} (h : Late cfg none false p R) :
    (p.run >>= fun _ => (.ret () : Prog SettlementCmd SettlementReply SettlementStore Unit)).Follows
      (guarded Allows (Standing.next cfg)) (.start q) fun _ _ => True := by
  refine Follows.run (Follows.mono (h _ fun _ => ⟨nofun, nofun, nofun⟩) ?_ ?_)
  · exact fun _ _ _ => trivial
  · exact fun _ _ _ => trivial

abbrev Guarded (c : SettlementCmd) : Prop := c.unguarded = false

theorem late_of_guarded (hp : Issues (fun _ => True) Guarded p) {φ : Standing} :
    StandingFollows cfg φ p (fun _ _ => True) fun _ => True := by
  have hδ : ∀ c : SettlementCmd, c.unguarded = false → ∀ φ r s, ∃ φ',
      guarded Allows (Standing.next cfg) φ c r s = some φ' := fun c hc φ r s =>
    ⟨_, guarded_of fun hu => absurd (hc ▸ hu) Bool.false_ne_true⟩
  exact anytime_of_issues hp hδ φ

/-- **A worker** of the retry queue. -/
theorem processSettlementRetry_bound (inflightToken ownerToken : String) :
    StandingFollows cfg (.start (.retryWorker inflightToken ownerToken))
      (processSettlementRetry cfg inflightToken ownerToken) (fun _ _ => True) fun _ => True := by
  have hbody : ∀ p, Late cfg (some p) false (tryCatch (do
        let _ ← quiet .delRetryDedup
        let status ← finalizeCallSession cfg p inflightToken ownerToken
        if status = .pendingRetry then pure ()
        else do
          let _ ← quiet .delRetryPayload
          pure ()) fun _ => do
        let _ ← attempt (enqueueSettlementRetry cfg p)
        pure ()) fun _ => True := by
    intro p
    refine late_tryCatch ?_ fun _ => ?_
    · refine late_quiet cfg rfl nofun fun _ _ _ _ => ?_
      refine late_bind (finalizeCallSession_late cfg p inflightToken ownerToken) fun status _ => ?_
      split
      · exact late_pure trivial
      · exact late_quiet cfg rfl nofun fun _ _ _ _ => late_pure trivial
    · exact late_bind (late_attempt (enqueueRetry_late cfg p)) fun _ _ => late_pure trivial
  refine follows_guarded_bind nofun (fun _ _ => trivial) fun r s _ => ?_
  dsimp only
  split
  · trivial
  -- The parameters are those of the payload that this query reads.
  · refine follows_guarded_bind nofun (fun _ _ => trivial) fun r' s' _ => ?_
    cases hpayload : s'.retryPayload with
    | none => exact follows_guarded_bind nofun (fun _ _ => trivial) fun _ _ _ => trivial
    | some p =>
      refine Follows.mono (hbody p _ fun _ => ⟨?_, fun _ => rfl, nofun⟩) ?_ ?_
      · rintro p' ⟨⟩
        exact hpayload
      · exact fun _ _ _ => trivial
      · exact fun _ _ _ => trivial

theorem attemptFailedSettlementRecovery_late (force : Bool) :
    Late cfg o b (attemptFailedSettlementRecovery cfg force) fun _ => True := by
  unfold attemptFailedSettlementRecovery
  split
  · exact late_pure trivial
  split
  · exact late_pure trivial
  refine late_query cfg fun _ _ _ _ => ?_
  dsimp only
  split
  · exact late_pure trivial
  refine late_query cfg fun _ s _ htells => ?_
  obtain ⟨row, hrow, hsettled⟩ := (Option.any_eq_true _ _).1 htells.settled
  rw [if_pos (by simp [hrow, hsettled])]
  exact late_pure trivial

theorem deadLetter_bound :
    StandingFollows cfg (.start .deadLetter) (do
      let (_, s) ← run .query
      if s.deadLetter = true then pure () else moveCallToRecoveryDeadLetter cfg)
      (fun _ _ => True) fun _ => True := by
  refine follows_guarded_bind nofun (fun _ _ => trivial) fun r s _ => ?_
  dsimp only
  split
  · trivial
  · rename_i hkey
    refine follows_of_not_bound (fun hbound => hkey ?_) _ (fun _ _ _ => trivial) fun _ _ => trivial
    have hadmits : (!s.deadLetter) = false := hbound.of_next.2.2
    simpa using hadmits

attribute [local simp] Guarded SettlementCmd.unguarded run quiet

@[local simp] theorem upsertPendingRow_guarded (role : OwnerRole) :
    Issues (fun _ => True) Guarded (upsertPendingRow role) := by
  simp [upsertPendingRow]
  intros
  split <;> simp

theorem projectEvent_guarded {e : ProjectionEvent} (he : e ≠ .failedSettlement) :
    Issues (fun _ => True) Guarded
      (projectCallHistoryFromBillingEvent e) := by
  cases e with
  | failedSettlement => exact absurd rfl he
  | _ =>
    simp [projectCallHistoryFromBillingEvent, projectEvent, upsertPendingRows]

theorem deliverEvent_bound (e : ProjectionEvent) :
    StandingFollows cfg (.start (.deliver e)) (deliverEvent e) (fun _ _ => True) fun _ => True := by
  refine follows_guarded_bind nofun (fun _ _ => trivial) fun r s _ => ?_
  dsimp only
  split
  · rename_i hmem
    by_cases he : e = .failedSettlement
    · refine follows_of_not_bound (fun hbound => ?_) _ (fun _ _ _ => trivial) fun _ _ => trivial
      have hadmits : (e == .failedSettlement && s.outbox.contains e) = false := hbound.of_next.2.2
      simp [he ▸ hmem, he] at hadmits
    · exact late_of_guarded cfg (projectEvent_guarded he)
  · trivial

theorem program_bound (q : Request) :
    (program cfg q).Follows (guarded Allows (Standing.next cfg)) (.start q)
      fun _ _ => True := by
  cases q with
  | finalize p inflightToken ownerToken =>
    have h := finalizeCallSession_late cfg (b := false) p inflightToken ownerToken
    have hflow : Late cfg (some p) false (do
        let _ ← finalizeCallSession cfg p inflightToken ownerToken
        pure ()) fun _ => True := late_bind h fun _ _ => late_pure trivial
    refine Follows.run (Follows.mono (hflow _ fun _ => ⟨?_, fun _ => rfl, nofun⟩)
      (fun _ _ _ => trivial) fun _ _ _ => trivial)
    rintro p' ⟨⟩
    rfl
  | retryWorker inflightToken ownerToken =>
    exact Follows.run (processSettlementRetry_bound cfg inflightToken ownerToken)
  | deadLetter => exact Follows.run (deadLetter_bound cfg)
  | recover force =>
    exact follows_of_late cfg (late_bind (attemptFailedSettlementRecovery_late cfg force)
      fun _ _ => late_pure (R := fun _ => True) trivial)
  | ending =>
    refine Follows.run (late_of_guarded cfg ?_)
    simp [enqueueCallBillingProjectionEvent, upsertPendingCallHistoryOnEnding, projectEvent_guarded]
  | deliver e => exact Follows.run (deliverEvent_bound cfg e)
  | expire c =>
    refine Follows.run (late_of_guarded cfg ?_)
    cases c <;> simp [expireKey]

end checks

/-! ### What one step keeps -/

variable {s : SettlementStore} {r : SettlementReply} {c : SettlementCmd}

theorem Keeps.refl (s : SettlementStore) : Keeps s s :=
  ⟨id, fun _ => id, id, id, id⟩

theorem keeps_setLock (s : SettlementStore) (v : Option String) (k : LockKey) :
    Keeps s (s.setLock v k) := by
  cases k <;> exact ⟨id, fun role h => (by cases role <;> exact h), id, id, id⟩

theorem keeps_setHistory {row : Option HistoryRow} {role : OwnerRole}
    (h : s.historyStatus role = some .settled →
      (row.bind (·.settlementStatus)) = some .settled) :
    Keeps s (s.setHistory row role) := by
  cases role
  · refine ⟨id, fun role' h' => ?_, id, id, id⟩
    cases role'
    · exact h h'
    · exact h'
  · refine ⟨id, fun role' h' => ?_, id, id, id⟩
    cases role'
    · exact h'
    · exact h h'

theorem keeps_call {doc : Option CallDoc}
    (hsettled : s.callStatus = some .settled → (doc.bind (·.status)) = some .settled)
    (hdead : (doc.bind (·.status)) = some .failedRecoverySettlement →
      s.callStatus = some .failedRecoverySettlement) : Keeps s { s with call := doc } :=
  ⟨hsettled, fun role h => (by cases role <;> exact h), id, id, hdead⟩

theorem keeps_durable {doc : Option DurableRow}
    (h : (doc.map (·.state)) = some .failedSettlement →
      s.durableState = some .failedSettlement) : Keeps s { s with durable := doc } :=
  ⟨id, fun role h => (by cases role <;> exact h), h, id, id⟩

theorem keeps_updateDurable (filter : DurableRow → Bool) (f : DurableRow → DurableRow)
    (hf : ∀ d, s.durable = some d → filter d = true → (f d).state = .failedSettlement →
      d.state = .failedSettlement) :
    Keeps s { s with durable := updateWhere filter f s.durable } := by
  apply keeps_durable
  intro h
  cases hd : s.durable with
  | none => rw [hd] at h; cases h
  | some d =>
    rw [hd] at h
    show (s.durable.map (·.state)) = _
    rw [hd]
    simp only [updateWhere, Option.map_some, Option.some.injEq] at h ⊢
    by_cases hfd : filter d = true
    · rw [if_pos hfd] at h
      exact hf d hd hfd h
    · rw [if_neg hfd] at h
      exact h

theorem pendingUpsert_settled {row : Option HistoryRow}
    (h : (row.bind (·.settlementStatus)) = some .settled) :
    Mongo.afterUpdate freshHistory pendingOnlyFilter pendingUpdate row = row := by
  cases row with
  | none => cases h
  | some d =>
    have hd : d.settlementStatus = some .settled := h
    have hfilter : pendingOnlyFilter d = false := by rw [pendingOnlyFilter, hd]; rfl
    rw [Mongo.afterUpdate, Mongo.findOneAndUpdate_duplicate (by decide) hfilter]

theorem keeps_markCallSettling (s : SettlementStore) (version now : ℤ) :
    Keeps s { s with
      call := updateWhere CallDoc.unsettled (CallDoc.mark .settling version now) s.call } := by
  refine keeps_call (fun h => ?_) fun h => ?_
  · cases hc : s.call with
    | none => rw [SettlementStore.callStatus, hc] at h; cases h
    | some d =>
      have hd : d.status = some .settled := by rw [SettlementStore.callStatus, hc] at h; exact h
      have hu : d.unsettled = false := by rw [CallDoc.unsettled, hd]; rfl
      rw [updateWhere, Option.map_some, hu]
      exact hd
  · cases hc : s.call with
    | none => rw [hc] at h; cases h
    | some d =>
      rw [hc] at h
      rw [SettlementStore.callStatus, hc]
      simp only [updateWhere, Option.map_some, Option.bind_some] at h
      split at h
      · cases h
      · exact h

theorem keeps_effect (h : c.unguarded = false) : Keeps s (effect r s c) := by
  cases c with
  | setDeadLetter | deadLetterCall | takeoverCallSettling | markDurableFailed | projectFailed =>
    cases h
  | delDeadLetter | expireDeadLetter =>
    exact ⟨id, fun role h => (by cases role <;> exact h), id, fun h => (by cases h), id⟩
  | lock k token =>
    show Keeps s (if _ then _ else _)
    split
    · exact keeps_setLock s _ k
    · exact Keeps.refl s
  | release k token =>
    show Keeps s (if _ then _ else _)
    split
    · exact keeps_setLock s _ k
    · exact Keeps.refl s
  | delLock k | expireLock k => exact keeps_setLock s none k
  | persistEvent e =>
    show Keeps s (if _ then _ else _)
    split
    · exact Keeps.refl s
    · exact ⟨id, fun role h => (by cases role <;> exact h), id, id, id⟩
  | markCallSettling version => exact keeps_markCallSettling s version r.now
  | markCallSettled version =>
    refine keeps_call (fun hs => ?_) fun hdead => ?_
    · cases hc : s.call with
      | none => rw [SettlementStore.callStatus, hc] at hs; cases hs
      | some d => rfl
    · cases hc : s.call with
      | _ => rw [hc] at hdead; cases hdead
  | claimDurable => exact keeps_updateDurable _ _ fun _ _ _ hf => by cases hf
  | takeoverDurable maxSettlingMs => exact keeps_updateDurable _ _ fun _ _ _ hf => hf
  | raiseDurableTotals totals =>
    apply keeps_durable
    intro h
    rw [Option.map_map] at h
    exact h
  | markDurableSettled version => exact keeps_updateDurable _ _ fun _ _ _ hf => by cases hf
  | resetDurable => exact keeps_updateDurable _ _ fun _ _ _ hf => by cases hf
  | upsertPending role =>
    refine keeps_setHistory fun hs => ?_
    rw [pendingUpsert_settled hs]
    exact hs
  | projectSettled role coins =>
    refine keeps_setHistory fun hs => ?_
    cases hh : s.history role with
    | none => rw [SettlementStore.historyStatus, hh] at hs; cases hs
    | some row => rfl
  | commitSettlement =>
    refine ⟨id, fun role hs => ?_, id, id, id⟩
    cases role with
    | user => rfl
    | creator =>
      show (Option.bind (if r.view.creatorOwner then _ else _) _) = _
      split
      · rfl
      · exact hs
  | query | setSettledKey | delSettledKey | setRecoveryCooldown | setRetryDedup | delRetryDedup
  | setRetryPayload | delRetryPayload | addRetry | removeRetry | drainArtifacts | expireSettledKey
  | expireRecoveryCooldown | expireRetry =>
    exact ⟨id, fun role h => (by cases role <;> exact h), id, id, id⟩

theorem keeps_exec (h : r.delivered = true → c.unguarded = false) : Keeps s (exec c r s) := by
  by_cases hr : r.delivered = true
  · rw [exec_delivered hr]
    exact keeps_effect (h hr)
  · rw [exec_lost hr]
    exact Keeps.refl s

theorem hasSettledRow_effect (h : s.hasSettledRow = true) : (effect r s c).hasSettledRow = true := by
  obtain ⟨row, hrow, hsettled⟩ := (Option.any_eq_true _ _).1 h
  cases c with
  | lock k token | release k token =>
    rw [effect]
    split
    · cases k <;> exact h
    · exact h
  | delLock k | expireLock k => cases k <;> exact h
  | persistEvent e =>
    rw [effect]
    split <;> exact h
  | upsertPending role =>
    cases role with
    | user =>
      show Option.any _ (Mongo.afterUpdate freshHistory pendingOnlyFilter pendingUpdate
        s.userHistory) = true
      rw [hrow]
      cases hfilter : pendingOnlyFilter row with
      | true =>
        rw [Mongo.afterUpdate, Mongo.findOneAndUpdate_matched (by decide) hfilter]
        exact hsettled
      | false =>
        rw [Mongo.afterUpdate, Mongo.findOneAndUpdate_duplicate (by decide) hfilter]
        exact hsettled
    | creator => exact h
  | projectSettled role coins =>
    cases role with
    | user =>
      show Option.any _ (s.userHistory.map _) = true
      rw [hrow]
      rfl
    | creator => exact h
  | projectFailed =>
    show Option.any _ (s.userHistory.map failRow) = true
    rw [hrow]
    exact hsettled
  | commitSettlement => rfl
  | _ => exact h

theorem hasSettledRow_exec (h : s.hasSettledRow = true) : (exec c r s).hasSettledRow = true := by
  by_cases hr : r.delivered = true
  · rw [exec_delivered hr]
    exact hasSettledRow_effect h
  · rw [exec_lost hr]
    exact h

/-! ### Runs -/

section runs

variable (cfg : SettlementConfig)

def watchedSettlement (s : SettlementStore) (ms : List (Move Request SettlementReply)) :
    Watched Standing SettlementCmd SettlementReply SettlementStore :=
  (Watched.start s).play (Standing.next cfg) .start exec (program cfg) ms

def runLog (s : SettlementStore) (ms : List (Move Request SettlementReply)) :
    List (Event SettlementCmd SettlementReply SettlementStore) :=
  ((Pool.start s).play exec (program cfg) ms).log

/-- A request that is let past the checks began before the settlement, and since a commit the payer's
history is settled. -/
structure Absorbs (φs : List Standing)
    (l : List (Standing × Event SettlementCmd SettlementReply SettlementStore))
    (t : SettlementStore) : Prop where
  admitted : ∀ φ ∈ φs, φ.admitted = true → φ.early = true
  settled : (∃ e ∈ l.map Prod.snd, Committed e) → t.hasSettledRow = true
  absorbing : SettledAbsorbing (l.map Prod.snd)

variable {cfg} {φs : List Standing} {φ : Standing} {t : SettlementStore} {i : ℕ}
  {l : List (Standing × Event SettlementCmd SettlementReply SettlementStore)}

theorem Absorbs.spawn (h : Absorbs φs l t) (q : Request) : Absorbs (φs ++ [.start q]) l t := by
  refine ⟨?_, h.settled, h.absorbing⟩
  intro φ hφ hadmitted
  rcases mem_snoc.1 hφ with hφ | rfl
  · exact h.admitted φ hφ hadmitted
  · cases hadmitted

theorem Absorbs.step (h : Absorbs φs l t) (hi : φs[i]? = some φ) (hA : Allows φ c)
    (hG : Undisturbed cfg (φ, ⟨t, c, r, exec c r t⟩)) :
    Absorbs (φs.set i (φ.next cfg c r t)) (l ++ [(φ, ⟨t, c, r, exec c r t⟩)]) (exec c r t) := by
  have hφ := h.admitted φ (List.mem_of_getElem? hi)
  have hguarded : t.hasSettledRow = true → r.delivered = true → c.unguarded = false := by
    intro hsettled hr
    by_contra hu
    rw [Bool.not_eq_false] at hu
    have hearly : φ.early = true := by
      by_contra hne
      rw [Bool.not_eq_true] at hne
      refine hA hu ⟨hne, ?_⟩
      by_contra hadmitted
      exact absurd (hφ (Bool.eq_true_of_not_eq_false hadmitted)) (by rw [hne]; nofun)
    have hrow : t.hasSettledRow = false := hG.1 hearly hu hr
    simp [hsettled] at hrow
  refine ⟨?_, ?_, ?_⟩
  · intro φ' hφ' hadmitted
    rcases List.mem_or_eq_of_mem_set hφ' with hφ' | rfl
    · exact h.admitted φ' hφ' hadmitted
    · show (φ.early || !t.hasSettledRow) = true
      cases hearly : φ.early with
      | true => rfl
      | false =>
        cases hsettled : t.hasSettledRow with
        | false => rfl
        | true =>
          have hadmits := hG.2 hearly hsettled
          rcases Bool.or_eq_true_iff.1 hadmitted with hadmitted | hadmitted
          · simp [hφ hadmitted] at hearly
          · exact absurd hadmitted (by rw [hadmits]; nofun)
  · rintro ⟨e, he, hcommit⟩
    rw [List.map_append] at he
    rcases mem_snoc.1 he with he | rfl
    · exact hasSettledRow_exec (h.settled ⟨e, he, hcommit⟩)
    · obtain rfl := eq_commit_of_isCommit hcommit.1
      rw [exec_delivered hcommit.2]
      rfl
  · rw [List.map_append]
    exact after_snoc.2 ⟨h.absorbing, fun hcommit => keeps_exec (hguarded (h.settled hcommit))⟩

/-- **Absorbing `settled`.**  In every run of undisturbed requests, no step after a commit moves the
call away from `settled`. -/
theorem settledAbsorbing_of_undisturbed (cfg : SettlementConfig) (s : SettlementStore)
    (ms : List (Move Request SettlementReply))
    (h : ∀ x ∈ (watchedSettlement cfg s ms).log, Undisturbed cfg x) :
    SettledAbsorbing (runLog cfg s ms) := by
  have hstart : Absorbs [] [] s := by
    refine ⟨fun φ hφ => (List.not_mem_nil hφ).elim, ?_, after_nil⟩
    rintro ⟨e, he, -⟩
    exact (List.not_mem_nil he).elim
  obtain ⟨-, hlog, hrun⟩ := Watched.play_phased Absorbs (Undisturbed cfg) (program_bound cfg) hstart
    (fun _ _ _ q hJ => hJ.spawn q) (fun _ _ _ _ _ _ _ hJ hi hA hG => hJ.step hi hA hG) ms h
  rw [Watched.play_pool] at hlog
  have habsorbing := hrun.absorbing
  rw [hlog] at habsorbing
  exact habsorbing

end runs

/-! ### A run in which a call is dead-lettered after its settlement -/

def defaultConfig : SettlementConfig where
  unifiedBillingFinalizerEnabled := true
  durableCallSessionEnabled := false
  billingOutboxProjectionEnabled := false
  domainEventsEnabled := false
  failedSettlementAutoRecoveryEnabled := true
  blockZeroSettlementEnabled := true
  billingMaxSettlingMs := 180000
  billingSettlementPollMs := 25000
  retryMaxAgeMs := 900000
  billingSettlementRetryMaxAttempts := 8

def sampleStore : SettlementStore where
  call := some ⟨none, 0, none⟩
  userHistory := none
  creatorHistory := none
  durable := none
  outbox := []
  deadLetter := false
  settledKey := false
  recoveryCooldown := false
  finalizeInflight := none
  settlementClaim := none
  settleLock := none
  retryDedup := true
  retryPayload := some ⟨some 8, some 0⟩
  retryQueued := true

def sampleAnswer (now : ℤ) : SettlementReply where
  delivered := true
  answered := true
  now
  view :=
    { recoverySource := .redisSession
      activeElsewhere := false
      converged := true
      totals := ⟨5000000, 1000000, 12, .redis⟩
      readFails := false
      hasSession := true
      creatorOwner := true
      partiesFound := true
      coinsDeducted := 5
      unknownCommitResult := false
      transient := true }

/-- The first `n` commands, at a time, of the process at a position. -/
def steps (i n : ℕ) (now : ℤ) : List (Move Request SettlementReply) :=
  List.replicate n (.step i (sampleAnswer now))

/-- A finalizer claims the call and is slow.  After two minutes its inflight key expires, and a
worker of the retry queue polls for the settlement until it gives up.  It has decided on the dead
letter when the finalizer commits and marks the call settled. -/
def sampleRun : List (Move Request SettlementReply) :=
  .spawn (.finalize ⟨none, none⟩ "a" "b") :: steps 0 18 1000 ++
  .spawn (.retryWorker "c" "d") ::
  .spawn (.expire (.expireLock .finalizeInflight)) :: steps 2 1 121000 ++
  steps 1 17 121000 ++ steps 1 6 147000 ++ steps 0 3 147000 ++ steps 1 2 147000

/-- The same, but the finalizer commits while the worker polls; then another worker, a recovery and an
end of the call. -/
def sampleSettled : List (Move Request SettlementReply) :=
  .spawn (.finalize ⟨none, none⟩ "a" "b") :: steps 0 18 1000 ++
  .spawn (.retryWorker "c" "d") ::
  .spawn (.expire (.expireLock .finalizeInflight)) :: steps 2 1 121000 ++
  steps 1 17 121000 ++ steps 0 12 121000 ++ steps 1 12 122000 ++
  .spawn (.retryWorker "e" "f") :: .spawn (.recover true) :: .spawn .ending ::
  steps 3 12 130000 ++ steps 4 3 130000 ++ steps 5 3 130000

theorem settledAbsorbing_sample :
    SettledAbsorbing (runLog defaultConfig sampleStore sampleSettled) :=
  settledAbsorbing_of_undisturbed defaultConfig sampleStore sampleSettled (by decide +kernel)

theorem not_settledAbsorbing :
    ¬ SettledAbsorbing (runLog defaultConfig sampleStore sampleRun) := by
  have hlast : ((runLog defaultConfig sampleStore sampleRun)[46]?.any fun e =>
      e.before.callStatus == some .settled &&
        e.after.callStatus == some .failedRecoverySettlement) = true := by decide +kernel
  obtain ⟨e, he, hmoved⟩ := (Option.any_eq_true _ _).1 hlast
  rw [Bool.and_eq_true, beq_iff_eq, beq_iff_eq] at hmoved
  refine not_after he (by decide +kernel) fun hkeeps => ?_
  have hsettled := hkeeps.call hmoved.1
  simp [hmoved.2] at hsettled

end VibemeetBackend.Settlement
