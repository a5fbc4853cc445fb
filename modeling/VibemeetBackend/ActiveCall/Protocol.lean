import VibemeetBackend.ActiveCall.Start

/-!
# The protocol of a start

What the requests may issue, and when: a start reserves its slots once, and from then on until it is
over it writes sessions of its participants only; no other request makes a session live.
-/

namespace VibemeetBackend.ActiveCall

open Async Flow Billing EndedCall

def writtenSession : BillingCmd → Option CallSession
  | .persistSession c | .persistAll _ c _ _ _ => some c
  | _ => none

theorem execBilling_session (c : BillingCmd) (r : BillingReply) (b : BillingStore) :
    (execBilling c r b).session = (writtenSession c <|> b.session) := by
  cases c <;> rfl

def sessionParties (c : CallSession) : Parties := (c.userFirebaseUid, c.creatorFirebaseUid)

inductive StartPhase where
  | idle
  | holding (callId : String) (p : Parties)
  deriving DecidableEq

/-- A start reserves once and then writes sessions of its participants until it is over; the other
requests make no session live. -/
def startPhase (φ : StartPhase) (c : ActiveCallCmd) (r : ActiveCallReply) (s : ActiveCallStore) :
    Option StartPhase :=
  match c with
  | .reserve id p =>
    if φ = .idle then some (if r.ok && s.reservable id p then .holding id p else .idle) else none
  | .finish id p => if φ = .holding id p then some .idle else none
  | .billing id c =>
    match writtenSession c with
    | none => some φ
    | some session => if φ = .holding id (sessionParties session) then some φ else none
  | .markTerminal _ lifecycle =>
    if isNonTerminalLifecycle (some lifecycle) = false then some φ else none
  | _ => some φ

def Neutral : ActiveCallCmd → Prop
  | .reserve .. | .finish .. => False
  | .billing _ c => writtenSession c = none
  | .markTerminal _ lifecycle => isNonTerminalLifecycle (some lifecycle) = false
  | _ => True

theorem startPhase_neutral {c : ActiveCallCmd} (hc : Neutral c) (φ : StartPhase)
    (r : ActiveCallReply) (s : ActiveCallStore) : startPhase φ c r s = some φ := by
  cases c with
  | reserve id p | finish id p => exact hc.elim
  | billing id c =>
    have hc : writtenSession c = none := hc
    rw [startPhase, hc]
  | markTerminal id lifecycle => exact if_pos hc
  | _ => rfl

section follows

variable {φ : StartPhase} {id : String} {p : Parties} {α : Type}
  {Q : α → StartPhase → Prop} {E : String → StartPhase → Prop}

abbrev FollowsStart (φ : StartPhase) (f : ActiveCallFlow α) (Q : α → StartPhase → Prop)
    (E : String → StartPhase → Prop) : Prop :=
  Follows startPhase φ f Q E

variable {f : ActiveCallReply × ActiveCallStore → ActiveCallFlow α}

theorem follows_neutral {ok : ActiveCallReply → Bool} {err : String} {c : ActiveCallCmd}
    (hc : Neutral c) (hE : E err φ) (h : ∀ r s, FollowsStart φ (f (r, s)) Q E) :
    FollowsStart φ (call ok err c >>= f) Q E :=
  follows_keep_bind (startPhase_neutral hc φ) hE h

theorem follows_of_neutral {g : ActiveCallFlow α} (hg : Issues (fun _ => True) Neutral g)
    (hQ : ∀ a, Q a φ) (hE : ∀ e, E e φ) : FollowsStart φ g Q E := by
  refine (follows_of_issues hg fun c hc => startPhase_neutral hc φ).mono ?_ ?_
  · rintro a _ rfl
    exact hQ a
  · rintro e _ rfl
    exact hE e

theorem issues_neutral {ok : ActiveCallReply → Bool} {err : String} {c : ActiveCallCmd}
    (hc : Neutral c) (h : ∀ r s, Issues (fun _ => True) Neutral (f (r, s))) :
    Issues (fun _ => True) Neutral (call ok err c >>= f) :=
  issues_call_bind hc fun r s _ => h r s

/-! ### Recovery and release are neutral -/

theorem tryClearOrphanSlot_neutral (uid : String) :
    Issues (fun _ => True) Neutral (tryClearOrphanSlot uid) := by
  refine issues_neutral trivial fun r s => ?_
  dsimp only
  split
  · exact issues_pure ()
  · refine issues_neutral trivial fun r s => ?_
    split <;> simp [Neutral, quiet, run]

theorem tryClearOrphanActiveCallSlots_neutral (p : Parties) :
    Issues (fun _ => True) Neutral (tryClearOrphanActiveCallSlots p) :=
  issues_bind (tryClearOrphanSlot_neutral p.1) fun _ => tryClearOrphanSlot_neutral p.2

theorem tryClearStaleCallpairLock_neutral (key : String × String) :
    Issues (fun _ => True) Neutral (tryClearStaleCallpairLock key) := by
  refine issues_neutral trivial fun r s => ?_
  dsimp only
  split
  · exact issues_pure false
  · refine issues_neutral trivial fun r s => ?_
    split <;> simp [Neutral, quiet, run, releasePair]

theorem releaseSlotIfOurs_neutral (callId uid : String) (read : Option String) :
    Issues (fun _ => True) Neutral (releaseSlotIfOurs callId uid read) := by
  simp [releaseSlotIfOurs, Neutral, quiet, run]

theorem releaseActiveCallSlotsIfOurs_neutral (callId : String) (p : Parties) :
    Issues (fun _ => True) Neutral (releaseActiveCallSlotsIfOurs callId p) := by
  simp [releaseSlotIfOurs_neutral, Neutral, run, releaseActiveCallSlotsIfOurs]

theorem undo_neutral (callId : String) (q : StartRequest) (seeded releaseSlots : Bool)
    (e : String) : Issues (fun _ => True) Neutral (undo callId q seeded releaseSlots e) := by
  simp [undo, releaseActiveCallSlotsIfOurs_neutral, Neutral, quiet]

/-! ### A start holds its reservation while it writes sessions -/

theorem finish_follows {Q : Unit → StartPhase → Prop} (hQ : Q () .idle) :
    FollowsStart (.holding id p) (finish id p) Q E := by
  simp_all [startPhase, quiet, finish]

end follows

section start

variable {cfg : BillingConfig} {callId token : String} {q : StartRequest}

def IsIdle {α : Type} (_ : α) (φ : StartPhase) : Prop := φ = .idle

theorem undo_follows (seeded releaseSlots : Bool) (e : String) :
    FollowsStart .idle (undo callId q seeded releaseSlots e) IsIdle IsIdle :=
  follows_of_neutral (undo_neutral ..) (fun _ => rfl) fun _ => rfl

theorem cleanUp_follows (seeded releaseSlots : Bool) (e : String) :
    FollowsStart (.holding callId (partiesOf q)) (cleanUp callId q seeded releaseSlots e)
      IsIdle IsIdle :=
  follows_bind (finish_follows (undo_follows seeded releaseSlots e))

theorem promoteFailed_follows (reason : Option PromoteFailure) :
    FollowsStart (.holding callId (partiesOf q)) (promoteFailed callId q reason)
      IsIdle IsIdle := by
  have hrelease : FollowsStart (.holding callId (partiesOf q)) (do
      finish callId (partiesOf q)
      releaseActiveCallSlotsIfOurs callId (partiesOf q)) IsIdle IsIdle :=
    follows_bind (finish_follows (follows_of_neutral
      (releaseActiveCallSlotsIfOurs_neutral _ _) (fun _ => rfl) fun _ => rfl))
  rcases reason with _ | reason
  · exact finish_follows rfl
  · cases reason with
    | userNotFound => exact cleanUp_follows true true "User not found"
    | creatorNotFound => exact cleanUp_follows true true "Creator not found"
    | creatorDisabled | invalidParticipants | insufficientCoins => exact hrelease
    | concurrentPromote => exact finish_follows rfl

/-! ### A promotion keeps the participants -/

def writesFor (p : Parties) (_ : Unit) (c : BillingCmd) (_ : BillingReply) (_ : BillingStore) :
    Option Unit :=
  if (writtenSession c).all (sessionParties · = p) = true then some () else none

variable {c : BillingCmd}

theorem writesFor_read (hc : writtenSession c = none) (p : Parties) (r : BillingReply)
    (s : BillingStore) : writesFor p () c r s = some () := by
  rw [writesFor, hc]
  rfl

variable {p : Parties}

theorem writesFor_write {session : CallSession} (hc : writtenSession c = some session)
    (hp : sessionParties session = p) (r : BillingReply) (s : BillingStore) :
    writesFor p () c r s = some () := by
  simp [writesFor, hc, hp]

theorem writesFor_read_bind {α : Type} {f : BillingReply × BillingStore → BillingProg α}
    {Q : α → Unit → Prop} (hc : writtenSession c = none)
    (h : ∀ r s, (f (r, s)).Follows (writesFor p) () Q) :
    (Billing.issue c >>= f).Follows (writesFor p) () Q :=
  fun r s => ⟨(), writesFor_read hc p r s, h r s⟩

theorem seedPromotion_follows {p : Promotion} {parties : Parties}
    (hp : sessionParties p.session = parties) (fromRuntime : Bool) :
    (seedPromotion p fromRuntime).Follows (writesFor parties) () fun _ _ => True := by
  have hcheckpoint : (do
      let _ ← Billing.issue (.upsertSnapshot (p.session.snapshot p.spendableMicros))
      pure () : BillingProg Unit).Follows (writesFor parties) () fun _ _ => True :=
    writesFor_read_bind rfl fun r s => trivial
  rw [seedPromotion]
  split
  · exact fun r s => ⟨(), writesFor_write rfl hp r s, hcheckpoint⟩
  · exact fun r s => ⟨(), writesFor_write rfl hp r s, hcheckpoint⟩

def PromotesParties (p : Parties) (result : Except PromoteFailure Promotion) : Prop :=
  ∀ pr, result = .ok pr → sessionParties pr.session = p

theorem promoteParticipants_follows (existing : CallSession) (opts : PromoteOpts)
    (user : PromotedUser) (creator : PromotedCreator) :
    (promoteParticipants cfg existing opts user creator).Follows
      (writesFor (sessionParties existing)) ()
      fun result _ => PromotesParties (sessionParties existing) result := by
  have hwith : ∀ b, (promoteWith cfg existing opts user creator b).Follows
      (writesFor (sessionParties existing)) ()
      fun result _ => PromotesParties (sessionParties existing) result := by
    intro b
    rw [promoteWith]
    split
    · exact fun pr h => nomatch h
    · refine writesFor_read_bind rfl fun r s => ?_
      have hp : sessionParties (promotedSession cfg existing user creator b
          (if opts.preserveStartTime then numOr existing.startTime r.now else r.now)) =
          sessionParties existing := rfl
      refine Prog.follows_bind.2 (Prog.Follows.mono (seedPromotion_follows hp _) fun _ _ _ => ?_)
      simp_all [PromotesParties]
  refine Prog.follows_bind.2 ?_
  rw [readBalances]
  split
  · exact writesFor_read_bind rfl fun r s => writesFor_read_bind rfl fun r' s' => hwith _
  · exact hwith _

theorem promoteBootstrappingSession_follows (existing : CallSession) (opts : PromoteOpts) :
    (promoteBootstrappingSession cfg existing opts).Follows
      (writesFor (sessionParties existing)) ()
      fun result _ => PromotesParties (sessionParties existing) result := by
  refine writesFor_read_bind rfl fun r s => ?_
  dsimp only
  split
  · exact fun pr h => nomatch h
  refine writesFor_read_bind rfl fun ru s => ?_
  split
  · exact fun pr h => nomatch h
  refine writesFor_read_bind rfl fun rc s => ?_
  split
  · exact fun pr h => nomatch h
  · exact promoteParticipants_follows existing opts _ _

/-! ### A start -/

theorem startPhase_write {r' : BillingReply} {s' : BillingStore}
    (hc : writesFor p () c r' s' = some ()) (r : ActiveCallReply) (s : ActiveCallStore) :
    startPhase (.holding callId p) (.billing callId c) r s = some (.holding callId p) := by
  rw [writesFor] at hc
  rw [startPhase]
  cases hw : writtenSession c with
  | none => rfl
  | some session =>
    show (if _ then _ else _) = _
    simp_all

theorem promote_follows (early : CallSession) :
    FollowsStart (.holding callId (sessionParties early)) (promote cfg callId early)
      (fun result φ => φ = .holding callId (sessionParties early) ∧
        ∀ pr, result = some (.ok pr) → sessionParties pr.session = sessionParties early)
      fun _ φ => φ = .holding callId (sessionParties early) := by
  refine follows_tryCatch (follows_bind ?_)
  refine (follows_focusFlow (promoteBootstrappingSession_follows early _) ?_).mono ?_ ?_
  · intro _ c r s _ hc
    exact startPhase_write hc r s
  · simp [PromotesParties]
  simp

theorem runBilling_follows {Q : BillingReply × BillingStore → StartPhase → Prop}
    {E : String → StartPhase → Prop} (hc : ∀ r s, writesFor p () c r s = some ())
    (hQ : ∀ x, Q x (.holding callId p)) (hE : ∀ e, E e (.holding callId p)) :
    FollowsStart (.holding callId p) (runBilling callId c) Q E :=
  follows_keep_bind (fun r s => startPhase_write (hc r.billing (s.billing callId)) r s)
    (hE _) fun _ _ => hQ _

theorem activate_follows (pr : Promotion) :
    FollowsStart (.holding callId (sessionParties pr.session)) (activate callId pr)
      (fun _ φ => φ = .holding callId (sessionParties pr.session))
      fun _ φ => φ = .holding callId (sessionParties pr.session) := by
  refine follows_neutral trivial rfl fun r s => follows_bind ?_
  have hp : sessionParties (startedSession pr.session r.now) = sessionParties pr.session := rfl
  refine runBilling_follows (fun r' s' => writesFor_write rfl hp r' s') (fun _ => ?_) fun _ => rfl
  refine follows_bind (runBilling_follows (fun r' s' => writesFor_read rfl _ r' s')
    (fun _ => rfl) fun _ => rfl)

theorem promoted_follows {pr : Promotion} (hpr : sessionParties pr.session = partiesOf q) :
    FollowsStart (.holding callId (partiesOf q)) (promoted callId q pr) IsIdle IsIdle := by
  refine follows_bind (follows_attempt ?_)
  rw [← hpr]
  refine (activate_follows pr).mono ?_ ?_
  · rintro ⟨pendingEnd, now⟩ _ rfl
    refine follows_bind (finish_follows ?_)
    split
    · refine follows_tryCatch (follows_of_neutral (releaseActiveCallSlotsIfOurs_neutral _ _)
        (fun _ => rfl) fun e => undo_follows false false e)
    · exact follows_neutral rfl rfl fun r s => rfl
  · rintro e _ rfl
    rw [hpr]
    exact cleanUp_follows false false e

theorem seedAndPromote_follows :
    FollowsStart (.holding callId (partiesOf q)) (seedAndPromote cfg callId q) IsIdle IsIdle := by
  refine follows_bind (follows_attempt ?_)
  refine follows_neutral trivial (cleanUp_follows false true _) fun r s => ?_
  have hp : sessionParties (earlySession cfg q r.now) = partiesOf q := rfl
  refine follows_bind (runBilling_follows (fun r' s' => writesFor_write rfl hp r' s')
    (fun _ => ?_) fun e => cleanUp_follows false true e)
  refine follows_bind (follows_attempt ?_)
  refine (promote_follows (earlySession cfg q r.now)).mono ?_ ?_
  · rintro result _ ⟨rfl, hresult⟩
    rcases result with _ | reason | pr
    · exact promoteFailed_follows none
    · exact promoteFailed_follows (some reason)
    · exact promoted_follows (hresult pr rfl)
  · rintro e _ rfl
    exact cleanUp_follows true true e

/-! ### The reservation -/

def Reserved (callId : String) (p : Parties) (reserved : Bool) (φ : StartPhase) : Prop :=
  φ = if reserved = true then .holding callId p else .idle

theorem tryReserveActiveCallSlots_follows (p : Parties) :
    FollowsStart .idle (tryReserveActiveCallSlots callId p) (Reserved callId p) IsIdle := by
  refine follows_call_bind fun r s => ⟨if r.ok && s.reservable callId p then
    .holding callId p else .idle, ?_, fun hok => ?_, fun hok => ?_⟩
  · rw [startPhase, if_pos rfl]
  · rw [hok, Bool.true_and]
    exact rfl
  · rw [hok]
    exact rfl

theorem tryReserveActiveCallSlotsWithOrphanRetry_follows (p : Parties) :
    FollowsStart .idle (tryReserveActiveCallSlotsWithOrphanRetry callId p) (Reserved callId p)
      IsIdle := by
  refine follows_bind ((tryReserveActiveCallSlots_follows p).mono ?_ fun _ _ h => h)
  rintro reserved _ rfl
  cases reserved with
  | true => exact rfl
  | false =>
    refine follows_bind (follows_of_neutral (tryClearOrphanActiveCallSlots_neutral p)
      (fun _ => ?_) fun _ => rfl)
    exact tryReserveActiveCallSlots_follows p

theorem startAlone_follows :
    FollowsStart .idle (startAlone cfg callId q) IsIdle IsIdle := by
  have hreserve : ∀ locked : Bool, FollowsStart .idle (if locked = true then do
      if (← tryReserveActiveCallSlotsWithOrphanRetry callId (partiesOf q)) = true then
        seedAndPromote cfg callId q
      else pure ()
      else pure ()) IsIdle IsIdle := by
    intro locked
    split
    · refine follows_bind
        ((tryReserveActiveCallSlotsWithOrphanRetry_follows _).mono ?_ fun _ _ h => h)
      rintro reserved _ rfl
      cases reserved with
      | true => exact seedAndPromote_follows
      | false => exact rfl
    · exact rfl
  refine follows_neutral trivial rfl fun r s => ?_
  dsimp only
  split
  · exact hreserve true
  refine follows_bind (follows_of_neutral (tryClearStaleCallpairLock_neutral _)
    (fun cleared => ?_) fun _ => rfl)
  split
  · exact follows_neutral trivial rfl fun r s => hreserve _
  · exact hreserve false

theorem startLocked_follows :
    FollowsStart .idle (startLocked cfg callId q) IsIdle IsIdle := by
  refine follows_neutral trivial rfl fun r s => ?_
  dsimp only
  split
  · exact rfl
  refine follows_neutral trivial rfl fun r s => ?_
  split
  · exact startAlone_follows
  split
  · refine follows_neutral trivial rfl fun r s => ?_
    split
    · exact startAlone_follows
    · exact rfl
  · exact rfl

theorem startBillingSession_follows :
    FollowsStart .idle (startBillingSession cfg callId token q) IsIdle IsIdle := by
  have hlocked : ∀ claimed : Bool, FollowsStart .idle (if claimed = true then do
      let locked ← run (.lockStart callId token)
      if (locked.2.startLock callId).isSome = true then pure ()
      else do
        let result ← attempt (startLocked cfg callId q)
        let _ ← quiet (.unlockStart callId token)
        ExceptT.mk (pure result)
      else pure ()) IsIdle IsIdle := by
    intro claimed
    split
    · refine follows_neutral trivial rfl fun r s => ?_
      split
      · exact rfl
      · refine follows_bind (follows_attempt (startLocked_follows.mono ?_ ?_))
        · rintro _ _ rfl
          exact follows_neutral trivial rfl fun r s => rfl
        · rintro e _ rfl
          exact follows_neutral trivial rfl fun r s => rfl
    · exact rfl
  refine follows_neutral trivial rfl fun r s => ?_
  dsimp only
  split
  · exact hlocked true
  refine follows_neutral trivial rfl fun r s => ?_
  split
  · exact hlocked false
  · exact follows_neutral trivial rfl fun r s => follows_neutral trivial rfl fun r s => hlocked _

/-! ### The other requests -/

theorem deleteBillingSessionRedisKeys_neutral (callId : String) (p : Parties) :
    Issues (fun _ => True) Neutral (deleteBillingSessionRedisKeys callId p) :=
  issues_neutral trivial fun _ _ => issues_neutral trivial fun _ _ =>
    issues_neutral trivial fun _ _ => issues_neutral trivial fun _ _ => issues_pure ()

theorem expireKey_neutral (c : ActiveCallCmd) :
    Issues (fun _ => True) Neutral (expireKey c) := by
  cases c with
  | expireSlot | expirePair | expireStartLock | expireOrchestrator =>
    exact issues_neutral trivial fun _ _ => issues_pure ()
  | _ => exact issues_pure ()

theorem program_follows (req : Request) :
    (program cfg req).Follows startPhase .idle fun _ _ => True := by
  refine Prog.follows_bind.2 ?_
  have hidle : ∀ {f : ActiveCallFlow Unit}, FollowsStart .idle f IsIdle IsIdle →
      f.run.Follows startPhase .idle fun _ φ' => Prog.Follows startPhase φ'
        (.ret () : Prog ActiveCallCmd ActiveCallReply ActiveCallStore Unit) fun _ _ => True :=
    fun h => Prog.Follows.mono h fun _ _ _ => trivial
  refine hidle ?_
  cases req with
  | start callId token q => exact startBillingSession_follows
  | markTerminal callId lifecycle =>
    dsimp only
    split
    · rename_i h
      have hterminal : isNonTerminalLifecycle (some lifecycle) = false := by
        rcases h with rfl | rfl <;> rfl
      exact follows_neutral hterminal rfl fun r s => rfl
    · exact rfl
  | endCall callId p =>
    exact follows_of_neutral (deleteBillingSessionRedisKeys_neutral _ _) (fun _ => rfl) fun _ => rfl
  | expireSession callId => exact follows_neutral trivial rfl fun r s => rfl
  | expire c => exact follows_of_neutral (expireKey_neutral c) (fun _ => rfl) fun _ => rfl

end start

end VibemeetBackend.ActiveCall
