import VibemeetBackend.Async.Watch
import VibemeetBackend.Scheduling.ScheduledCall

/-!
# A cancelled call stays cancelled

Whole runs of confirmations, cancellations and passes over the due calls, from any store.
-/

namespace VibemeetBackend.Scheduling

open Async Flow
open Mongo (Unique)

/-! ### Phases -/

inductive Phase where
  | idle
  | acting (userId : ObjectId) (profile : Option ObjectId)
  | confirming (call : ScheduledCall)
  | cancelling (userId : ObjectId) (profile : Option ObjectId) (call : ScheduledCall)
  | reminding (calls : List ScheduledCall)
  | claimed (id : ObjectId) (calls : List ScheduledCall)

def Phase.next (φ : Phase) (c : Cmd) (r : Reply) (s : Store) : Phase :=
  if r.ok = false then .idle
  else
    match φ, c with
    | .idle, .findCreator userId => .acting userId ((s.findCreator userId).map (·.id))
    | .idle, .findDue now => .reminding (s.dueCalls now)
    | .acting .., .findCallOf id creatorId =>
      match s.callOf id creatorId with
      | some call => if call.status = .pending_creator then .confirming call else .idle
      | none => .idle
    | .acting userId profile, .findCall id =>
      match s.calls.get id with
      | some call => .cancelling userId profile call
      | none => .idle
    | .reminding (call :: calls), .claimReminder .. =>
      if (s.unclaimed call.id).isSome then .claimed call.id calls else .reminding calls
    | .claimed _ calls, .emitDue .. => .reminding calls
    | _, _ => .idle

def actorOf (userId : ObjectId) (profile : Option ObjectId) : Actor := ⟨userId, profile.isSome⟩

namespace ScheduledCall

def isOpen (call : ScheduledCall) : Bool :=
  decide (call.status = .pending_creator ∨ call.status = .confirmed)

/-- What `cancelScheduledCall` tests. -/
def accepts (call : ScheduledCall) (actor : Actor) : Bool :=
  (actor.isCallerOf call || actor.isCreatorOf call) && call.isOpen

end ScheduledCall

def Answerable (φ : Phase) : Prop :=
  ∀ userId profile call, φ = .cancelling userId profile call →
    call.accepts (actorOf userId profile) = false

def Allows (φ : Phase) : Cmd → Prop
  | .findUser _ | .findCreator _ | .findDue _ => φ = .idle
  | .findCallOf .. | .findCall _ => ∃ userId profile, φ = .acting userId profile
  | .save id changes =>
    (∃ call now, φ = .confirming call ∧ call.status = .pending_creator ∧ id = call.id ∧
      changes = .between call (call.confirm now)) ∨
    ∃ userId profile call now, φ = .cancelling userId profile call ∧
      call.accepts (actorOf userId profile) = true ∧ id = call.id ∧
        changes = .between call (call.cancel now ((actorOf userId profile).isCreatorOf call))
  | .claimReminder id _ => ∃ call calls, φ = .reminding (call :: calls) ∧ id = call.id
  | .emitDue _ id _ _ => ∃ calls, φ = .claimed id calls
  | .respond _ => Answerable φ

abbrev FollowsScheduling {α : Type} (φ : Phase) (p : SchedulingFlow α) (Q : α → Phase → Prop) :
    Prop :=
  Follows (guarded Allows Phase.next) φ p Q fun _ φ' => Answerable φ'

theorem answerable_idle : Answerable .idle := fun _ _ _ h => nomatch h

theorem answerable_acting (userId : ObjectId) (profile : Option ObjectId) :
    Answerable (.acting userId profile) := fun _ _ _ h => nomatch h

section Follows

variable {α : Type} {φ : Phase} {Q : α → Phase → Prop} {c : Cmd} {r : Reply}

theorem next_of_not_ok (hr : r.ok = false) (s : Store) : φ.next c r s = .idle := if_pos hr

theorem next_of_ok (hr : r.ok = true) : ¬r.ok = false := by
  rw [hr]
  exact Bool.noConfusion

theorem run_follows {f : Reply × Store → SchedulingFlow α} (hc : Allows φ c)
    (h : ∀ r s, r.ok = true → FollowsScheduling (φ.next c r s) (f (r, s)) Q) :
    FollowsScheduling φ (run c >>= f) Q :=
  follows_call_bind fun r s => ⟨_, guarded_of hc, h r s, fun hr => by
    rw [next_of_not_ok hr]
    exact answerable_idle⟩

theorem save_follows {old new : ScheduledCall} (hc : Allows φ (.save old.id (.between old new)))
    (hnext : ∀ r s, φ.next (.save old.id (.between old new)) r s = .idle) :
    FollowsScheduling φ (save old new) fun _ φ' => φ' = .idle := by
  apply run_follows hc
  intro r s _
  rw [hnext]
  dsimp only
  split
  · exact follows_throw answerable_idle
  · exact follows_pure rfl

variable {handle : User → SchedulingFlow Response}

variable (vipEnabled : Bool)

theorem handle_follows (auth : Option String)
    (h : ∀ user, FollowsScheduling .idle (handle user) fun _ φ' => Answerable φ') :
    FollowsScheduling .idle
      (if vipEnabled = false then pure (.error 503 "VIP is not available yet" none)
      else
        match auth with
        | none => pure (.error 401 "Unauthorized" none)
        | some firebaseUid => do
          let (_, s) ← run (.findUser firebaseUid)
          match s.findUser firebaseUid with
          | none => pure (.error 404 "User not found" none)
          | some user => handle user) fun _ φ' => Answerable φ' := by
  split
  · exact follows_pure answerable_idle
  cases auth with
  | none => exact follows_pure answerable_idle
  | some firebaseUid =>
    apply run_follows
    · exact rfl
    intro r s hr
    have hnext : Phase.next .idle (.findUser firebaseUid) r s = .idle :=
      if_neg (next_of_ok hr)
    rw [hnext]
    dsimp only
    cases s.findUser firebaseUid with
    | none => exact follows_pure answerable_idle
    | some user => exact h user

theorem answer_follows (auth : Option String) (failed : String)
    (h : ∀ user, FollowsScheduling .idle (handle user) fun _ φ' => Answerable φ') :
    FollowsScheduling .idle (answer vipEnabled auth failed handle) fun _ φ' => φ' = .idle := by
  apply follows_bind
  have hrespond : ∀ (response : Response) (φ : Phase), Answerable φ →
      FollowsScheduling φ (run (.respond response) >>= fun _ => pure ())
        fun _ φ' => φ' = .idle := by
    intro response φ hφ
    apply run_follows
    · exact hφ
    intro r s _
    apply follows_pure
    simp_all [Phase.next]
  apply follows_tryCatch
  apply Follows.mono (handle_follows vipEnabled auth h)
  · exact fun response φ hφ => hrespond response φ hφ
  · exact fun e φ hφ => follows_pure (hrespond _ φ hφ)

theorem confirm_follows (callId : Option ObjectId) (creatorId userId : ObjectId)
    (profile : Option ObjectId) (now : ℤ) :
    FollowsScheduling (.acting userId profile) (confirmScheduledCall callId creatorId now)
      fun _ φ' => φ' = .idle := by
  cases callId with
  | none => exact follows_throw (answerable_acting userId profile)
  | some id =>
    apply run_follows
    · exact ⟨userId, profile, rfl⟩
    intro r s hr
    unfold Phase.next
    rw [if_neg (next_of_ok hr)]
    dsimp only
    cases s.callOf id creatorId with
    | none => exact follows_pure rfl
    | some call =>
      dsimp only
      by_cases hstatus : call.status = .pending_creator
      · rw [if_pos hstatus, if_neg (not_not_intro hstatus)]
        apply follows_bind
        apply Follows.mono (save_follows _ _)
        · rintro _ _ rfl
          exact follows_pure rfl
        · exact fun _ _ hφ => hφ
        · exact .inl ⟨call, now, rfl, hstatus, rfl, rfl⟩
        · intro r s
          unfold Phase.next
          split <;> rfl
      · rw [if_neg hstatus, if_pos hstatus]
        exact follows_pure rfl

theorem isOpen_iff (call : ScheduledCall) :
    call.isOpen = true ↔ call.status ∉ [.cancelled, .completed, .missed] := by
  unfold ScheduledCall.isOpen
  cases call.status <;> decide

theorem cancel_follows (callId : Option ObjectId) (userId : ObjectId) (profile : Option ObjectId)
    (now : ℤ) :
    FollowsScheduling (.acting userId profile)
      (cancelScheduledCall callId (actorOf userId profile) now) fun _ φ' => Answerable φ' := by
  cases callId with
  | none => exact follows_throw (answerable_acting userId profile)
  | some id =>
    apply run_follows
    · exact ⟨userId, profile, rfl⟩
    intro r s hr
    unfold Phase.next
    rw [if_neg (next_of_ok hr)]
    dsimp only
    cases s.calls.get id with
    | none => exact follows_pure answerable_idle
    | some call =>
      dsimp only
      have hrejected : ∀ {e : VipSchedulingError},
          call.accepts (actorOf userId profile) = false →
            FollowsScheduling (.cancelling userId profile call) (pure (.error e)) 
              fun (_ : Except VipSchedulingError ScheduledCall) φ' => Answerable φ' := by
        intro e h
        apply follows_pure
        intro u p c heq
        cases heq
        exact h
      split
      · rename_i hparty
        apply hrejected
        unfold ScheduledCall.accepts
        rw [← Bool.not_or, Bool.not_eq_true'] at hparty
        rw [hparty, Bool.false_and]
      · rename_i hparty
        split
        · rename_i hclosed
          apply hrejected
          unfold ScheduledCall.accepts
          rw [Bool.eq_false_iff.2 fun hopen => (isOpen_iff call).1 hopen hclosed, Bool.and_false]
        · rename_i hclosed
          apply follows_bind
          apply Follows.mono (save_follows _ _)
          · rintro _ _ rfl
            exact follows_pure answerable_idle
          · exact fun _ _ hφ => hφ
          · refine .inr ⟨userId, profile, call, now, rfl, ?_, rfl, rfl⟩
            unfold ScheduledCall.accepts
            rw [(isOpen_iff call).2 hclosed, Bool.and_true]
            rw [← Bool.not_or, Bool.not_eq_true', Bool.not_eq_false] at hparty
            exact hparty
          · intro r s
            unfold Phase.next
            split <;> rfl

theorem next_findCreator (hr : r.ok = true) (userId : ObjectId) (s : Store) :
    Phase.next .idle (.findCreator userId) r s =
      .acting userId ((s.findCreator userId).map (·.id)) :=
  if_neg (next_of_ok hr)

theorem confirmHandler_follows (auth : Option String) (callId : Option ObjectId) (now : ℤ) :
    FollowsScheduling .idle (confirmScheduledCallHandler vipEnabled auth callId now)
      fun _ φ' => φ' = .idle := by
  apply answer_follows
  intro user
  apply run_follows
  · exact rfl
  intro r s hr
  rw [next_findCreator hr]
  dsimp only
  cases s.findCreator user.id with
  | none => exact follows_pure (answerable_acting _ _)
  | some creator =>
    apply follows_bind
    apply Follows.mono (confirm_follows callId creator.id _ _ now)
    · rintro (e | call) _ rfl
      · exact follows_pure answerable_idle
      · exact follows_pure answerable_idle
    · exact fun _ _ hφ => hφ

theorem cancelHandler_follows (auth : Option String) (callId : Option ObjectId) (now : ℤ) :
    FollowsScheduling .idle (cancelScheduledCallHandler vipEnabled auth callId now)
      fun _ φ' => φ' = .idle := by
  apply answer_follows
  intro user
  apply run_follows
  · exact rfl
  intro r s hr
  rw [next_findCreator hr]
  have hactor : (⟨user.id, (s.findCreator user.id).isSome⟩ : Actor) =
      actorOf user.id ((s.findCreator user.id).map (·.id)) := by
    unfold actorOf
    rw [Option.isSome_map]
  dsimp only
  rw [hactor]
  apply follows_bind
  apply Follows.mono (cancel_follows callId _ _ now)
  · rintro (e | call) _ hφ
    · exact follows_pure hφ
    · exact follows_pure hφ
  · exact fun _ _ hφ => hφ

theorem remindAll_follows (now : ℤ) (calls : List ScheduledCall) :
    FollowsScheduling (.reminding calls) (remindAll now calls) fun _ _ => True := by
  induction calls with
  | nil => exact follows_pure trivial
  | cons call calls ih =>
    apply run_follows
    · exact ⟨call, calls, rfl, rfl⟩
    intro r s hr
    have hnext : Phase.next (.reminding (call :: calls)) (.claimReminder call.id now) r s =
        if (s.unclaimed call.id).isSome then .claimed call.id calls else .reminding calls :=
      if_neg (next_of_ok hr)
    rw [hnext]
    dsimp only
    cases hfound : s.unclaimed call.id with
    | none => exact ih
    | some found =>
      have hid : found.id = call.id :=
        (Unique.mem_of_get (Option.filter_eq_some_iff.1 hfound).1).2
      apply run_follows
      · rw [hid]
        exact ⟨calls, rfl⟩
      intro r t hr
      have hnext : Phase.next (.claimed call.id calls) (.emitDue found.creatorFirebaseUid found.id
          found.callerUserId found.scheduledAt) r t = .reminding calls :=
        if_neg (next_of_ok hr)
      show FollowsScheduling (Phase.next (.claimed call.id calls) _ r t) _ _
      rw [hnext]
      exact ih

theorem program_follows (q : Request) :
    (program q).Follows (guarded Allows Phase.next) .idle fun _ _ => True := by
  cases q with
  | confirm vipEnabled auth callId now =>
    apply Follows.run
    apply (confirmHandler_follows vipEnabled auth callId now).mono
    · exact fun _ _ _ => trivial
    · exact fun _ _ _ => trivial
  | cancel vipEnabled auth callId now =>
    apply Follows.run
    apply (cancelHandler_follows vipEnabled auth callId now).mono
    · exact fun _ _ _ => trivial
    · exact fun _ _ _ => trivial
  | remind vipSchedulingEnabled now =>
    apply Follows.run
    unfold processDueScheduledCalls
    split
    · exact follows_pure trivial
    · have hpass : FollowsScheduling .idle
          (run (.findDue now) >>= fun x => remindAll now (x.2.dueCalls now)) fun _ _ => True := by
        apply run_follows
        · exact rfl
        intro r s hr
        have hnext : Phase.next .idle (.findDue now) r s = .reminding (s.dueCalls now) :=
          if_neg (next_of_ok hr)
        rw [hnext]
        exact remindAll_follows now _
      apply hpass.mono
      · exact fun _ _ _ => trivial
      · exact fun _ _ _ => trivial

end Follows

/-! ### What a scheduled call is promised -/

abbrev SchedulingEvent : Type := Event Cmd Reply Store

abbrev watchedCalls (s : Store) (ms : List (Move Request Reply)) : Watched Phase Cmd Reply Store :=
  (Watched.start s).play Phase.next (fun _ => Phase.idle) Cmd.exec program ms

def Steps (old new : ScheduledCallStatus) : Prop :=
  old = new ∨ (old = .pending_creator ∧ new = .confirmed) ∨
    ((old = .pending_creator ∨ old = .confirmed) ∧ new = .cancelled)

theorem not_steps_confirmed : ¬Steps .cancelled .confirmed := by
  rintro (h | ⟨h, -⟩ | ⟨-, h⟩)
  · exact nomatch h
  · exact nomatch h
  · exact nomatch h

/-- Every call has been stored before, and its status takes a step. -/
def StatusSteps (e : SchedulingEvent) : Prop :=
  ∀ id new, e.after.calls.get id = some new →
    ∃ old, e.before.calls.get id = some old ∧ Steps old.status new.status

def confirmOf (e : SchedulingEvent) : Option ScheduledCall :=
  match e.cmd with
  | .save id changes =>
    if e.ans.delivered = true ∧ changes.status = some .confirmed then e.before.calls.get id
    else none
  | _ => none

def claimOf (e : SchedulingEvent) : Option ScheduledCall :=
  match e.cmd with
  | .claimReminder id _ => if e.ans.delivered = true then e.before.unclaimed id else none
  | _ => none

def reminds (id : ObjectId) (e : SchedulingEvent) : Bool :=
  match e.cmd with
  | .emitDue _ scheduledCallId _ _ => decide (scheduledCallId = id)
  | _ => false

def Claimed (l : List (Phase × SchedulingEvent)) (id : ObjectId) : Prop :=
  ∃ y ∈ l, ∃ call, claimOf y.2 = some call ∧ call.id = id

def Cmd.isSave : Cmd → Bool
  | .save .. => true
  | _ => false

/-- A cancellation goes through exactly for the caller and the creator of an open call. -/
def AcceptsParties (x : Phase × SchedulingEvent) : Prop :=
  ∀ userId profile call, x.1 = .cancelling userId profile call →
    (x.2.cmd.isSave = true ↔
      call.isOpen = true ∧ (userId = call.callerUserId ∨ profile = some call.creatorId))

/-- A cancelled call stays cancelled, is reminded of once and only while it is confirmed, and may be
cancelled by its caller and its creator. -/
structure StaysCancelled (l : List (Phase × SchedulingEvent)) : Prop where
  steps : ∀ x ∈ l, StatusSteps x.2
  once : ∀ id, l.countP (fun x => reminds id x.2) ≤ 1
  claimed : ∀ x ∈ l, ∀ id, reminds id x.2 = true → Claimed l id
  confirmed : ∀ x ∈ l, ∀ call, claimOf x.2 = some call → call.status = .confirmed
  parties : ∀ x ∈ l, AcceptsParties x

/-- The ids of a user and of the user's creator profile are both the `creatorId` of a call or neither
is: up to equal ids of a user and a profile, the user is no creator of the call. -/
def Agrees (userId : ObjectId) (profile : Option ObjectId) (call : ScheduledCall) : Prop :=
  ∀ p ∈ profile, userId = call.creatorId ↔ p = call.creatorId

/-- The condition on a command: a confirmation or a claim finds a call that has not been cancelled
since it was read, and who asks to cancel an open call is its caller or no creator of it. -/
structure Sound (x : Phase × SchedulingEvent) : Prop where
  uncancelled : ∀ call, confirmOf x.2 = some call ∨ claimOf x.2 = some call →
    call.status ≠ .cancelled
  actor : ∀ userId profile call, x.1 = .cancelling userId profile call → call.isOpen = true →
    userId = call.callerUserId ∨ Agrees userId profile call

/-! ### The invariant -/

def Within (statuses : List ScheduledCallStatus) (s : Store) (id : ObjectId) : Prop :=
  ∀ call, s.calls.get id = some call → call.status ∈ statuses

def noticed : List ScheduledCallStatus := [.confirmed, .cancelled]

def inPlay : List ScheduledCallStatus := .pending_creator :: noticed

def PhaseOk (l : List (Phase × SchedulingEvent)) (s : Store) : Phase → Prop
  | .idle | .acting .. => True
  | .confirming call => Within inPlay s call.id
  | .cancelling _ _ call => call.isOpen = true → Within inPlay s call.id
  | .reminding calls => ∀ call ∈ calls, Within noticed s call.id
  | .claimed id calls => Claimed l id ∧ ∀ call ∈ calls, Within noticed s call.id

def holds (id : ObjectId) : Phase → Bool
  | .claimed id' _ => decide (id' = id)
  | _ => false

def Store.isClaimed (s : Store) (id : ObjectId) : Bool :=
  (s.calls.get id).any fun call => call.reminderSentAt.isSome

section Steps

variable {φ : Phase} {c : Cmd} {r : Reply} {s : Store} {id : ObjectId}
  {l l' : List (Phase × SchedulingEvent)}

/-- **What a command does to a call.** -/
theorem get_exec {new : ScheduledCall} (h : (c.exec r s).calls.get id = some new) :
    ∃ old, s.calls.get id = some old ∧ (new = old ∨
      (r.delivered = true ∧ ∃ changes, c = .save id changes ∧ new = old.set changes) ∨
        ∃ now, c = .claimReminder id now ∧ new = old.remind now) := by
  unfold Cmd.exec at h
  split at h
  · exact ⟨new, h, .inl rfl⟩
  rename_i hdelivered
  rw [Bool.not_eq_false] at hdelivered
  have hupdate : ∀ {id' : ObjectId} {f : ScheduledCall → ScheduledCall},
      (∀ call, (f call).id = call.id) → (s.calls.update id' f).get id = some new →
        ∃ old, s.calls.get id = some old ∧ (new = old ∨ (id' = id ∧ new = f old)) := by
    intro id' f hf hnew
    rw [Unique.get_update hf] at hnew
    split at hnew
    · rename_i hid
      subst hid
      obtain ⟨old, hold, rfl⟩ := Option.map_eq_some_iff.1 hnew
      exact ⟨old, hold, .inr ⟨rfl, rfl⟩⟩
    · exact ⟨new, hnew, .inl rfl⟩
  cases c with
  | save id' changes =>
    obtain ⟨old, hold, rfl | ⟨rfl, rfl⟩⟩ :=
      hupdate (f := ScheduledCall.set changes) (fun _ => rfl) h
    · exact ⟨_, hold, .inl rfl⟩
    · exact ⟨old, hold, .inr (.inl ⟨hdelivered, changes, rfl, rfl⟩)⟩
  | claimReminder id' now =>
    dsimp only at h
    split at h
    · obtain ⟨old, hold, rfl | ⟨rfl, rfl⟩⟩ :=
        hupdate (f := ScheduledCall.remind now) (fun _ => rfl) h
      · exact ⟨_, hold, .inl rfl⟩
      · exact ⟨old, hold, .inr (.inr ⟨now, rfl, rfl⟩)⟩
    · exact ⟨new, h, .inl rfl⟩
  | _ => exact ⟨new, h, .inl rfl⟩

theorem status_of_allows {changes : Changes} (hc : Allows φ (.save id changes)) :
    (changes.status = some .confirmed ∧ ∃ call, φ = .confirming call ∧ call.id = id) ∨
      (changes.status = some .cancelled ∧ ∃ userId profile call,
        φ = .cancelling userId profile call ∧ call.id = id ∧ call.isOpen = true) := by
  rcases hc with ⟨call, now, rfl, hstatus, rfl, rfl⟩ |
    ⟨userId, profile, call, now, rfl, haccepts, rfl, rfl⟩
  · left
    refine ⟨if_neg ?_, call, rfl, rfl⟩
    rw [hstatus]
    exact fun h => nomatch h
  · right
    have hopen : call.isOpen = true := (Bool.and_eq_true_iff.1 haccepts).2
    refine ⟨if_neg ?_, userId, profile, call, rfl, rfl, hopen⟩
    intro h
    rw [isOpen_iff, ← Option.some.inj h] at hopen
    exact hopen List.mem_cons_self

variable {statuses : List ScheduledCallStatus}

theorem Within.exec (h : Within statuses s id) (hc : Allows φ c)
    (hconfirmed : .confirmed ∈ statuses) (hcancelled : .cancelled ∈ statuses) :
    Within statuses (c.exec r s) id := by
  intro new hnew
  obtain ⟨old, hold, rfl | ⟨-, changes, rfl, rfl⟩ | ⟨now, rfl, rfl⟩⟩ := get_exec hnew
  · exact h new hold
  · show changes.status.getD old.status ∈ statuses
    rcases status_of_allows hc with ⟨hstatus, -⟩ | ⟨hstatus, -⟩
    · rw [hstatus]
      exact hconfirmed
    · rw [hstatus]
      exact hcancelled
  · exact h old hold

theorem Claimed.mono (h : Claimed l id) (hl : l ⊆ l') : Claimed l' id := by
  obtain ⟨y, hy, hclaim⟩ := h
  exact ⟨y, hl hy, hclaim⟩

theorem phaseOk_other (h : PhaseOk l s φ) {ψ : Phase} (hc : Allows ψ c) (hl : l ⊆ l') :
    PhaseOk l' (c.exec r s) φ := by
  have hnoticed : ∀ id, Within noticed s id → Within noticed (c.exec r s) id :=
    fun id hid => hid.exec hc (by decide) (by decide)
  have hplay : ∀ id, Within inPlay s id → Within inPlay (c.exec r s) id :=
    fun id hid => hid.exec hc (by decide) (by decide)
  cases φ with
  | idle => trivial
  | acting userId profile => trivial
  | confirming call => exact hplay call.id h
  | cancelling userId profile call => exact fun hopen => hplay call.id (h hopen)
  | reminding calls => exact fun call hcall => hnoticed call.id (h call hcall)
  | claimed id calls =>
    exact ⟨h.1.mono hl, fun call hcall => hnoticed call.id (h.2 call hcall)⟩

variable {call : ScheduledCall}

theorem Within.of_get (h : s.calls.get id = some call) (hstatus : call.status ∈ statuses) :
    Within statuses s call.id := by
  intro call' hcall'
  rw [(Unique.mem_of_get h).2, h] at hcall'
  cases hcall'
  exact hstatus

theorem isOpen_mem (h : call.isOpen = true) : call.status ∈ inPlay := by
  rcases of_decide_eq_true h with hstatus | hstatus
  · rw [hstatus]
    decide
  · rw [hstatus]
    decide

theorem within_dueCalls {now : ℤ} (h : call ∈ s.dueCalls now) : Within noticed s call.id := by
  obtain ⟨hmem, hdue⟩ := List.mem_filter.1 (List.mem_of_mem_take h)
  apply Within.of_get (Unique.get_of_mem hmem)
  have hstatus := of_decide_eq_true (Bool.and_eq_true_iff.1 (Bool.and_eq_true_iff.1 hdue).1).1
  rw [hstatus]
  exact List.mem_cons_self

theorem claimOf_claim {now : ℤ} (hr : r.ok = true) :
    claimOf ⟨s, .claimReminder id now, r, (Cmd.claimReminder id now).exec r s⟩ =
      s.unclaimed id :=
  if_pos (Bool.and_eq_true_iff.1 hr).1

theorem phaseOk_next (h : PhaseOk l s φ) (hc : Allows φ c) :
    PhaseOk (l ++ [(φ, ⟨s, c, r, c.exec r s⟩)]) s (φ.next c r s) := by
  have hl := List.subset_append_left l [((φ, ⟨s, c, r, c.exec r s⟩) : Phase × SchedulingEvent)]
  unfold Phase.next
  split
  · trivial
  rename_i hr
  rw [Bool.not_eq_false] at hr
  split
  · trivial
  · exact fun call hcall => within_dueCalls hcall
  · split
    · split
      · rename_i hget hstatus
        apply Within.of_get (Option.filter_eq_some_iff.1 hget).1
        rw [hstatus]
        exact List.mem_cons_self
      · trivial
    · trivial
  · split
    · rename_i hget
      exact fun hopen => Within.of_get hget (isOpen_mem hopen)
    · trivial
  · rename_i call calls id now
    have hcalls : ∀ call' ∈ calls, Within noticed s call'.id :=
      fun call' hcall' => h call' (List.mem_cons_of_mem call hcall')
    split
    · rename_i hfound
      obtain ⟨found, hfound⟩ := Option.isSome_iff_exists.1 hfound
      obtain ⟨call', calls', heq, rfl⟩ := hc
      cases heq
      refine ⟨⟨_, List.mem_append_right l List.mem_cons_self, found, ?_, ?_⟩, hcalls⟩
      · exact (claimOf_claim hr).trans hfound
      · exact (Unique.mem_of_get (Option.filter_eq_some_iff.1 hfound).1).2
    · exact hcalls
  · exact h.2
  · trivial

/-! ### One command -/

theorem steps_of_uncancelled (h : PhaseOk l s φ) (hc : Allows φ c)
    (huncancelled : ∀ call, confirmOf ⟨s, c, r, c.exec r s⟩ = some call →
      call.status ≠ .cancelled) : StatusSteps ⟨s, c, r, c.exec r s⟩ := by
  intro id new hnew
  obtain ⟨old, hold, rfl | ⟨hdelivered, changes, rfl, rfl⟩ | ⟨now, rfl, rfl⟩⟩ := get_exec hnew
  · exact ⟨new, hold, .inl rfl⟩
  · refine ⟨old, hold, ?_⟩
    show Steps old.status (changes.status.getD old.status)
    rcases status_of_allows hc with ⟨hstatus, call, rfl, rfl⟩ |
      ⟨hstatus, userId, profile, call, rfl, rfl, hopen⟩
    · have hfound : confirmOf ⟨s, .save call.id changes, r,
          (Cmd.save call.id changes).exec r s⟩ = some old :=
        (if_pos ⟨hdelivered, hstatus⟩).trans hold
      have hne := huncancelled old hfound
      have hmem : old.status ∈ inPlay := h old hold
      rw [hstatus]
      rcases List.mem_cons.1 hmem with hpending | hmem
      · exact .inr (.inl ⟨hpending, rfl⟩)
      · rcases List.mem_cons.1 hmem with hconfirmed | hmem
        · exact .inl hconfirmed
        · exact absurd (List.mem_singleton.1 hmem) hne
    · have hmem : old.status ∈ inPlay := h hopen old hold
      rw [hstatus]
      rcases List.mem_cons.1 hmem with hpending | hmem
      · exact .inr (.inr ⟨.inl hpending, rfl⟩)
      · rcases List.mem_cons.1 hmem with hconfirmed | hmem
        · exact .inr (.inr ⟨.inr hconfirmed, rfl⟩)
        · exact .inl (List.mem_singleton.1 hmem)
  · exact ⟨old, hold, .inl rfl⟩

theorem uncancelled_of_steps (h : StatusSteps ⟨s, c, r, c.exec r s⟩)
    (hfound : confirmOf ⟨s, c, r, c.exec r s⟩ = some call) : call.status ≠ .cancelled := by
  intro hcancelled
  cases c with
  | save id changes =>
    unfold confirmOf at hfound
    dsimp only at hfound
    split at hfound
    · rename_i hsave
      have hnew : ((Cmd.save id changes).exec r s).calls.get id = some (call.set changes) := by
        unfold Cmd.exec
        rw [if_neg (by rw [hsave.1]; exact Bool.noConfusion)]
        show (s.calls.update id (·.set changes)).get id = _
        rw [Unique.get_update (f := ScheduledCall.set changes) fun _ => rfl, if_pos rfl, hfound]
        rfl
      obtain ⟨old, hold, hsteps⟩ := h id _ hnew
      obtain rfl := Option.mem_unique hold hfound
      have hstatus : (old.set changes).status = .confirmed := by
        show changes.status.getD old.status = _
        rw [hsave.2]
        rfl
      rw [hstatus, hcancelled] at hsteps
      exact not_steps_confirmed hsteps
    · cases hfound
  | _ => cases hfound

theorem noticed_of_claimOf (h : PhaseOk l s φ) (hc : Allows φ c)
    (hfound : claimOf ⟨s, c, r, c.exec r s⟩ = some call) : call.status ∈ noticed := by
  cases c with
  | claimReminder id now =>
    obtain ⟨call', calls, rfl, rfl⟩ := hc
    unfold claimOf at hfound
    dsimp only at hfound
    split at hfound
    · exact h call' List.mem_cons_self call (Option.filter_eq_some_iff.1 hfound).1
    · exact nomatch hfound
  | _ => exact nomatch hfound

theorem isSave_iff_accepts {userId : ObjectId} {profile : Option ObjectId}
    (hc : Allows (.cancelling userId profile call) c) :
    c.isSave = true ↔ call.accepts (actorOf userId profile) = true := by
  cases c with
  | save id changes =>
    rcases hc with ⟨_, _, heq, -⟩ | ⟨_, _, _, _, heq, haccepts, -⟩
    · exact nomatch heq
    · cases heq
      exact iff_of_true rfl haccepts
  | respond response =>
    apply iff_of_false
    · exact Bool.noConfusion
    · simp [hc userId profile call rfl]
  | findUser _ => exact nomatch (show Phase.cancelling userId profile call = .idle from hc)
  | findCreator _ => exact nomatch (show Phase.cancelling userId profile call = .idle from hc)
  | findDue _ => exact nomatch (show Phase.cancelling userId profile call = .idle from hc)
  | findCallOf _ _ =>
    obtain ⟨_, _, heq⟩ := hc
    exact nomatch heq
  | findCall _ =>
    obtain ⟨_, _, heq⟩ := hc
    exact nomatch heq
  | claimReminder _ _ =>
    obtain ⟨_, _, heq, -⟩ := hc
    exact nomatch heq
  | emitDue _ _ _ _ =>
    obtain ⟨_, heq⟩ := hc
    exact nomatch heq

theorem accepts_parties_iff (userId : ObjectId) (profile : Option ObjectId)
    (call : ScheduledCall) :
    (call.accepts (actorOf userId profile) = true ↔
      call.isOpen = true ∧ (userId = call.callerUserId ∨ profile = some call.creatorId)) ↔
    (call.isOpen = true → userId = call.callerUserId ∨ Agrees userId profile call) := by
  have hcaller : (actorOf userId profile).isCallerOf call = true ↔ userId = call.callerUserId := by
    rw [eq_comm (a := userId)]
    exact beq_iff_eq
  have hcreator : (actorOf userId profile).isCreatorOf call = true ↔
      profile.isSome = true ∧ userId = call.creatorId := by
    rw [eq_comm (a := userId)]
    unfold Actor.isCreatorOf
    rw [Bool.and_eq_true, beq_iff_eq]
    exact Iff.rfl
  unfold ScheduledCall.accepts Agrees
  rw [Bool.and_eq_true, Bool.or_eq_true, hcaller, hcreator]
  cases profile with
  | none =>
    simp only [Option.isSome_none, Bool.false_eq_true, false_and, or_false, reduceCtorEq,
      Option.not_mem_none, false_imp_iff, implies_true, or_true, iff_true]
    exact and_comm
  | some p =>
    simp only [Option.isSome_some, true_and, Option.some.injEq, Option.mem_def, forall_eq']
    tauto

structure Kept (x : Phase × SchedulingEvent) : Prop where
  steps : StatusSteps x.2
  confirmed : ∀ call, claimOf x.2 = some call → call.status = .confirmed
  parties : AcceptsParties x

/-- **A command keeps its promise exactly if it meets the condition.** -/
theorem kept_iff_sound (h : PhaseOk l s φ) (hc : Allows φ c) :
    Kept (φ, ⟨s, c, r, c.exec r s⟩) ↔ Sound (φ, ⟨s, c, r, c.exec r s⟩) := by
  have hparties : AcceptsParties (φ, ⟨s, c, r, c.exec r s⟩) ↔
      ∀ userId profile call, φ = .cancelling userId profile call → call.isOpen = true →
        userId = call.callerUserId ∨ Agrees userId profile call := by
    unfold AcceptsParties
    apply forall_congr'
    intro userId
    apply forall_congr'
    intro profile
    apply forall_congr'
    intro call
    apply imp_congr_right
    rintro rfl
    simpa [isSave_iff_accepts hc] using accepts_parties_iff userId profile call
  constructor
  · intro hkept
    refine ⟨?_, hparties.1 hkept.parties⟩
    rintro call (hfound | hfound)
    · exact uncancelled_of_steps hkept.steps hfound
    · simp [hkept.confirmed call hfound]
  · intro hsound
    refine ⟨?_, ?_, hparties.2 hsound.actor⟩
    · exact steps_of_uncancelled h hc fun call hcall => hsound.uncancelled call (.inl hcall)
    · intro call hfound
      rcases List.mem_cons.1 (noticed_of_claimOf h hc hfound) with hconfirmed | hcancelled
      · exact hconfirmed
      · exact absurd (List.mem_singleton.1 hcancelled) (hsound.uncancelled call (.inr hfound))

/-! ### One reminder -/

theorem isClaimed_update {f : ScheduledCall → ScheduledCall} (hf : ∀ call, (f call).id = call.id)
    (hsent : ∀ call, call.reminderSentAt.isSome = true → (f call).reminderSentAt.isSome = true)
    (s : Store) (id' : ObjectId) (h : s.isClaimed id = true) :
    (⟨s.users, s.creators, s.calls.update id' f⟩ : Store).isClaimed id = true := by
  unfold Store.isClaimed at h ⊢
  rw [Unique.get_update hf]
  split
  · rename_i hid
    subst hid
    rw [Option.any_map]
    cases hget : s.calls.get id' <;> simp_all
  · exact h

theorem isClaimed_exec (h : s.isClaimed id = true) : (c.exec r s).isClaimed id = true := by
  unfold Cmd.exec
  split
  · exact h
  cases c with
  | save id' changes =>
    exact isClaimed_update (f := ScheduledCall.set changes) (fun _ => rfl) (fun _ hsent => hsent) s
      id' h
  | claimReminder id' now =>
    dsimp only
    split
    · exact isClaimed_update (f := ScheduledCall.remind now) (fun _ => rfl) (fun _ _ => rfl) s
        id' h
    · exact h
  | _ => exact h

theorem isClaimed_of_unclaimed (h : s.unclaimed id = some call) : s.isClaimed id = false := by
  obtain ⟨hget, hnone⟩ := Option.filter_eq_some_iff.1 h
  unfold Store.isClaimed
  rw [hget]
  rw [Option.isNone_iff_eq_none] at hnone
  show call.reminderSentAt.isSome = false
  rw [hnone]
  rfl

theorem isClaimed_claim {now : ℤ} (hr : r.ok = true) (h : s.unclaimed id = some call) :
    ((Cmd.claimReminder id now).exec r s).isClaimed id = true := by
  have hdelivered : ¬r.delivered = false := by
    simp [(Bool.and_eq_true_iff.1 hr).1]
  unfold Cmd.exec
  rw [if_neg hdelivered]
  dsimp only
  rw [h]
  unfold Store.isClaimed
  rw [Unique.get_update (f := ScheduledCall.remind now) fun _ => rfl, if_pos rfl,
    (Option.filter_eq_some_iff.1 h).1]
  rfl

theorem claim_of_holds (hc : Allows φ c) (h : holds id (φ.next c r s) = true) :
    ∃ now call, c = .claimReminder id now ∧ r.ok = true ∧ s.unclaimed id = some call := by
  unfold Phase.next at h
  split at h
  · cases h
  rename_i hr
  rw [Bool.not_eq_false] at hr
  split at h
  · cases h
  · cases h
  · split at h
    · split at h
      · cases h
      · cases h
    · cases h
  · split at h
    · cases h
    · cases h
  · rename_i call calls id' now
    split at h
    · rename_i hfound
      obtain ⟨found, hfound⟩ := Option.isSome_iff_exists.1 hfound
      obtain ⟨call', calls', heq, rfl⟩ := hc
      cases heq
      obtain rfl := of_decide_eq_true h
      exact ⟨now, found, rfl, hr, hfound⟩
    · cases h
  · cases h
  · cases h

theorem holds_of_reminds (hc : Allows φ c) (h : reminds id ⟨s, c, r, c.exec r s⟩ = true) :
    holds id φ = true ∧ holds id (φ.next c r s) = false := by
  cases c with
  | emitDue creatorFirebaseUid id' callerUserId scheduledAt =>
    obtain ⟨calls, rfl⟩ := hc
    refine ⟨h, ?_⟩
    unfold Phase.next
    split <;> rfl
  | _ => cases h

variable (id) in
/-- **A reminder uses a claim up**, and a claim is made once. -/
theorem reminders_step (hc : Allows φ c) :
    (reminds id ⟨s, c, r, c.exec r s⟩).toNat + (holds id (φ.next c r s)).toNat +
      (s.isClaimed id).toNat ≤ (holds id φ).toNat + ((c.exec r s).isClaimed id).toNat := by
  have hkept : (s.isClaimed id).toNat ≤ ((c.exec r s).isClaimed id).toNat := by
    cases hclaimed : s.isClaimed id with
    | false => exact Nat.zero_le _
    | true => rw [isClaimed_exec hclaimed]
  cases hreminds : reminds id ⟨s, c, r, c.exec r s⟩ with
  | true =>
    obtain ⟨hholds, hnext⟩ := holds_of_reminds hc hreminds
    rw [hholds, hnext, Bool.toNat_true, Bool.toNat_false]
    omega
  | false =>
    cases hholds : holds id (φ.next c r s) with
    | true =>
      obtain ⟨now, call, rfl, hr, hfound⟩ := claim_of_holds hc hholds
      rw [isClaimed_of_unclaimed hfound, isClaimed_claim hr hfound, Bool.toNat_true,
        Bool.toNat_false]
      omega
    | false =>
      rw [Bool.toNat_false]
      omega

end Steps

/-! ### Runs -/

structure Run (φs : List Phase) (l : List (Phase × SchedulingEvent)) (s : Store) : Prop where
  phases : ∀ φ ∈ φs, PhaseOk l s φ
  once : ∀ id, l.countP (fun x => reminds id x.2) + φs.countP (holds id) ≤ (s.isClaimed id).toNat
  claimed : ∀ x ∈ l, ∀ id, reminds id x.2 = true → Claimed l id
  kept : ∀ x ∈ l, Kept x ↔ Sound x

variable {l : List (Phase × SchedulingEvent)}

theorem run_spawn {φs : List Phase} {s : Store} (h : Run φs l s) : Run (φs ++ [.idle]) l s where
  phases := Pool.forall_snoc h.phases trivial
  once id := by
    rw [countP_snoc (x := Phase.idle)]
    exact h.once id
  claimed := h.claimed
  kept := h.kept

theorem claimed_of_holds {s : Store} {id : ObjectId} {φ : Phase} (h : PhaseOk l s φ)
    (hholds : holds id φ = true) : Claimed l id := by
  cases φ with
  | claimed id' calls =>
    obtain rfl := of_decide_eq_true hholds
    exact h.1
  | _ => cases hholds

theorem run_step {φs : List Phase} {s : Store} {i : ℕ} {φ : Phase} {c : Cmd} (r : Reply)
    (h : Run φs l s) (hi : φs[i]? = some φ) (hc : Allows φ c) :
    Run (φs.set i (φ.next c r s)) (l ++ [(φ, ⟨s, c, r, c.exec r s⟩)]) (c.exec r s) := by
  have hφ := h.phases φ (List.mem_of_getElem? hi)
  have hl := List.subset_append_left l [((φ, ⟨s, c, r, c.exec r s⟩) : Phase × SchedulingEvent)]
  exact
    { phases := by
        apply Pool.forall_set
        · exact fun ψ hψ => phaseOk_other (h.phases ψ hψ) hc hl
        · exact phaseOk_other (phaseOk_next hφ hc) hc (List.Subset.refl _)
      once := by
        intro id
        have hcount := Pool.countP_phases_set (ψ := φ.next c r s) hi (holds id)
        have hstep := reminders_step id (r := r) (s := s) hc
        have hold := h.once id
        rw [countP_snoc]
        dsimp only
        omega
      claimed := by
        intro x hx id hreminds
        rcases mem_snoc.1 hx with hx | rfl
        · exact (h.claimed x hx id hreminds).mono hl
        · exact (claimed_of_holds hφ (holds_of_reminds hc hreminds).1).mono hl
      kept := Pool.forall_snoc h.kept (kept_iff_sound hφ hc) }

theorem watchedCalls_run (s : Store) (ms : List (Move Request Reply)) :
    Run (watchedCalls s ms).phases (watchedCalls s ms).log (watchedCalls s ms).pool.store := by
  have hstart : Run [] [] s :=
    { phases := fun _ hφ => nomatch hφ
      once := fun _ => Nat.zero_le _
      claimed := fun _ hx => nomatch hx
      kept := fun _ hx => nomatch hx }
  obtain ⟨-, -, hrun⟩ := Watched.play_phased Run (fun _ => True) program_follows hstart
    (fun _ _ _ _ h => run_spawn h) (fun _ _ _ _ _ _ r h hi hc _ => run_step r h hi hc) ms
    fun _ _ => trivial
  exact hrun

/-- **A cancelled call stays cancelled** exactly in the runs whose commands meet the condition. -/
theorem stays_cancelled_iff (s : Store) (ms : List (Move Request Reply)) :
    StaysCancelled (watchedCalls s ms).log ↔ ∀ x ∈ (watchedCalls s ms).log, Sound x := by
  have hrun := watchedCalls_run s ms
  constructor
  · intro h x hx
    apply (hrun.kept x hx).1
    exact ⟨h.steps x hx, h.confirmed x hx, h.parties x hx⟩
  · intro h
    have hkept : ∀ x ∈ (watchedCalls s ms).log, Kept x := fun x hx => (hrun.kept x hx).2 (h x hx)
    exact
      { steps := fun x hx => (hkept x hx).steps
        once := fun id => by
          have honce := hrun.once id
          have hle := Bool.toNat_le ((watchedCalls s ms).pool.store.isClaimed id)
          omega
        claimed := hrun.claimed
        confirmed := fun x hx => (hkept x hx).confirmed
        parties := fun x hx => (hkept x hx).parties }

/-! ### A confirmation over a cancellation -/

def waitingCall : ScheduledCall :=
  ⟨10, 1, 7, "creator", 1000, .pending_creator, none, none, none, none⟩

def waitingStore : Store where
  users := [⟨1, "caller"⟩, ⟨2, "creator"⟩]
  creators := [⟨7, 2⟩]
  calls := Unique.empty.insert waitingCall

/-- The creator reads the call, the caller cancels it, and the creator saves. -/
def overwrittenMoves : List (Move Request Reply) :=
  [Move.spawn (Request.confirm true (some "creator") (some 10) 100),
    Move.spawn (Request.cancel true (some "caller") (some 10) 200)] ++
    List.replicate 3 (Move.step 0 ⟨true, true⟩) ++ List.replicate 5 (Move.step 1 ⟨true, true⟩) ++
    [Move.step 0 ⟨true, true⟩]

theorem cancelled_call_confirmed :
    ¬StaysCancelled (watchedCalls waitingStore overwrittenMoves).log := by
  intro h
  have hany : (watchedCalls waitingStore overwrittenMoves).log.any (fun x =>
      decide ((x.2.before.calls.get 10).map (·.status) = some .cancelled ∧
        (x.2.after.calls.get 10).map (·.status) = some .confirmed)) = true := by
    decide +kernel
  obtain ⟨x, hx, hstored⟩ := List.any_eq_true.1 hany
  obtain ⟨hbefore, hafter⟩ := of_decide_eq_true hstored
  obtain ⟨new, hnew, hconfirmed⟩ := Option.map_eq_some_iff.1 hafter
  obtain ⟨old, hold, hsteps⟩ := h.steps x hx 10 new hnew
  obtain ⟨call, hcall, hcancelled⟩ := Option.map_eq_some_iff.1 hbefore
  obtain rfl := Option.mem_unique hold hcall
  rw [hcancelled, hconfirmed] at hsteps
  exact not_steps_confirmed hsteps

end VibemeetBackend.Scheduling
