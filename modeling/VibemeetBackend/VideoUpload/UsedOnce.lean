import VibemeetBackend.Async.Watch
import VibemeetBackend.VideoUpload.StreamSession

/-!
# A video upload session is used once

Whole runs of webhooks, polls, sweeps and consumptions, from any store.
-/

namespace VibemeetBackend.VideoUpload

open Async Flow Pool
open Moments (ProcessingStatus Text)
open Mongo (Unique)

/-! ### Phases -/

/-- A poll also knows how many commands there have been if no other operation has made any since its
own last one. -/
inductive Phase where
  | webhook (state : Option String) (read : Option StreamUploadSession)
  | sweep (read : Option StreamUploadSession)
  | consume (read : Option StreamUploadSession)
  | released (sessionId : Text)
  | poll
  | polled (session : StreamUploadSession) (commands : ℕ)
  | mapped (session : StreamUploadSession) (commands : ℕ) (status : Option ProcessingStatus)
  | written (sessionId : Text) (commands : ℕ) (delivered : Bool)
  | ended

/-- What a `GET` answers. -/
def found (r : Reply) (s : Store) (sessionId : Text) : Option StreamUploadSession :=
  if r.ok = true then s.sessions.get sessionId else none

def Phase.next (φ : Phase) (c : Cmd) (r : Reply) (s : Store) : Phase :=
  match φ, c with
  | .webhook state _, .get sessionId => .webhook state (found r s sessionId)
  | .webhook state read, _ => .webhook state read
  | .sweep _, .get sessionId => .sweep (found r s sessionId)
  | .sweep read, _ => .sweep read
  | .consume _, .get sessionId => .consume (found r s sessionId)
  | .consume _, .del sessionId => if r.ok = true then .released sessionId else .ended
  | .poll, .get sessionId =>
    match found r s sessionId with
    | some session => .polled session (s.commands + 1)
    | none => .ended
  | .polled session commands, .videoDetails _ =>
    if r.ok = true then .mapped session (commands + 1) (mapCloudflareStreamState r.details.state)
    else .polled session (commands + 1)
  | .mapped session commands status, .videoDetails _ => .mapped session (commands + 1) status
  | .mapped session commands _, .setex _ => .written session.sessionId (commands + 1) r.delivered
  | _, _ => .ended

def Request.phase : Request → Phase
  | .webhook _ _ state => .webhook state none
  | .poll .. => .poll
  | .sweep _ => .sweep none
  | .consume .. => .consume none

def Writes (φ : Phase) (new : StreamUploadSession) : Prop :=
  match φ with
  | .webhook state (some session) => new.sessionId = session.sessionId ∧
    new.processingStatus = webhookStatus state session.processingStatus
  | .sweep (some session) => new.sessionId = session.sessionId ∧ new.processingStatus = .failed
  | .mapped session _ status => new.sessionId = session.sessionId ∧ new.processingStatus = .ready ∧
    status = some .ready
  | _ => False

def Answers (φ : Phase) (sessionId : Text) (answer : ProcessingStatus) : Prop :=
  match φ with
  | .polled session _ => sessionId = session.sessionId ∧ answer = session.processingStatus
  | .mapped session _ status => sessionId = session.sessionId ∧ status ≠ some .ready ∧
    answer = status.getD session.processingStatus
  | .written sessionId' _ _ => sessionId = sessionId' ∧ answer = .ready
  | _ => False

def Allows (φ : Phase) : Cmd → Prop
  | .setex new => Writes φ new
  | .del sessionId => ∃ session, φ = .consume (some session) ∧ session.sessionId = sessionId
  | .zrem sessionId => φ = .released sessionId
  | .respond (.uploadStatus sessionId status _) => Answers φ sessionId status
  | .zrange | .get _ | .videoDetails _ | .respond (.error ..) => True

abbrev FollowsStream {α : Type} (φ : Phase) (p : StreamFlow α) (Q : α → Phase → Prop) : Prop :=
  Follows (guarded Allows Phase.next) φ p Q fun _ _ => True

section Follows

variable {α : Type} {φ : Phase} {Q : α → Phase → Prop} {c : Cmd}

theorem run_follows {f : Reply × Store → StreamFlow α} (hc : Allows φ c)
    (h : ∀ r s, r.ok = true → FollowsStream (φ.next c r s) (f (r, s)) Q) :
    FollowsStream φ (run c >>= f) Q :=
  follows_call_bind fun r s => ⟨_, guarded_of hc, h r s, fun _ => trivial⟩

theorem attempt_follows {f : Except String (Reply × Store) → StreamFlow α} (hc : Allows φ c)
    (hok : ∀ r s, r.ok = true → FollowsStream (φ.next c r s) (f (.ok (r, s))) Q)
    (herror : ∀ r s, r.ok = false → FollowsStream (φ.next c r s) (f (.error "command failed")) Q) :
    FollowsStream φ (attempt (run c) >>= f) Q := by
  apply follows_bind
  apply follows_attempt
  intro r s
  refine ⟨_, guarded_of hc, ?_⟩
  show Prog.Follows _ _ (.ret (if r.ok then _ else _)) _
  cases hr : r.ok with
  | true => exact hok r s hr
  | false => exact herror r s hr

theorem getSession_follows (reads : Option StreamUploadSession → Phase)
    (hreads : ∀ read sessionId r s,
      (reads read).next (.get sessionId) r s = reads (found r s sessionId))
    (read : Option StreamUploadSession) (sessionId : Text) :
    FollowsStream (reads read) (getStreamUploadSession sessionId) fun session φ' =>
      ∃ read', φ' = reads read' ∧
        ∀ x, session = some x → read' = some x ∧ x.sessionId = sessionId := by
  unfold getStreamUploadSession
  split
  · exact follows_pure ⟨read, rfl, fun _ h => absurd h (by simp)⟩
  · apply run_follows
    · exact trivial
    intro r s hr
    rw [hreads]
    refine follows_pure ⟨_, rfl, fun x hx => ⟨(if_pos hr).trans hx, ?_⟩⟩
    exact (Unique.mem_of_get hx).2

theorem findAmong_follows (state : Option String) (uid : Text) (ids : List Text)
    (read : Option StreamUploadSession) :
    FollowsStream (.webhook state read) (findAmong uid ids) fun session φ' =>
      ∃ read', φ' = .webhook state read' ∧ ∀ x, session = some x → read' = some x := by
  induction ids generalizing read with
  | nil => exact follows_pure ⟨read, rfl, fun _ h => nomatch h⟩
  | cons id ids ih =>
    apply follows_bind
    apply Follows.mono
      (getSession_follows (.webhook state) (fun _ _ _ _ => rfl) read id)
    · rintro session _ ⟨read', rfl, hread⟩
      cases session with
      | none => exact ih read'
      | some session =>
        simp_all
    · exact fun _ _ _ => trivial

theorem webhook_follows (verified : Bool) (uid : Option Text) (state : Option String) :
    FollowsStream (.webhook state none) (handleStreamWebhook verified uid state)
      fun _ _ => True := by
  unfold handleStreamWebhook
  split
  · exact follows_pure trivial
  split
  · exact follows_pure trivial
  · exact follows_pure trivial
  apply follows_tryCatch
  apply follows_bind
  apply run_follows
  · exact trivial
  intro r s _
  apply Follows.mono (findAmong_follows state _ s.index none)
  · rintro session _ ⟨read', rfl, hread⟩
    cases session with
    | none => exact follows_pure trivial
    | some session =>
      obtain rfl := hread session rfl
      simp [Allows, Phase.next, Writes, run, webhookDuration, updateStreamUploadSession]
  · exact fun _ _ _ => trivial

theorem sweepAll_follows (now : ℤ) (ids : List Text) (read : Option StreamUploadSession) :
    FollowsStream (.sweep read) (sweepAll now ids) fun _ _ => True := by
  induction ids generalizing read with
  | nil => exact follows_pure trivial
  | cons id ids ih =>
    apply follows_bind
    apply Follows.mono (getSession_follows .sweep (fun _ _ _ _ => rfl) read id)
    · rintro session _ ⟨read', rfl, hread⟩
      cases session with
      | none => exact ih read'
      | some session =>
        simp_all [Allows, Phase.next, Writes, run, updateStreamUploadSession]
    · exact fun _ _ _ => trivial

theorem consume_follows (sessionId userId : Text) (expectedClass : ContentClass) :
    FollowsStream (.consume none) (consumeStreamUploadSession sessionId userId expectedClass)
      fun _ _ => True := by
  apply follows_bind
  apply Follows.mono
    (getSession_follows .consume (fun _ _ _ _ => rfl) none sessionId)
  · rintro session _ ⟨read', rfl, hread⟩
    cases session with
    | none => exact follows_pure trivial
    | some session =>
      obtain ⟨rfl, hid⟩ := hread session rfl
      dsimp only
      split
      · exact follows_pure trivial
      split
      · exact follows_pure trivial
      split
      · exact follows_pure trivial
      apply run_follows
      · exact ⟨session, rfl, hid⟩
      intro r s hr
      have hnext : Phase.next (.consume (some session)) (.del sessionId) r s =
          .released sessionId := if_pos hr
      rw [hnext]
      apply run_follows
      · exact rfl
      · intro r s _
        exact follows_pure trivial
  · exact fun _ _ _ => trivial

theorem readyDuration_follows (session : StreamUploadSession) (duration : Option ℚ)
    (commands : ℕ) (status : Option ProcessingStatus) :
    FollowsStream (.mapped session commands status) (readyDuration session duration)
      fun _ φ' => ∃ commands', φ' = .mapped session commands' status := by
  unfold readyDuration
  split <;> simp [run, Allows, Phase.next]

theorem sync_follows (session : StreamUploadSession) (commands : ℕ) :
    FollowsStream (.polled session commands) (syncStreamUploadSessionFromCloudflare session)
      fun synced φ' => Answers φ' synced.sessionId synced.processingStatus := by
  unfold syncStreamUploadSessionFromCloudflare
  split
  · exact follows_pure ⟨rfl, rfl⟩
  rename_i hopen
  apply attempt_follows
  · exact trivial
  · intro r s hr
    have hnext : Phase.next (.polled session commands) (.videoDetails session.streamVideoId) r s =
        .mapped session (commands + 1) (mapCloudflareStreamState r.details.state) := if_pos hr
    rw [hnext]
    dsimp only
    apply follows_bind
    unfold applyStreamVideoStateToSession
    -- only a video that has become ready is stored
    have hkept : ∀ (status : Option ProcessingStatus) (updated : StreamUploadSession),
        status ≠ some .ready → updated.sessionId = session.sessionId →
        updated.processingStatus = status.getD session.processingStatus →
        FollowsStream (.mapped session (commands + 1) status)
          (if updated.processingStatus ≠ updated.processingStatus ∨ false = true then do
            let _ ← attempt (updateStreamUploadSession updated)
            pure updated
          else pure updated)
          fun synced φ' => Answers φ' synced.sessionId synced.processingStatus := by
      intro status updated hstatus hid hupdated
      rw [if_neg (by simp)]
      exact follows_pure ⟨hid, hstatus, hupdated⟩
    cases hstatus : mapCloudflareStreamState r.details.state with
    | none => exact follows_pure (hkept none session nofun rfl rfl)
    | some status =>
      cases status with
      | uploading => exact follows_pure (hkept (some .uploading) _ nofun rfl rfl)
      | processing => exact follows_pure (hkept (some .processing) _ nofun rfl rfl)
      | failed => exact follows_pure (hkept (some .failed) _ nofun rfl rfl)
      | ready =>
        apply follows_bind
        apply Follows.mono (readyDuration_follows session _ _ _)
        · rintro duration _ ⟨commands', rfl⟩
          apply follows_pure
          dsimp only
          rw [if_pos (.inr (decide_eq_true fun h => hopen (.inl h)))]
          have hwrites : Allows (.mapped session commands' (some .ready))
              (.setex { session with processingStatus := .ready, durationSeconds := duration }) :=
            ⟨rfl, rfl, rfl⟩
          apply follows_bind
          apply follows_attempt
          apply follows_call_bind
          intro r s
          refine ⟨_, guarded_of hwrites, ?_, ?_⟩
          · intro _
            exact follows_pure (follows_pure ⟨rfl, rfl⟩)
          · intro _
            exact follows_pure ⟨rfl, rfl⟩
        · exact fun _ _ _ => trivial
  · intro r s hr
    have hnext : Phase.next (.polled session commands) (.videoDetails session.streamVideoId) r s =
        .polled session (commands + 1) := if_neg (by rw [hr]; exact Bool.noConfusion)
    rw [hnext]
    exact follows_pure ⟨rfl, rfl⟩

theorem poll_follows (momentsEnabled : Bool) (userId : Option Text) (sessionId : Text) :
    FollowsStream .poll (getUploadStatusHandler momentsEnabled userId sessionId)
      fun _ _ => True := by
  apply follows_bind
  have hrespond : ∀ (response : Response) (φ : Phase), Allows φ (.respond response) →
      FollowsStream φ (run (.respond response) >>= fun _ => pure ()) fun _ _ => True :=
    fun response φ hφ => run_follows hφ fun _ _ _ => follows_pure trivial
  have hstatus : ∀ userId, FollowsStream .poll (uploadStatus userId sessionId)
      fun response φ' => Allows φ' (.respond response) := by
    intro userId
    apply follows_bind
    unfold getStreamUploadSession
    split
    · exact follows_pure (follows_pure trivial)
    apply run_follows
    · exact trivial
    intro r s hr
    have hnext : Phase.next .poll (.get sessionId) r s =
        match s.sessions.get sessionId with
        | some session => .polled session (s.commands + 1)
        | none => .ended := by
      unfold Phase.next found
      dsimp only
      rw [if_pos hr]
    rw [hnext]
    apply follows_pure
    cases s.sessions.get sessionId with
    | none => exact follows_pure trivial
    | some session =>
      dsimp only
      split
      · exact follows_pure trivial
      · apply follows_bind
        apply Follows.mono (sync_follows session (s.commands + 1))
        · intro synced φ' hφ'
          exact follows_pure hφ'
        · exact fun _ _ _ => trivial
  unfold uploadStatusResponse
  split
  · exact follows_pure (hrespond _ .poll trivial)
  cases userId with
  | none => exact follows_pure (hrespond _ .poll trivial)
  | some userId =>
    apply follows_tryCatch
    apply Follows.mono (hstatus userId)
    · exact fun response φ' hφ' => hrespond response φ' hφ'
    · exact fun e φ' _ => follows_pure (hrespond _ φ' trivial)

theorem program_follows (q : Request) :
    (program q).Follows (guarded Allows Phase.next) q.phase fun _ _ => True := by
  cases q with
  | webhook verified uid state => exact (webhook_follows verified uid state).run
  | poll momentsEnabled userId sessionId =>
    exact (poll_follows momentsEnabled userId sessionId).run
  | sweep now =>
    have h : FollowsStream (.sweep none) (sweepStaleStreamSessions now) fun _ _ => True := by
      simp [sweepAll_follows, Allows, Phase.next, run, sweepStaleStreamSessions]
    exact h.run
  | consume sessionId userId expectedClass =>
    exact (consume_follows sessionId userId expectedClass).run

end Follows

/-! ### What a session is promised -/

abbrev StreamEvent : Type := Event Cmd Reply Store

abbrev watchedSessions (s : Store) (ms : List (Move Request Reply)) :
    Watched Phase Cmd Reply Store :=
  (Watched.start s).play Phase.next Request.phase Cmd.exec program ms

def Store.status (s : Store) (sessionId : Text) : Option ProcessingStatus :=
  (s.sessions.get sessionId).map (·.processingStatus)

def stored (e : StreamEvent) : Option StreamUploadSession :=
  match e.cmd with
  | .setex new => if e.ans.delivered = true then some new else none
  | _ => none

def Cmd.deletes (c : Cmd) (sessionId : Text) : Bool :=
  match c with
  | .del sessionId' => decide (sessionId' = sessionId)
  | _ => false

def consumes (sessionId : Text) (e : StreamEvent) : Bool :=
  e.ans.delivered && e.cmd.deletes sessionId

def takes (sessionId : Text) (e : StreamEvent) : Bool := e.ans.ok && e.cmd.deletes sessionId

def returns (sessionId : Text) (e : StreamEvent) : Bool :=
  match e.cmd with
  | .zrem sessionId' => e.ans.ok && decide (sessionId' = sessionId)
  | _ => false

/-- A stored `ready` is not turned back. -/
def KeepsReady (e : StreamEvent) : Prop :=
  ∀ sessionId, e.before.status sessionId = some .ready →
    e.after.status sessionId ≠ some .processing ∧ e.after.status sessionId ≠ some .uploading

def Phase.commands : Phase → Option ℕ
  | .polled _ commands | .mapped _ commands _ | .written _ commands _ => some commands
  | _ => none

/-- No other operation has made a command since the poll has begun. -/
def Undisturbed (x : Phase × StreamEvent) : Prop := x.1.commands = some x.2.before.commands

def PollTrue (x : Phase × StreamEvent) : Prop :=
  ∀ sessionId status contentClass,
    x.2.cmd = .respond (.uploadStatus sessionId status contentClass) → Undisturbed x →
      x.2.before.status sessionId = some status

def NotRestored (l : List (Phase × StreamEvent)) (x : Phase × StreamEvent) : Prop :=
  ∀ new, stored x.2 = some new → ∀ y ∈ l, consumes new.sessionId y.2 = false

/-- At most one consumption returns the session, which is not stored again; it stays ready, and a
poll that nobody disturbs answers what is stored. -/
structure UsedOnce (l : List (Phase × StreamEvent)) : Prop where
  once : ∀ sessionId, l.countP (fun x => returns sessionId x.2) ≤ 1
  gone : Along NotRestored l
  ready : ∀ x ∈ l, KeepsReady x.2
  polls : ∀ x ∈ l, PollTrue x

def TurnsBack (state : Option String) (status : ProcessingStatus) : Prop :=
  (state = some "inprogress" ∨ state = some "queued") ∨
    (state ≠ some "ready" ∧ state ≠ some "error" ∧ (status = .uploading ∨ status = .processing))

def Forward : Phase → Prop
  | .webhook state (some session) => ¬TurnsBack state session.processingStatus
  | _ => True

/-- The provider has said nothing new to the poll, or its video is ready and that is stored. -/
def UpToDate : Phase → Prop
  | .mapped session _ status => status = none ∨ status = some session.processingStatus
  | .written _ _ delivered => delivered = true
  | _ => True

/-- The condition on a command: what is stored again or deleted is still there, a webhook does not
turn back a session that is ready, and the provider has nothing new for an undisturbed poll but that
its video is ready. -/
def Sound (x : Phase × StreamEvent) : Prop :=
  match x.2.cmd with
  | .setex new => x.2.ans.delivered = true → (x.2.before.sessions.get new.sessionId).isSome = true ∧
    (x.2.before.status new.sessionId = some .ready → Forward x.1)
  | .del sessionId => x.2.ans.ok = true → (x.2.before.sessions.get sessionId).isSome = true
  | .respond _ => Undisturbed x → UpToDate x.1
  | .zrange | .get _ | .zrem _ | .videoDetails _ => True

instance (state : Option String) (status : ProcessingStatus) : Decidable (TurnsBack state status) :=
  inferInstanceAs (Decidable (_ ∨ _))

instance : DecidablePred Forward := fun x => by
  unfold Forward
  split <;> infer_instance

instance : DecidablePred UpToDate := fun x => by
  unfold UpToDate
  split <;> infer_instance

instance (x : Phase × StreamEvent) : Decidable (Undisturbed x) :=
  inferInstanceAs (Decidable (_ = _))

instance : DecidablePred Sound := fun x => by
  unfold Sound
  split <;> infer_instance

/-! ### One command -/

section Steps

variable {φ : Phase} {c : Cmd} {r : Reply} {s : Store} {sessionId : Text}
  {l : List (Phase × StreamEvent)}

/-- **What a command does to a session.** -/
theorem get_exec (c : Cmd) (r : Reply) (s : Store) (sessionId : Text) :
    (∃ new, stored ⟨s, c, r, c.exec r s⟩ = some new ∧ c = .setex new ∧ new.sessionId = sessionId ∧
      (c.exec r s).sessions.get sessionId = some { new with updatedAt := r.now }) ∨
    (consumes sessionId ⟨s, c, r, c.exec r s⟩ = true ∧
      (c.exec r s).sessions.get sessionId = none) ∨
    (consumes sessionId ⟨s, c, r, c.exec r s⟩ = false ∧
      (c.exec r s).sessions.get sessionId = s.sessions.get sessionId) := by
  by_cases hdelivered : r.delivered = true
  · have hexec : (c.exec r s).sessions = (c.effect r s).sessions := by
      unfold Cmd.exec
      rw [if_pos hdelivered]
    have hconsumes : consumes sessionId ⟨s, c, r, c.exec r s⟩ = c.deletes sessionId := by
      simp [consumes, hdelivered]
    rw [hexec, hconsumes]
    cases c with
    | setex new =>
      by_cases hid : new.sessionId = sessionId
      · left
        refine ⟨new, if_pos hdelivered, rfl, hid, ?_⟩
        show (s.sessions.put _).get sessionId = _
        rw [Unique.get_put, if_pos hid]
      · refine .inr (.inr ⟨rfl, ?_⟩)
        show (s.sessions.put _).get sessionId = _
        rw [Unique.get_put, if_neg hid]
    | del sessionId' =>
      have hget : ((Cmd.del sessionId').effect r s).sessions.get sessionId =
          if sessionId' = sessionId then none else s.sessions.get sessionId :=
        Unique.get_erase s.sessions sessionId' sessionId
      by_cases hid : sessionId' = sessionId
      · exact .inr (.inl ⟨decide_eq_true hid, hget.trans (if_pos hid)⟩)
      · exact .inr (.inr ⟨decide_eq_false hid, hget.trans (if_neg hid)⟩)
    | _ => exact .inr (.inr ⟨rfl, rfl⟩)
  · refine .inr (.inr ⟨?_, ?_⟩)
    · simp [consumes, hdelivered]
    · unfold Cmd.exec
      rw [if_neg hdelivered]

theorem stored_eq_some {new : StreamUploadSession}
    (h : stored ⟨s, c, r, c.exec r s⟩ = some new) : c = .setex new ∧ r.delivered = true := by
  cases c <;> simp_all [stored]

theorem Sound.stored {new : StreamUploadSession} (h : Sound (φ, ⟨s, c, r, c.exec r s⟩))
    (hstored : stored ⟨s, c, r, c.exec r s⟩ = some new) :
    s.sessions.get new.sessionId ≠ none ∧ (s.status new.sessionId = some .ready → Forward φ) := by
  obtain ⟨rfl, hdelivered⟩ := stored_eq_some hstored
  obtain ⟨hsome, hforward⟩ := h hdelivered
  exact ⟨Option.isSome_iff_ne_none.1 hsome, hforward⟩

theorem Sound.taken (h : Sound (φ, ⟨s, c, r, c.exec r s⟩))
    (htakes : takes sessionId ⟨s, c, r, c.exec r s⟩ = true) :
    s.sessions.get sessionId ≠ none := by
  obtain ⟨hok, hdeletes⟩ := Bool.and_eq_true_iff.1 htakes
  cases c with
  | del sessionId' =>
    obtain rfl := of_decide_eq_true hdeletes
    exact Option.isSome_iff_ne_none.1 (h hok)
  | _ => cases hdeletes

theorem commands_exec (c : Cmd) (r : Reply) (s : Store) :
    (c.exec r s).commands = s.commands + 1 := by
  unfold Cmd.exec
  split
  · cases c <;> rfl
  · rfl

theorem webhookStatus_forward {state : Option String} {status : ProcessingStatus}
    (h : ¬TurnsBack state status) :
    webhookStatus state status = .ready ∨ webhookStatus state status = .failed := by
  unfold webhookStatus
  split
  · rename_i hback
    exact absurd (.inl hback) h
  split
  · exact .inl rfl
  split
  · exact .inr rfl
  · rename_i hready herror
    cases status with
    | uploading => exact absurd (.inr ⟨hready, herror, .inl rfl⟩) h
    | processing => exact absurd (.inr ⟨hready, herror, .inr rfl⟩) h
    | ready => exact .inl rfl
    | failed => exact .inr rfl

theorem keepsReady_exec (hc : Allows φ c) (h : Sound (φ, ⟨s, c, r, c.exec r s⟩)) :
    KeepsReady ⟨s, c, r, c.exec r s⟩ := by
  intro sessionId hready
  have hstatus : (c.exec r s).status sessionId = none ∨
      (c.exec r s).status sessionId = some .ready ∨
        (c.exec r s).status sessionId = some .failed := by
    rcases get_exec c r s sessionId with ⟨new, hstored, rfl, rfl, hget⟩ | ⟨-, hget⟩ | ⟨-, hget⟩
    · have hnew : ((Cmd.setex new).exec r s).status new.sessionId = some new.processingStatus := by
        simp [Store.status, hget]
      rw [hnew]
      right
      have hwrites : Writes φ new := hc
      unfold Writes at hwrites
      split at hwrites
      · rename_i state session
        rw [hwrites.2]
        apply (webhookStatus_forward ((h.stored hstored).2 hready)).imp
        · exact congrArg some
        · exact congrArg some
      · exact .inr (congrArg some hwrites.2)
      · exact .inl (congrArg some hwrites.2.1)
      · exact hwrites.elim
    · left
      simp [Store.status, hget]
    · right
      left
      simpa [Store.status, hget] using hready
  show (c.exec r s).status sessionId ≠ _ ∧ (c.exec r s).status sessionId ≠ _
  rcases hstatus with hstatus | hstatus | hstatus
  · rw [hstatus]
    exact ⟨by simp, by simp⟩
  · rw [hstatus]
    exact ⟨by simp, by simp⟩
  · rw [hstatus]
    exact ⟨by simp, by simp⟩

/-! ### The polls -/

def PhaseOk (s : Store) : Phase → Prop
  | .polled session commands | .mapped session commands _ =>
    commands ≤ s.commands ∧
      (commands = s.commands → s.sessions.get session.sessionId = some session)
  | .written sessionId commands delivered =>
    commands ≤ s.commands ∧
      (commands = s.commands → delivered = true → s.status sessionId = some .ready)
  | _ => True

theorem phaseOk_other (h : PhaseOk s φ) (c : Cmd) (r : Reply) : PhaseOk (c.exec r s) φ := by
  have hcommands := commands_exec c r s
  cases φ with
  | polled session commands =>
    obtain ⟨hle, -⟩ := h
    exact ⟨by omega, fun heq => by omega⟩
  | mapped session commands status =>
    obtain ⟨hle, -⟩ := h
    exact ⟨by omega, fun heq => by omega⟩
  | written sessionId commands delivered =>
    obtain ⟨hle, -⟩ := h
    exact ⟨by omega, fun heq => by omega⟩
  | _ => trivial

theorem sessions_read {streamVideoId : Text} :
    ((Cmd.videoDetails streamVideoId).exec r s).sessions = s.sessions := by
  unfold Cmd.exec
  split <;> rfl

theorem phaseOk_next (h : PhaseOk s φ) (hc : Allows φ c) : PhaseOk (c.exec r s) (φ.next c r s) := by
  have hcommands := commands_exec c r s
  unfold Phase.next
  split
  · trivial
  · trivial
  · trivial
  · trivial
  · trivial
  · split <;> trivial
  · rename_i sessionId
    split
    · rename_i session hfound
      unfold found at hfound
      split at hfound
      · refine ⟨hcommands.ge, fun _ => ?_⟩
        have hsessions : ((Cmd.get sessionId).exec r s).sessions = s.sessions := by
          unfold Cmd.exec
          split <;> rfl
        rw [hsessions, (Unique.mem_of_get hfound).2]
        exact hfound
      · cases hfound
    · trivial
  · rename_i session commands streamVideoId
    obtain ⟨hle, hget⟩ := h
    split
    · refine ⟨by omega, fun heq => ?_⟩
      rw [sessions_read]
      exact hget (by omega)
    · refine ⟨by omega, fun heq => ?_⟩
      rw [sessions_read]
      exact hget (by omega)
  · rename_i session commands status streamVideoId
    obtain ⟨hle, hget⟩ := h
    refine ⟨by omega, fun heq => ?_⟩
    rw [sessions_read]
    exact hget (by omega)
  · rename_i session commands status new
    obtain ⟨hle, -⟩ := h
    obtain ⟨hid, hready, -⟩ := hc
    refine ⟨by omega, fun _ hdelivered => ?_⟩
    have hexec : ((Cmd.setex new).exec r s).sessions =
        s.sessions.put { new with updatedAt := r.now } := by
      unfold Cmd.exec
      rw [if_pos hdelivered]
      rfl
    simp [Store.status, hexec, Unique.get_put, hid, hready]
  · trivial

theorem pollTrue_exec (hφ : PhaseOk s φ) (hc : Allows φ c)
    (h : Sound (φ, ⟨s, c, r, c.exec r s⟩)) : PollTrue (φ, ⟨s, c, r, c.exec r s⟩) := by
  rintro sessionId status contentClass rfl hundisturbed
  have hanswers : Answers φ sessionId status := hc
  have hfresh : UpToDate φ := h hundisturbed
  show s.status sessionId = some status
  cases φ with
  | polled session commands =>
    obtain ⟨rfl, rfl⟩ := hanswers
    simp [Store.status, hφ.2 (Option.some.inj hundisturbed)]
  | mapped session commands mapped =>
    obtain ⟨rfl, -, rfl⟩ := hanswers
    unfold Store.status
    rw [hφ.2 (Option.some.inj hundisturbed)]
    rcases hfresh with rfl | rfl
    · rfl
    · rfl
  | written sessionId' commands delivered =>
    obtain ⟨rfl, rfl⟩ := hanswers
    exact hφ.2 (Option.some.inj hundisturbed) hfresh
  | _ => exact hanswers.elim

/-! ### The consumptions -/

def releases (sessionId : Text) : Phase → Bool
  | .released sessionId' => decide (sessionId' = sessionId)
  | _ => false

variable (sessionId) in
theorem release_step (hc : Allows φ c) :
    (returns sessionId ⟨s, c, r, c.exec r s⟩).toNat +
        (releases sessionId (φ.next c r s)).toNat ≤
      (releases sessionId φ).toNat + (takes sessionId ⟨s, c, r, c.exec r s⟩).toNat := by
  cases hreturns : returns sessionId ⟨s, c, r, c.exec r s⟩ with
  | true =>
    unfold returns at hreturns
    dsimp only at hreturns
    split at hreturns
    · obtain rfl : φ = .released _ := hc
      have hid := (Bool.and_eq_true_iff.1 hreturns).2
      have hreleases : ∀ sessionId', releases sessionId (.released sessionId') =
          decide (sessionId' = sessionId) := fun _ => rfl
      have hnext : ∀ sessionId', releases sessionId
          ((Phase.released sessionId').next (.zrem sessionId') r s) = false := fun _ => rfl
      rw [hreleases, hid, hnext]
      exact Nat.le_add_right _ _
    · cases hreturns
  | false =>
    cases hreleases : releases sessionId (φ.next c r s) with
    | false => exact Nat.zero_le _
    | true =>
      have htakes : takes sessionId ⟨s, c, r, c.exec r s⟩ = true := by
        unfold Phase.next at hreleases
        split at hreleases
        · cases hreleases
        · cases hreleases
        · cases hreleases
        · cases hreleases
        · cases hreleases
        · split at hreleases
          · rename_i hr
            exact Bool.and_eq_true_iff.2 ⟨hr, hreleases⟩
          · cases hreleases
        · split at hreleases
          · cases hreleases
          · cases hreleases
        · split at hreleases
          · cases hreleases
          · cases hreleases
        · cases hreleases
        · cases hreleases
        · cases hreleases
      rw [htakes, Bool.toNat_false, Bool.toNat_true]
      omega

def Consumed (l : List (Phase × StreamEvent)) (sessionId : Text) : Prop :=
  ∃ y ∈ l, consumes sessionId y.2 = true

theorem consumed_of_takes {e : StreamEvent} (h : takes sessionId e = true) :
    consumes sessionId e = true := by
  obtain ⟨hok, hdeletes⟩ := Bool.and_eq_true_iff.1 h
  exact Bool.and_eq_true_iff.2 ⟨(Bool.and_eq_true_iff.1 hok).1, hdeletes⟩

theorem absent_exec (h : Sound (φ, ⟨s, c, r, c.exec r s⟩))
    (habsent : Consumed l sessionId → s.sessions.get sessionId = none)
    (hconsumed : Consumed (l ++ [(φ, ⟨s, c, r, c.exec r s⟩)]) sessionId) :
    (c.exec r s).sessions.get sessionId = none := by
  obtain ⟨y, hy, hconsumes⟩ := hconsumed
  rcases get_exec c r s sessionId with ⟨new, hstored, rfl, rfl, -⟩ | ⟨-, hget⟩ | ⟨hkept, hget⟩
  · rcases List.mem_append.1 hy with hy | hy
    · exact absurd (habsent ⟨y, hy, hconsumes⟩) (h.stored hstored).1
    · rw [List.mem_singleton.1 hy] at hconsumes
      cases (Bool.and_eq_true_iff.1 hconsumes).2
  · exact hget
  · rcases List.mem_append.1 hy with hy | hy
    · rw [hget]
      exact habsent ⟨y, hy, hconsumes⟩
    · rw [List.mem_singleton.1 hy] at hconsumes
      simp [hkept] at hconsumes

end Steps

/-! ### Runs -/

structure Run (φs : List Phase) (l : List (Phase × StreamEvent)) (s : Store) : Prop where
  phases : ∀ φ ∈ φs, PhaseOk s φ
  absent : ∀ sessionId, Consumed l sessionId → s.sessions.get sessionId = none
  taken : ∀ sessionId, l.countP (fun x => takes sessionId x.2) ≤ 1
  returned : ∀ sessionId, l.countP (fun x => returns sessionId x.2) +
    φs.countP (releases sessionId) ≤ l.countP fun x => takes sessionId x.2
  gone : Along NotRestored l
  ready : ∀ x ∈ l, KeepsReady x.2
  polls : ∀ x ∈ l, PollTrue x

theorem run_spawn {φs : List Phase} {l : List (Phase × StreamEvent)} {s : Store} (q : Request)
    (h : Run φs l s) : Run (φs ++ [q.phase]) l s where
  phases := by
    apply forall_snoc h.phases
    cases q <;> trivial
  absent := h.absent
  taken := h.taken
  returned sessionId := by
    have hphase : releases sessionId q.phase = false := by
      cases q <;> rfl
    rw [countP_snoc (x := q.phase), hphase]
    exact h.returned sessionId
  gone := h.gone
  ready := h.ready
  polls := h.polls

theorem run_step {φs : List Phase} {l : List (Phase × StreamEvent)} {s : Store} {i : ℕ} {φ : Phase}
    {c : Cmd} (r : Reply) (h : Run φs l s) (hi : φs[i]? = some φ) (hc : Allows φ c)
    (hsound : Sound (φ, ⟨s, c, r, c.exec r s⟩)) :
    Run (φs.set i (φ.next c r s)) (l ++ [(φ, ⟨s, c, r, c.exec r s⟩)]) (c.exec r s) := by
  have hφ := h.phases φ (List.mem_of_getElem? hi)
  have hunconsumed : ∀ sessionId, s.sessions.get sessionId ≠ none → ¬Consumed l sessionId :=
    fun sessionId hget hconsumed => hget (h.absent sessionId hconsumed)
  exact
    { phases := by
        apply forall_set
        · exact fun ψ hψ => phaseOk_other (h.phases ψ hψ) c r
        · exact phaseOk_next hφ hc
      absent := fun sessionId => absent_exec hsound (h.absent sessionId)
      taken := by
        intro sessionId
        rw [countP_snoc]
        cases htakes : takes sessionId ⟨s, c, r, c.exec r s⟩ with
        | false => exact h.taken sessionId
        | true =>
          have hnone := hunconsumed sessionId (hsound.taken htakes)
          have hzero : l.countP (fun x => takes sessionId x.2) = 0 := by
            apply List.countP_eq_zero.2
            exact fun y hy hy' => hnone ⟨y, hy, consumed_of_takes hy'⟩
          rw [hzero]
          exact le_rfl
      returned := by
        intro sessionId
        have hcount := countP_phases_set (ψ := φ.next c r s) hi (releases sessionId)
        have hstep := release_step sessionId (r := r) (s := s) hc
        have hold := h.returned sessionId
        rw [countP_snoc, countP_snoc]
        dsimp only
        omega
      gone := by
        refine along_snoc.2 ⟨h.gone, fun new hstored y hy => ?_⟩
        have hnone := hunconsumed new.sessionId (hsound.stored hstored).1
        exact Bool.eq_false_iff.2 fun hy' => hnone ⟨y, hy, hy'⟩
      ready := forall_snoc h.ready (keepsReady_exec hc hsound)
      polls := forall_snoc h.polls (pollTrue_exec hφ hc hsound) }

/-- **A session is used once, and its status is kept**, in every run whose commands meet the
condition. -/
theorem session_used_once (s : Store) (ms : List (Move Request Reply))
    (h : ∀ x ∈ (watchedSessions s ms).log, Sound x) : UsedOnce (watchedSessions s ms).log := by
  have hstart : Run [] [] s :=
    { phases := fun _ hφ => nomatch hφ
      absent := fun _ ⟨_, hy, _⟩ => nomatch hy
      taken := fun _ => Nat.zero_le _
      returned := fun _ => Nat.zero_le _
      gone := along_nil
      ready := fun _ hx => nomatch hx
      polls := fun _ hx => nomatch hx }
  obtain ⟨-, -, hrun⟩ := Watched.play_phased Run Sound program_follows hstart
    (fun _ _ _ q hrun => run_spawn q hrun)
    (fun _ _ _ _ _ _ r hrun hi hc hsound => run_step r hrun hi hc hsound) ms h
  exact
    { once := fun sessionId =>
        ((Nat.le_add_right _ _).trans (hrun.returned sessionId)).trans (hrun.taken sessionId)
      gone := hrun.gone
      ready := hrun.ready
      polls := hrun.polls }

/-! ### One upload, and one session used twice -/

def uploadSession (processingStatus : ProcessingStatus) : StreamUploadSession :=
  ⟨['v', 's', '_', '1'], ['u'], ['f'], .moment, ['v'], processingStatus, none, 0, 0, 7200000⟩

def uploadStore (processingStatus : ProcessingStatus) : Store where
  sessions := Unique.empty.insert (uploadSession processingStatus)
  index := [['v', 's', '_', '1']]
  commands := 0

def delivered : Reply := ⟨true, true, 1000, ⟨some "ready", some 12⟩⟩

def uploadMoves : List (Move Request Reply) :=
  [Move.spawn (Request.webhook true (some ['v']) (some "ready")),
    Move.spawn (Request.poll true (some ['u']) ['v', 's', '_', '1']),
    Move.spawn (Request.consume ['v', 's', '_', '1'] ['u'] .moment)] ++
    List.replicate 4 (Move.step 0 delivered) ++ List.replicate 2 (Move.step 1 delivered) ++
    List.replicate 3 (Move.step 2 delivered)

theorem session_used_once_upload :
    UsedOnce (watchedSessions (uploadStore .uploading) uploadMoves).log ∧
      (watchedSessions (uploadStore .uploading) uploadMoves).log.countP
        (fun x => returns ['v', 's', '_', '1'] x.2) = 1 := by
  have hsound : (watchedSessions (uploadStore .uploading) uploadMoves).log.all
      (fun x => decide (Sound x)) = true := by
    decide +kernel
  refine ⟨session_used_once _ _ fun x hx => ?_, by decide +kernel⟩
  exact of_decide_eq_true (List.all_eq_true.1 hsound x hx)

/-- Two consumptions that both read the session before it is deleted. -/
def twiceMoves : List (Move Request Reply) :=
  [Move.spawn (Request.consume ['v', 's', '_', '1'] ['u'] .moment),
    Move.spawn (Request.consume ['v', 's', '_', '1'] ['u'] .moment),
    Move.step 0 delivered, Move.step 1 delivered, Move.step 0 delivered, Move.step 0 delivered,
    Move.step 1 delivered, Move.step 1 delivered]

theorem session_used_twice : ¬UsedOnce (watchedSessions (uploadStore .ready) twiceMoves).log := by
  intro h
  have htwice : (watchedSessions (uploadStore .ready) twiceMoves).log.countP
      (fun x => returns ['v', 's', '_', '1'] x.2) = 2 := by
    decide +kernel
  exact absurd (htwice.symm.trans_le (h.once ['v', 's', '_', '1'])) (by decide)

end VibemeetBackend.VideoUpload
