import VibemeetBackend.MomentUpload.CreateMoment

/-!
# What a failed upload leaves
-/

namespace VibemeetBackend.MomentUpload

open Async Flow
open Images (UploadPurpose UploadSession UploadStore UploadCmd consumeSession
  getSession releaseSession ask)
open VideoUpload (isSessionId consumeStreamUploadSession getStreamUploadSession)

/-! ### The promise and the condition -/

def Consumable (s : Store) (streamSessionId userId : String) : Prop :=
  isSessionId streamSessionId.toList = true ∧
    ∃ session, s.streams.sessions.get streamSessionId.toList = some session ∧
      session.userId = userId.toList ∧ session.contentClass = .moment ∧
        session.processingStatus = .ready

def SavedReady (s t : Store) : Prop :=
  ∃ row ∈ t.moments.rows, row.id = s.moments.next ∧ row.processingStatus = .ready

structure NothingLeft (body : CreateMomentBody) (s t : Store) : Prop where
  rows : ∀ row ∈ t.moments.rows, row.id < s.moments.next
  session : ∀ streamSessionId userId, body.streamSessionId = some streamSessionId →
    Consumable s streamSessionId userId → Consumable t streamSessionId userId

def LeavesNothing (o : Outcomes) (body : CreateMomentBody) (s : Store) : Prop :=
  (createMomentHandler o body s).1.isError = true →
    ¬SavedReady s (createMomentHandler o body s).2 →
      NothingLeft body s (createMomentHandler o body s).2

structure ImageConsumed (o : Outcomes) (s : UploadStore) (sessionId userId : String)
    (purpose : UploadPurpose) (session : UploadSession) : Prop where
  id : sessionId.startsWith "s_" = true
  get : (o.image (.get sessionId)).ok = true
  payload : (s.later (o.image (.get sessionId))).payload sessionId = some session
  owner : session.userId = userId
  kind : session.purpose = purpose
  del : (o.image (.consume sessionId userId purpose)).ok = true
  alive : (((s.later (o.image (.get sessionId))).later
    (o.image (.consume sessionId userId purpose))).payload sessionId).isSome = true
  zrem : (o.image (.zrem sessionId)).ok = true

/-- The image service has the bytes of an image of the session, and they are of an accepted type. -/
def CommitSucceeds (o : Outcomes) (s : Store) (sessionId userId : String)
    (purpose : UploadPurpose) : Prop :=
  ∃ session metadata mime, ImageConsumed o s.images sessionId userId purpose session ∧
    o.metadata session.imageId = .ok metadata ∧ o.sniff session.imageId = .ok mime

structure Admitted (o : Outcomes) (body : CreateMomentBody) (userId creatorId : String)
    (type : MomentType) : Prop where
  enabled : o.momentsEnabled = true
  user : o.user = .ok (some userId)
  rate : o.retryAfterSec = .ok none
  creator : o.creator = .ok (some creatorId)
  type : body.type = some type

def ReadAnswered (o : Outcomes) (streamSessionId : String) : Prop :=
  isSessionId streamSessionId.toList = true →
    (o.stream (.get streamSessionId.toList)).ok = true

def ConsumptionAnswered (o : Outcomes) (streamSessionId : String) : Prop :=
  (o.stream (.del streamSessionId.toList)).ok = true ∧
    (o.stream (.zrem streamSessionId.toList)).ok = true

/-- After the row has been created, the moment becomes ready, or there is nothing to upload and the
row is deleted. -/
def Uploads (o : Outcomes) (body : CreateMomentBody) (s : Store) (userId : String)
    (type : MomentType) : Prop :=
  match type, given body.imageSessionId, given body.streamSessionId with
  | .photo, some imageSessionId, _ =>
    CommitSucceeds o s imageSessionId userId .momentPhoto ∧ o.save.carriedOut = true
  | .video, _, some streamSessionId =>
    ReadAnswered o streamSessionId ∧
      (¬Consumable s streamSessionId userId → o.deleteOne.carriedOut = true) ∧
      (Consumable s streamSessionId userId →
        ConsumptionAnswered o streamSessionId ∧
          (∀ thumbnailSessionId, given body.thumbnailSessionId = some thumbnailSessionId →
            CommitSucceeds o s thumbnailSessionId userId .momentThumbnail) ∧
          o.save.carriedOut = true)
  | _, _, _ => o.deleteOne.carriedOut = true

def Completes (o : Outcomes) (body : CreateMomentBody) (s : Store) : Prop :=
  ∀ userId creatorId type, Admitted o body userId creatorId type →
    o.create = .lost ∨ (o.create = .done ∧ Uploads o body s userId type)

/-! ### Handlers on a store -/

section Handlers

variable {α β : Type} {s : Store}

theorem onStore_bind (h : Handler α) (f : α → Handler β) (s : Store) :
    onStore (h >>= f) s =
      match onStore h s with
      | (.ok a, t) => onStore (f a) t
      | (.error e, t) => (.error e, t) := by
  show (ExceptT.bindCont f (h.run s).1) (h.run s).2 = _
  unfold onStore
  rcases h.run s with ⟨a | e, t⟩ <;> rfl

theorem onStore_bind_assoc {γ : Type} (h : Handler α) (f : α → Handler β) (g : β → Handler γ)
    (s : Store) : onStore (h >>= f >>= g) s = onStore (h >>= fun a => f a >>= g) s := by
  rw [onStore_bind, onStore_bind, onStore_bind]
  rcases onStore h s with ⟨a | e, t⟩
  · rfl
  · exact (onStore_bind _ _ _).symm

theorem onStore_step (x : Except Failure α) : onStore (step x) s = (x, s) := rfl

end Handlers

/-! ### The video session -/

section Consumption

variable {o : Outcomes} {s : Store} {streamSessionId userId : String}

theorem sessions_get (o : VideoUpload.Cmd → VideoUpload.Reply) (id : Moments.Text)
    (s : VideoUpload.Store) :
    ((VideoUpload.Cmd.get id).exec (o (.get id)) s).sessions = s.sessions := by
  unfold VideoUpload.Cmd.exec
  split <;> rfl

theorem read_given (o : VideoUpload.Cmd → VideoUpload.Reply) (id : Moments.Text)
    (s : VideoUpload.Store) :
    (getStreamUploadSession id).given VideoUpload.Cmd.exec o s =
      if isSessionId id = false then (.ok none, s)
      else (if (o (.get id)).ok = true then .ok (s.sessions.get id) else .error "command failed",
        (VideoUpload.Cmd.get id).exec (o (.get id)) s) := by
  unfold getStreamUploadSession
  split
  · rfl
  · unfold VideoUpload.run
    rw [given_call_bind]
    split <;> rfl

/-- The last two commands of a consumption. -/
def release (id : Moments.Text) (session : VideoUpload.StreamUploadSession) :
    VideoUpload.StreamFlow (Option VideoUpload.StreamUploadSession) := do
  let _ ← VideoUpload.run (.del id)
  let _ ← VideoUpload.run (.zrem id)
  pure (some session)

theorem release_given (o : VideoUpload.Cmd → VideoUpload.Reply) (id : Moments.Text)
    (session : VideoUpload.StreamUploadSession) (s : VideoUpload.Store) :
    ((release id session).given VideoUpload.Cmd.exec o s).1 =
      if (o (.del id)).ok = true ∧ (o (.zrem id)).ok = true then .ok (some session)
      else .error "command failed" := by
  unfold release VideoUpload.run
  rw [given_call_bind]
  by_cases hdel : (o (.del id)).ok = true
  · rw [if_pos hdel, given_call_bind]
    by_cases hzrem : (o (.zrem id)).ok = true
    · rw [if_pos hzrem, if_pos ⟨hdel, hzrem⟩]
      rfl
    · rw [if_neg hzrem, if_neg fun h => hzrem h.2]
  · rw [if_neg hdel, if_neg fun h => hdel h.1]

theorem consume_given (o : VideoUpload.Cmd → VideoUpload.Reply) (s : VideoUpload.Store)
    (id userId : Moments.Text) (hid : isSessionId id = true) (hget : (o (.get id)).ok = true) :
    (consumeStreamUploadSession id userId .moment).given VideoUpload.Cmd.exec o s =
      match s.sessions.get id with
      | none => (.ok none, (VideoUpload.Cmd.get id).exec (o (.get id)) s)
      | some session =>
        if session.userId = userId ∧ session.contentClass = .moment ∧
            session.processingStatus = .ready then
          (release id session).given VideoUpload.Cmd.exec o
            ((VideoUpload.Cmd.get id).exec (o (.get id)) s)
        else (.ok none, (VideoUpload.Cmd.get id).exec (o (.get id)) s) := by
  unfold consumeStreamUploadSession
  rw [given_bind, read_given, if_neg (by rw [hid]; exact Bool.noConfusion), if_pos hget]
  cases s.sessions.get id with
  | none => rfl
  | some session =>
    dsimp only
    by_cases huser : session.userId = userId
    · by_cases hclass : session.contentClass = .moment
      · by_cases hready : session.processingStatus = .ready
        · rw [if_neg (not_not_intro huser), if_neg (not_not_intro hclass),
            if_neg (not_not_intro hready), if_pos ⟨huser, hclass, hready⟩]
          rfl
        · rw [if_neg (not_not_intro huser), if_neg (not_not_intro hclass), if_pos hready,
            if_neg fun h => hready h.2.2]
          rfl
      · rw [if_neg (not_not_intro huser), if_pos hclass, if_neg fun h => hclass h.2.1]
        rfl
    · rw [if_pos huser, if_neg fun h => huser h.1]
      rfl

def consumed (o : Outcomes) (s : Store) (streamSessionId userId : String) :
    Except String (Option VideoUpload.StreamUploadSession) × VideoUpload.Store :=
  (consumeStreamUploadSession streamSessionId.toList userId.toList .moment).given
    VideoUpload.Cmd.exec o.stream s.streams

/-- **The consumption of a video session**: it is not the user's, or it is consumed, or an error is
thrown. -/
theorem consume_cases (o : Outcomes) (s : Store) (streamSessionId userId : String) :
    ((consumed o s streamSessionId userId).1 = .ok none ∧ ReadAnswered o streamSessionId ∧
      ¬Consumable s streamSessionId userId ∧
        (consumed o s streamSessionId userId).2.sessions = s.streams.sessions) ∨
    (∃ session, (consumed o s streamSessionId userId).1 = .ok (some session) ∧
      ReadAnswered o streamSessionId ∧ Consumable s streamSessionId userId ∧
        ConsumptionAnswered o streamSessionId) ∨
    ∃ e, (consumed o s streamSessionId userId).1 = .error e ∧ ¬(ReadAnswered o streamSessionId ∧
      (Consumable s streamSessionId userId → ConsumptionAnswered o streamSessionId)) := by
  cases hid : isSessionId streamSessionId.toList with
  | false =>
    have hgiven : consumed o s streamSessionId userId = (.ok none, s.streams) := by
      unfold consumed consumeStreamUploadSession
      rw [given_bind, read_given, if_pos hid]
      rfl
    have hnot : ¬isSessionId streamSessionId.toList = true := by
      rw [hid]
      exact Bool.noConfusion
    rw [hgiven]
    exact .inl ⟨rfl, fun h => absurd h hnot, fun h => hnot h.1, rfl⟩
  | true =>
    by_cases hget : (o.stream (.get streamSessionId.toList)).ok = true
    · have hread : ReadAnswered o streamSessionId := fun _ => hget
      have hgiven := consume_given o.stream s.streams streamSessionId.toList userId.toList hid hget
      have hnone : ∀ x, (∀ session, s.streams.sessions.get streamSessionId.toList = some session →
          ¬(session.userId = userId.toList ∧ session.contentClass = .moment ∧
            session.processingStatus = .ready)) →
          consumed o s streamSessionId userId =
            (.ok x, (VideoUpload.Cmd.get streamSessionId.toList).exec
              (o.stream (.get streamSessionId.toList)) s.streams) →
          ¬Consumable s streamSessionId userId ∧
            (consumed o s streamSessionId userId).2.sessions = s.streams.sessions := by
        intro x hmine heq
        rw [heq]
        refine ⟨?_, sessions_get o.stream streamSessionId.toList s.streams⟩
        rintro ⟨-, session, hsession, hchecks⟩
        exact hmine session hsession hchecks
      cases hsession : s.streams.sessions.get streamSessionId.toList with
      | none =>
        rw [hsession] at hgiven hnone
        obtain ⟨hmine, hsessions⟩ := hnone none nofun hgiven
        exact .inl ⟨congrArg Prod.fst hgiven, hread, hmine, hsessions⟩
      | some session =>
        rw [hsession] at hgiven hnone
        dsimp only at hgiven
        by_cases hchecks : session.userId = userId.toList ∧ session.contentClass = .moment ∧
          session.processingStatus = .ready
        · rw [if_pos hchecks] at hgiven
          have hmine : Consumable s streamSessionId userId := ⟨hid, session, hsession, hchecks⟩
          have hreleased := (congrArg Prod.fst hgiven).trans (release_given _ _ _ _)
          by_cases hanswered : ConsumptionAnswered o streamSessionId
          · exact .inr (.inl
              ⟨session, hreleased.trans (if_pos hanswered), hread, hmine, hanswered⟩)
          · exact .inr (.inr
              ⟨_, hreleased.trans (if_neg hanswered), fun h => hanswered (h.2 hmine)⟩)
        · rw [if_neg hchecks] at hgiven
          obtain ⟨hmine, hsessions⟩ := hnone none
            (fun session' heq => by cases heq; exact hchecks) hgiven
          exact .inl ⟨congrArg Prod.fst hgiven, hread, hmine, hsessions⟩
    · right
      right
      have hgiven : (consumed o s streamSessionId userId).1 = .error "command failed" := by
        unfold consumed consumeStreamUploadSession
        rw [given_bind, read_given, if_neg (by rw [hid]; exact Bool.noConfusion),
          if_neg hget]
      exact ⟨_, hgiven, fun h => hget (h.1 hid)⟩

end Consumption

/-! ### The image session -/

section Commit

variable {α : Type} {o : Outcomes} {sessionId userId : String} {purpose : UploadPurpose}

theorem ask_given (o : UploadCmd → Images.Reply) (s : UploadStore) (c : UploadCmd)
    (f : UploadStore → Images.UploadFlow α) :
    (ask c >>= f).given UploadCmd.exec o s =
      if (o c).ok = true then (f (s.later (o c))).given UploadCmd.exec o (c.exec (o c) s)
      else (.error "ReplyError", c.exec (o c) s) := by
  rw [given_bind]
  unfold ask
  rw [given_call_bind]
  by_cases hok : (o c).ok = true
  · rw [if_pos hok, if_pos hok]
    rfl
  · rw [if_neg hok, if_neg hok]

theorem exec_get (r : Images.Reply) (s : UploadStore) :
    (UploadCmd.get sessionId).exec r s = s.later r := by
  show (if r.delivered = true then _ else _) = _
  split <;> rfl

theorem releaseSession_given (o : UploadCmd → Images.Reply) (s : UploadStore)
    (session : UploadSession) (sessionId userId : String) (purpose : UploadPurpose) :
    ((releaseSession session sessionId userId purpose).given UploadCmd.exec o s).1 =
      if (o (.consume sessionId userId purpose)).ok = true ∧ (o (.zrem sessionId)).ok = true then
        .ok (((s.later (o (.consume sessionId userId purpose))).payload sessionId).map
          fun _ => session)
      else .error "ReplyError" := by
  unfold releaseSession
  rw [ask_given]
  by_cases hdel : (o (.consume sessionId userId purpose)).ok = true
  · rw [if_pos hdel, ask_given]
    by_cases hzrem : (o (.zrem sessionId)).ok = true
    · rw [if_pos hzrem, if_pos ⟨hdel, hzrem⟩]
      rfl
    · rw [if_neg hzrem, if_neg fun h => hzrem h.2]
  · rw [if_neg hdel, if_neg fun h => hdel h.1]

theorem getSession_given (o : UploadCmd → Images.Reply) (s : UploadStore) (sessionId : String) :
    (getSession sessionId).given UploadCmd.exec o s =
      if sessionId.startsWith "s_" = false then (.ok none, s)
      else if (o (.get sessionId)).ok = true then
        (.ok ((s.later (o (.get sessionId))).payload sessionId), s.later (o (.get sessionId)))
      else (.error "ReplyError", s.later (o (.get sessionId))) := by
  unfold getSession
  split
  · rfl
  · rw [ask_given, exec_get]
    rfl

def imageConsumed (o : Outcomes) (s : Store) (sessionId userId : String)
    (purpose : UploadPurpose) : Except String (Option UploadSession) × UploadStore :=
  (consumeSession sessionId userId purpose).given UploadCmd.exec o.image s.images

/-- **The consumption of an image session.** -/
theorem imageConsumed_iff (o : Outcomes) (s : Store) (sessionId userId : String)
    (purpose : UploadPurpose) (session : UploadSession) :
    (imageConsumed o s sessionId userId purpose).1 = .ok (some session) ↔
      ImageConsumed o s.images sessionId userId purpose session := by
  unfold imageConsumed consumeSession
  rw [given_bind, getSession_given]
  cases hid : sessionId.startsWith "s_" with
  | false =>
    apply iff_of_false nofun
    intro h
    simp [h.id] at hid
  | true =>
    rw [if_neg Bool.noConfusion]
    by_cases hget : (o.image (.get sessionId)).ok = true
    · rw [if_pos hget]
      cases hpayload : (s.images.later (o.image (.get sessionId))).payload sessionId with
      | none =>
        apply iff_of_false nofun
        intro h
        simp [h.payload] at hpayload
      | some found =>
        dsimp only
        by_cases howner : found.userId = userId
        · by_cases hkind : found.purpose = purpose
          · rw [if_neg (not_not_intro howner), if_neg (not_not_intro hkind), releaseSession_given]
            constructor
            · intro h
              split at h
              · rename_i hanswered
                obtain ⟨x, hx, rfl⟩ := Option.map_eq_some_iff.1 (Except.ok.inj h)
                exact ⟨hid, hget, hpayload, howner, hkind, hanswered.1,
                  Option.isSome_iff_exists.2 ⟨x, hx⟩, hanswered.2⟩
              · cases h
            · intro h
              obtain ⟨x, hx⟩ := Option.isSome_iff_exists.1 h.alive
              obtain rfl := Option.some.inj (hpayload.symm.trans h.payload)
              rw [if_pos ⟨h.del, h.zrem⟩, hx]
              rfl
          · rw [if_neg (not_not_intro howner), if_pos hkind]
            apply iff_of_false nofun
            intro h
            obtain rfl := Option.some.inj (hpayload.symm.trans h.payload)
            exact hkind h.kind
        · rw [if_pos howner]
          apply iff_of_false nofun
          intro h
          obtain rfl := Option.some.inj (hpayload.symm.trans h.payload)
          exact howner h.owner
    · rw [if_neg hget]
      apply iff_of_false nofun
      intro h
      exact hget h.get

theorem imageMetadata_cases (o : Outcomes) (imageId : String) (s : Store) :
    (∃ metadata, onStore (imageMetadata o imageId) s = (.ok metadata, s) ∧
      o.metadata imageId = .ok metadata) ∨
    ∃ e, onStore (imageMetadata o imageId) s = (.error e, s) ∧
      ∀ metadata, o.metadata imageId ≠ .ok metadata := by
  unfold imageMetadata
  cases hmetadata : o.metadata imageId with
  | ok metadata => exact .inl ⟨metadata, rfl, rfl⟩
  | error e =>
    right
    have hnone : ∀ metadata, (.error e : Except Failure ImageMetadata) ≠ .ok metadata := by
      rintro _ ⟨⟩
    cases e with
    | cloudflareImages status =>
      dsimp only
      split
      · exact ⟨_, rfl, hnone⟩
      · exact ⟨_, rfl, hnone⟩
    | _ => exact ⟨_, rfl, hnone⟩

theorem imageMime_cases (o : Outcomes) (imageId : String) (s : Store) :
    (∃ mime, onStore (imageMime o imageId) s = (.ok mime, s) ∧ o.sniff imageId = .ok mime) ∨
    ∃ e t, onStore (imageMime o imageId) s = (.error e, t) ∧ t.moments = s.moments ∧
      t.streams = s.streams ∧ ∀ mime, o.sniff imageId ≠ .ok mime := by
  unfold imageMime
  cases hsniff : o.sniff imageId with
  | ok mime => exact .inl ⟨mime, rfl, rfl⟩
  | error e =>
    right
    cases e with
    | unsupported detectedMime =>
      cases o.deleteImage with
      | _ => exact ⟨_, _, rfl, rfl, rfl, nofun⟩
    | failed e => exact ⟨_, _, rfl, rfl, rfl, nofun⟩

/-- **What comes of the commit of an image.** -/
theorem commit_cases (o : Outcomes) (s : Store) (sessionId userId : String)
    (purpose : UploadPurpose) :
    ∃ x t, onStore (commitImageAsset o sessionId userId purpose) s = (x, t) ∧
      t.moments = s.moments ∧ t.streams = s.streams ∧
        ((∃ asset, x = .ok asset) ∧ CommitSucceeds o s sessionId userId purpose ∨
          (∃ e, x = .error e) ∧ ¬CommitSucceeds o s sessionId userId purpose) := by
  unfold commitImageAsset
  rw [onStore_bind]
  have hiff := imageConsumed_iff o s sessionId userId purpose
  have hon : onStore (onImages o (consumeSession sessionId userId purpose)) s =
      (thrown (imageConsumed o s sessionId userId purpose).1,
        { s with images := (imageConsumed o s sessionId userId purpose).2 }) := rfl
  rw [hon]
  generalize (imageConsumed o s sessionId userId purpose).2 = images
  have hfail : (∀ session, (imageConsumed o s sessionId userId purpose).1 ≠ .ok (some session)) →
      ¬CommitSucceeds o s sessionId userId purpose := by
    rintro h ⟨session, metadata, mime, hconsumed, -⟩
    exact h session ((hiff session).2 hconsumed)
  cases hx : (imageConsumed o s sessionId userId purpose).1 with
  | error e => exact ⟨_, _, rfl, rfl, rfl, .inr ⟨⟨_, rfl⟩, hfail fun _ => by rw [hx]; nofun⟩⟩
  | ok found =>
    cases found with
    | none => exact ⟨_, _, rfl, rfl, rfl, .inr ⟨⟨_, rfl⟩, hfail fun _ => by rw [hx]; nofun⟩⟩
    | some session =>
      have hconsumed := (hiff session).1 hx
      have hsame : ∀ session', ImageConsumed o s.images sessionId userId purpose session' →
          session' = session := fun session' h =>
        Option.some.inj (h.payload.symm.trans hconsumed.payload)
      show ∃ x t, onStore (imageMetadata o session.imageId >>= _) _ = _ ∧ _
      rw [onStore_bind]
      rcases imageMetadata_cases o session.imageId { s with images } with
        ⟨metadata, hmetadata, hgot⟩ | ⟨e, hmetadata, hnone⟩
      · rw [hmetadata]
        dsimp only
        rw [onStore_bind]
        rcases imageMime_cases o session.imageId { s with images } with
          ⟨mime, hmime, hgot'⟩ | ⟨e, t, hmime, hmoments, hstreams, hnone⟩
        · rw [hmime]
          exact ⟨_, _, rfl, rfl, rfl,
            .inl ⟨⟨_, rfl⟩, session, metadata, mime, hconsumed, hgot, hgot'⟩⟩
        · rw [hmime]
          refine ⟨_, _, rfl, hmoments, hstreams, .inr ⟨⟨_, rfl⟩, ?_⟩⟩
          rintro ⟨session', metadata', mime, h, -, hsniff⟩
          rw [hsame session' h] at hsniff
          exact hnone mime hsniff
      · rw [hmetadata]
        refine ⟨_, _, rfl, rfl, rfl, .inr ⟨⟨_, rfl⟩, ?_⟩⟩
        rintro ⟨session', metadata, mime, h, hgot, -⟩
        rw [hsame session' h] at hgot
        exact hnone metadata hgot

end Commit

/-! ### The row -/

section Rows

variable {o : Outcomes} {body : CreateMomentBody} {s s₁ t : Store} {userId creatorId : String}
  {type : MomentType}

theorem newMoment_id (o : Outcomes) (creatorId : String) (type : MomentType)
    (caption : Option Moments.Text) (id : ℕ) : (newMoment o creatorId type caption id).id = id :=
  rfl

def withRow (o : Outcomes) (s : Store) (creatorId : String) (type : MomentType)
    (caption : Option Moments.Text) : Store :=
  { s with
    moments := s.moments.create (newMoment o creatorId type caption)
      (newMoment_id o creatorId type caption) }

def rowOf (o : Outcomes) (s : Store) (creatorId : String) (type : MomentType)
    (caption : Option Moments.Text) : CreatorMoment :=
  newMoment o creatorId type caption s.moments.next

theorem rowOf_mem (o : Outcomes) (s : Store) (creatorId : String) (type : MomentType)
    (caption : Option Moments.Text) :
    rowOf o s creatorId type caption ∈ (withRow o s creatorId type caption).moments.rows :=
  List.mem_concat_self

theorem not_savedReady {caption : Option Moments.Text}
    (ht : t.moments = (withRow o s creatorId type caption).moments) : ¬SavedReady s t := by
  rintro ⟨row, hrow, hid, hready⟩
  rw [ht] at hrow
  rcases List.mem_append.1 hrow with hrow | hrow
  · exact absurd hid (s.moments.fresh row hrow).ne
  · rw [List.mem_singleton.1 hrow] at hready
    cases hready

theorem not_nothingLeft {caption : Option Moments.Text}
    (ht : t.moments = (withRow o s creatorId type caption).moments) : ¬NothingLeft body s t := by
  intro h
  apply lt_irrefl s.moments.next
  apply h.rows (rowOf o s creatorId type caption)
  rw [ht]
  exact rowOf_mem o s creatorId type caption

theorem nothingLeft_of_deleteOne {caption : Option Moments.Text}
    (ht : t.moments = (withRow o s creatorId type caption).moments.deleteOne s.moments.next)
    (hsessions : t.streams.sessions = s.streams.sessions) : NothingLeft body s t where
  rows row hrow := by
    rw [ht] at hrow
    obtain ⟨hrow, hid⟩ := List.mem_filter.1 hrow
    rcases List.mem_append.1 hrow with hrow | hrow
    · exact s.moments.fresh row hrow
    · rw [List.mem_singleton.1 hrow] at hid
      exact absurd rfl (of_decide_eq_true hid)
  session streamSessionId userId _ h := by
    obtain ⟨hid, session, hsession, hchecks⟩ := h
    exact ⟨hid, session, by rw [hsessions]; exact hsession, hchecks⟩

theorem savedReady_of_save {caption : Option Moments.Text} {moment : CreatorMoment}
    (hid : moment.id = s.moments.next) (hready : moment.processingStatus = .ready)
    (ht : t.moments = (withRow o s creatorId type caption).moments.save moment) :
    SavedReady s t := by
  refine ⟨moment, ?_, hid, hready⟩
  rw [ht]
  apply List.mem_map.2
  exact ⟨_, rowOf_mem o s creatorId type caption, if_pos hid.symm⟩

/-- How a request ends that has created its row. -/
inductive Ends (o : Outcomes) (s s₁ : Store) : Except Failure Response × Store → Prop → Prop
  | kept {e : Failure} {t : Store} {P : Prop} (h : t.moments = s₁.moments) (hP : ¬P) :
    Ends o s s₁ (.error e, t) P
  | deleted {x : Except Failure Response} {t : Store} {P : Prop}
    (h : t.moments = s₁.moments.deleteOne s.moments.next)
    (hsessions : t.streams.sessions = s.streams.sessions) (hP : P) : Ends o s s₁ (x, t) P
  | saved {x : Except Failure Response} {t : Store} {P : Prop} (h : SavedReady s t) (hP : P) :
    Ends o s s₁ (x, t) P

theorem finish_store (o : Outcomes) (moment : CreatorMoment) (t : Store) :
    (onStore (finish o moment) t).2 = t := by
  unfold finish
  rw [onStore_bind, onStore_step]
  cases o.bustCaches with
  | error e => rfl
  | ok _ =>
    cases o.present <;> rfl

theorem thumbnail_cases (o : Outcomes) (s : Store) (userId : String)
    (thumbnailSessionId : Option String) :
    ∃ x t, onStore (commitThumbnail o userId thumbnailSessionId) s = (x, t) ∧
      t.moments = s.moments ∧
        ((∃ asset, x = .ok asset) ∧ (∀ sessionId, given thumbnailSessionId = some sessionId →
            CommitSucceeds o s sessionId userId .momentThumbnail) ∨
          (∃ e, x = .error e) ∧ ¬∀ sessionId, given thumbnailSessionId = some sessionId →
            CommitSucceeds o s sessionId userId .momentThumbnail) := by
  unfold commitThumbnail
  cases given thumbnailSessionId with
  | none => exact ⟨_, _, rfl, rfl, .inl ⟨⟨_, rfl⟩, nofun⟩⟩
  | some sessionId =>
    obtain ⟨x, t, hx, hmoments, -, hcases⟩ := commit_cases o s sessionId userId .momentThumbnail
    rcases hcases with ⟨⟨asset, rfl⟩, hsucceeds⟩ | ⟨⟨e, rfl⟩, hfails⟩
    · refine ⟨.ok (some asset), t, ?_, hmoments, .inl ⟨⟨_, rfl⟩, ?_⟩⟩
      · rw [onStore_bind, hx]
        rfl
      · intro sessionId' heq
        rw [← Option.some.inj heq]
        exact hsucceeds
    · refine ⟨.error e, t, ?_, hmoments, .inr ⟨⟨_, rfl⟩, fun h => hfails (h sessionId rfl)⟩⟩
      rw [onStore_bind, hx]

variable {caption : Option Moments.Text} {P : Prop}

theorem save_ends {moment : CreatorMoment} {k : Unit → Handler Response}
    (hk : ∀ u t, (onStore (k u) t).2 = t) (hid : moment.id = s.moments.next)
    (hready : moment.processingStatus = .ready)
    (ht : t.moments = (withRow o s creatorId type caption).moments)
    (hP : P ↔ o.save.carriedOut = true) :
    Ends o s (withRow o s creatorId type caption) (onStore (saveRow o moment >>= k) t) P := by
  rw [onStore_bind]
  unfold saveRow
  have hsaved : SavedReady s { t with moments := t.moments.save moment } := by
    apply savedReady_of_save hid hready
    show t.moments.save moment = _
    rw [ht]
  cases hsave : o.save with
  | done =>
    rw [hsave] at hP
    have hend : onStore (k ()) { t with moments := t.moments.save moment } =
        ((onStore (k ()) { t with moments := t.moments.save moment }).1,
          { t with moments := t.moments.save moment }) := Prod.ext rfl (hk () _)
    show Ends o s _ (onStore (k ()) { t with moments := t.moments.save moment }) P
    rw [hend]
    exact .saved hsaved (hP.2 rfl)
  | unanswered =>
    rw [hsave] at hP
    exact .saved hsaved (hP.2 rfl)
  | lost =>
    rw [hsave] at hP
    exact .kept ht fun h => Bool.noConfusion (hP.1 h)

theorem delete_ends {k : Unit → Handler Response} (hk : ∀ u t, (onStore (k u) t).2 = t)
    (ht : t.moments = (withRow o s creatorId type caption).moments)
    (hsessions : t.streams.sessions = s.streams.sessions)
    (hP : P ↔ o.deleteOne.carriedOut = true) :
    Ends o s (withRow o s creatorId type caption)
      (onStore (deleteRow o (rowOf o s creatorId type caption) >>= k) t) P := by
  rw [onStore_bind]
  unfold deleteRow
  have hdeleted : t.moments.deleteOne s.moments.next =
      (withRow o s creatorId type caption).moments.deleteOne s.moments.next := by
    rw [ht]
  cases hdelete : o.deleteOne with
  | done =>
    rw [hdelete] at hP
    have hend : onStore (k ()) { t with moments := t.moments.deleteOne s.moments.next } =
        ((onStore (k ()) { t with moments := t.moments.deleteOne s.moments.next }).1,
          { t with moments := t.moments.deleteOne s.moments.next }) := Prod.ext rfl (hk () _)
    show Ends o s _ (onStore (k ()) { t with moments := t.moments.deleteOne s.moments.next }) P
    rw [hend]
    exact .deleted hdeleted hsessions (hP.2 rfl)
  | unanswered =>
    rw [hdelete] at hP
    exact .deleted hdeleted hsessions (hP.2 rfl)
  | lost =>
    rw [hdelete] at hP
    exact .kept ht fun h => Bool.noConfusion (hP.1 h)

/-- **The branch of a photo.** -/
theorem photo_ends (o : Outcomes) (s : Store) (userId creatorId imageSessionId : String)
    (type : MomentType) (caption : Option Moments.Text) :
    Ends o s (withRow o s creatorId type caption)
      (onStore (uploadPhoto o userId imageSessionId (rowOf o s creatorId type caption) >>= fun _ =>
        finish o (rowOf o s creatorId type caption)) (withRow o s creatorId type caption))
      (CommitSucceeds o s imageSessionId userId .momentPhoto ∧ o.save.carriedOut = true) := by
  obtain ⟨x, t, hx, hmoments, -, hcases⟩ :=
    commit_cases o (withRow o s creatorId type caption) imageSessionId userId .momentPhoto
  unfold uploadPhoto
  rw [onStore_bind_assoc, onStore_bind, hx]
  rcases hcases with ⟨⟨asset, rfl⟩, hsucceeds⟩ | ⟨⟨e, rfl⟩, hfails⟩
  · apply save_ends
    · exact fun _ t => finish_store o _ t
    · rfl
    · rfl
    · exact hmoments
    · exact and_iff_right hsucceeds
  · exact .kept hmoments fun h => hfails h.1

/-- **The branch of a video.** -/
theorem video_ends (o : Outcomes) (s : Store) (userId creatorId streamSessionId : String)
    (thumbnailSessionId : Option String) (type : MomentType) (caption : Option Moments.Text)
    {k : Bool → Handler Response} (hk : ∀ b t, (onStore (k b) t).2 = t) :
    Ends o s (withRow o s creatorId type caption)
      (onStore (uploadVideo o userId streamSessionId thumbnailSessionId
        (rowOf o s creatorId type caption) >>= k) (withRow o s creatorId type caption))
      (ReadAnswered o streamSessionId ∧
        (¬Consumable s streamSessionId userId → o.deleteOne.carriedOut = true) ∧
        (Consumable s streamSessionId userId →
          ConsumptionAnswered o streamSessionId ∧
            (∀ sessionId, given thumbnailSessionId = some sessionId →
              CommitSucceeds o s sessionId userId .momentThumbnail) ∧
            o.save.carriedOut = true)) := by
  have hon : onStore (onStreams o (consumeStreamUploadSession streamSessionId.toList
      userId.toList .moment)) (withRow o s creatorId type caption) =
        (thrown (consumed o s streamSessionId userId).1,
          { withRow o s creatorId type caption with
            streams := (consumed o s streamSessionId userId).2 }) := rfl
  unfold uploadVideo
  rw [onStore_bind_assoc, onStore_bind, hon]
  rcases consume_cases o s streamSessionId userId with ⟨hx, hread, hmine, hsessions⟩ |
    ⟨session, hx, hread, hmine, hanswered⟩ | ⟨e, hx, hfails⟩
  · rw [hx]
    show Ends _ _ _ (onStore ((deleteRow o _ >>= fun _ => pure false) >>= k) _) _
    rw [onStore_bind_assoc]
    apply delete_ends
    · exact fun _ t => hk false t
    · rfl
    · exact hsessions
    simp_all
  · rw [hx]
    generalize (consumed o s streamSessionId userId).2 = streams
    show Ends _ _ _ (onStore ((commitThumbnail o userId thumbnailSessionId >>= _) >>= k) _) _
    rw [onStore_bind_assoc, onStore_bind]
    obtain ⟨x, t, hthumb, hmoments, hcases⟩ := thumbnail_cases o
      { withRow o s creatorId type caption with streams } userId thumbnailSessionId
    rw [hthumb]
    rcases hcases with ⟨⟨asset, rfl⟩, hsucceeds⟩ | ⟨⟨e, rfl⟩, hfails⟩
    · dsimp only
      rw [onStore_bind_assoc]
      apply save_ends
      · exact fun _ t => hk true t
      · rfl
      · rfl
      · exact hmoments
      · constructor
        · exact fun h => (h.2.2 hmine).2.2
        · exact fun h => ⟨hread, fun h' => absurd hmine h', fun _ => ⟨hanswered, hsucceeds, h⟩⟩
    · exact .kept hmoments fun h => hfails (h.2.2 hmine).2.1
  · rw [hx]
    exact .kept rfl fun h => hfails ⟨h.1, fun hmine => (h.2.2 hmine).1⟩

/-- **What follows the creation of the row.** -/
theorem uploads_ends (o : Outcomes) (body : CreateMomentBody) (s : Store)
    (userId creatorId : String) (type : MomentType) (hcreate : o.create = .done) :
    Ends o s (withRow o s creatorId type body.caption)
      (onStore (createMomentFor o body userId creatorId type) s)
      (Uploads o body s userId type) := by
  have hrow : onStore (createRow o creatorId type body.caption) s =
      (.ok (rowOf o s creatorId type body.caption), withRow o s creatorId type body.caption) := by
    unfold createRow
    rw [hcreate]
    rfl
  have hmissing : Ends o s (withRow o s creatorId type body.caption)
      (onStore (deleteRow o (rowOf o s creatorId type body.caption) >>= fun _ =>
        pure (.error 400 "Missing upload session" none none))
        (withRow o s creatorId type body.caption)) (o.deleteOne.carriedOut = true) := by
    apply delete_ends
    · exact fun _ _ => rfl
    · rfl
    · rfl
    · exact Iff.rfl
  unfold createMomentFor
  rw [onStore_bind, hrow]
  unfold Uploads
  cases type with
  | photo =>
    cases given body.imageSessionId with
    | none => exact hmissing
    | some imageSessionId => exact photo_ends o s userId creatorId imageSessionId .photo _
  | video =>
    cases given body.streamSessionId with
    | none => exact hmissing
    | some streamSessionId =>
      apply video_ends
      intro b t
      cases b with
      | true => exact finish_store o _ t
      | false => rfl

/-! ### Requests -/

theorem isError_failureResponse (e : Failure) : (failureResponse e).isError = true := by
  cases e <;> rfl

theorem createMoment_cases (o : Outcomes) (body : CreateMomentBody) (s : Store) :
    ((∀ userId creatorId type, ¬Admitted o body userId creatorId type) ∧
      (onStore (createMoment o body) s).2 = s) ∨
    ∃ userId creatorId type, Admitted o body userId creatorId type ∧
      onStore (createMoment o body) s =
        onStore (createMomentFor o body userId creatorId type) s := by
  unfold createMoment
  cases henabled : o.momentsEnabled with
  | false =>
    left
    refine ⟨fun _ _ _ h => ?_, rfl⟩
    simp [h.enabled] at henabled
  | true =>
    rw [if_neg Bool.noConfusion, onStore_bind, onStore_step]
    rcases huser : o.user with e | _ | userId
    · exact .inl ⟨fun _ _ _ h => (nomatch huser.symm.trans h.user), rfl⟩
    · exact .inl ⟨fun _ _ _ h => (nomatch huser.symm.trans h.user), rfl⟩
    · dsimp only
      rw [onStore_bind, onStore_step]
      rcases hrate : o.retryAfterSec with e | _ | retryAfterSec
      · exact .inl ⟨fun _ _ _ h => (nomatch hrate.symm.trans h.rate), rfl⟩
      · dsimp only
        rcases hcreator : o.creator with e | _ | creatorId
        · exact .inl ⟨fun _ _ _ h => (nomatch hcreator.symm.trans h.creator), rfl⟩
        · exact .inl ⟨fun _ _ _ h => (nomatch hcreator.symm.trans h.creator), rfl⟩
        · cases htype : body.type with
          | none => exact .inl ⟨fun _ _ _ h => (nomatch htype.symm.trans h.type), rfl⟩
          | some type =>
            exact .inr ⟨userId, creatorId, type, ⟨henabled, huser, hrate, hcreator, htype⟩, rfl⟩
      · exact .inl ⟨fun _ _ _ h => (nomatch hrate.symm.trans h.rate), rfl⟩

theorem handler_store (o : Outcomes) (body : CreateMomentBody) (s : Store) :
    (createMomentHandler o body s).2 = (onStore (createMoment o body) s).2 := by
  unfold createMomentHandler
  rcases onStore (createMoment o body) s with ⟨response | e, t⟩ <;> rfl

theorem handler_error {e : Failure} (h : (onStore (createMoment o body) s).1 = .error e) :
    (createMomentHandler o body s).1.isError = true := by
  unfold createMomentHandler
  generalize onStore (createMoment o body) s = x at h
  obtain ⟨x, t⟩ := x
  obtain rfl : x = .error e := h
  exact isError_failureResponse e

theorem nothingLeft_refl (body : CreateMomentBody) (s : Store) : NothingLeft body s s where
  rows := s.moments.fresh
  session _ _ _ h := h

theorem admitted_unique {userId' creatorId' : String} {type' : MomentType}
    (h : Admitted o body userId creatorId type) (h' : Admitted o body userId' creatorId' type') :
    userId' = userId ∧ type' = type :=
  ⟨Option.some.inj (Except.ok.inj (h'.user.symm.trans h.user)),
    Option.some.inj (h'.type.symm.trans h.type)⟩

theorem leavesNothing_of_ends {x : Except Failure Response × Store} {P : Prop}
    (hx : onStore (createMoment o body) s = x)
    (h : Ends o s (withRow o s creatorId type body.caption) x P) : LeavesNothing o body s ↔ P := by
  have hstore := handler_store o body s
  rw [hx] at hstore
  unfold LeavesNothing
  rw [hstore]
  cases h with
  | kept hmoments hP =>
    apply iff_of_false _ hP
    intro hleaves
    have herror := handler_error (congrArg Prod.fst hx)
    exact not_nothingLeft hmoments (hleaves herror (not_savedReady hmoments))
  | deleted hmoments hsessions hP =>
    exact iff_of_true (fun _ _ => nothingLeft_of_deleteOne hmoments hsessions) hP
  | saved hsaved hP => exact iff_of_true (fun _ hnot => absurd hsaved hnot) hP

end Rows

/-- **A failed upload leaves nothing behind** exactly if its row is not created or all that follows
succeeds. -/
theorem leaves_nothing_iff (o : Outcomes) (body : CreateMomentBody) (s : Store) :
    LeavesNothing o body s ↔ Completes o body s := by
  rcases createMoment_cases o body s with ⟨hnone, hstore⟩ | ⟨userId, creatorId, type, h, hrun⟩
  · apply iff_of_true
    · intro _ _
      rw [handler_store, hstore]
      exact nothingLeft_refl body s
    · exact fun userId creatorId type h => absurd h (hnone userId creatorId type)
  · have hcompletes : Completes o body s ↔
        o.create = .lost ∨ (o.create = .done ∧ Uploads o body s userId type) := by
      constructor
      · exact fun hall => hall userId creatorId type h
      · intro hone userId' creatorId' type' h'
        obtain ⟨rfl, rfl⟩ := admitted_unique h h'
        exact hone
    rw [hcompletes]
    cases hcreate : o.create with
    | done =>
      rw [leavesNothing_of_ends hrun (uploads_ends o body s userId creatorId type hcreate)]
      simp
    | unanswered =>
      have hend : Ends o s (withRow o s creatorId type body.caption)
          (onStore (createMomentFor o body userId creatorId type) s) False := by
        unfold createMomentFor createRow
        rw [hcreate]
        exact .kept rfl id
      rw [leavesNothing_of_ends hrun hend]
      simp
    | lost =>
      apply iff_of_true _ (.inl rfl)
      intro _ _
      have hstore : (onStore (createMomentFor o body userId creatorId type) s).2 = s := by
        unfold createMomentFor createRow
        rw [hcreate]
        rfl
      rw [handler_store, hrun, hstore]
      exact nothingLeft_refl body s

/-! ### A thumbnail that is not there -/

/-- Every step goes well. -/
def allWell : Outcomes where
  momentsEnabled := true
  now := 1000
  user := .ok (some "u")
  retryAfterSec := .ok none
  creator := .ok (some "c")
  moderationStatus := .approved
  imageModerationPendingByDefault := false
  create := .done
  image _ := ⟨true, true, 0⟩
  metadata _ := .ok ⟨none, none⟩
  sniff _ := .ok "image/jpeg"
  deleteImage := .done
  stream _ := ⟨true, true, 1000, ⟨none, none⟩⟩
  deleteOne := .done
  save := .done
  bustCaches := .ok ()
  present := .ok ()

def videoStore : Store where
  moments := ⟨[], 0, fun _ hrow => absurd hrow List.not_mem_nil⟩
  images := .initial 0
  streams := ⟨Mongo.Unique.empty.insert
    ⟨['v', 's', '_', '1'], ['u'], ['f'], .moment, ['v'], .ready, none, 0, 0, 7200000⟩, [], 0⟩
  deletedImages := []

def thumbnailBody : CreateMomentBody := ⟨some .video, none, none, some "vs_1", some "s_1"⟩

theorem thumbnail_leaves_row : ¬LeavesNothing allWell thumbnailBody videoStore := by
  intro h
  have hrows : (createMomentHandler allWell thumbnailBody videoStore).2.moments.rows.map
      (fun row => (row.id, row.processingStatus)) = [(0, .uploading)] := by
    decide +kernel
  have herror : (createMomentHandler allWell thumbnailBody videoStore).1.isError = true := by
    decide +kernel
  have hstatus : ∀ row ∈ (createMomentHandler allWell thumbnailBody videoStore).2.moments.rows,
      row.processingStatus = .uploading := by
    intro row hrow
    have hmem := List.mem_map_of_mem (f := fun row => (row.id, row.processingStatus)) hrow
    rw [hrows] at hmem
    exact congrArg Prod.snd (List.mem_singleton.1 hmem)
  have hleft := h herror fun ⟨row, hrow, _, hready⟩ =>
    nomatch (hstatus row hrow).symm.trans hready
  have hne : (createMomentHandler allWell thumbnailBody videoStore).2.moments.rows ≠ [] := by
    intro hnil
    simp [hnil] at hrows
  obtain ⟨row, hrow⟩ := List.exists_mem_of_ne_nil _ hne
  exact Nat.not_lt_zero _ (hleft.rows row hrow)

end VibemeetBackend.MomentUpload
