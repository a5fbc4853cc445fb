import VibemeetBackend.Async.Protocol
import VibemeetBackend.Images.UploadSession

/-!
# Commit or cleanup

In every run in which no payload expires before its session is settled and no session is consumed that
a sweep has read, each session is consumed at most once and by its own user and purpose, the image of a
consumed session stays, and a session that is not consumed leaves the index only after a sweep has tried
to delete its image.
-/

namespace VibemeetBackend.Images

open Async Flow Redis Pool

/-! ### What the programs have seen -/

structure Progress where
  found : List (String × UploadSession)
  /-- The entries of the index that a sweep has listed. -/
  listed : List String
  held : List UploadSession
  /-- The entries that may leave the index. -/
  safe : List String

def Progress.begin : Progress := ⟨[], [], [], []⟩

def Progress.Permits (φ : Progress) : UploadCmd → Prop
  | .consume sessionId userId purpose =>
    ∃ x, (sessionId, x) ∈ φ.found ∧ x.userId = userId ∧ x.purpose = purpose
  | .zrem sessionId => sessionId ∈ φ.safe
  | .getAll ids => ∀ id ∈ ids, id ∈ φ.listed
  | .deleteImage session => session ∈ φ.held
  | _ => True

def Progress.next (φ : Progress) (c : UploadCmd) (r : Reply) (s : UploadStore) : Progress :=
  match c with
  | .get sessionId =>
    { φ with
      found := φ.found ++ ((s.later r).payload sessionId).toList.map fun x => (sessionId, x) }
  | .consume sessionId _ _ =>
    { φ with safe := φ.safe ++ if r.delivered = true then [sessionId] else [] }
  | .zrangebyscore max limit =>
    { φ with listed := φ.listed ++ (s.later r).index.rangeByScore (s.later r).now max limit }
  | .getAll ids =>
    if r.delivered = true then
      { φ with
        held := φ.held ++ (s.later r).payloads ids
        safe := φ.safe ++ ids.filter fun id => ((s.later r).payload id).isNone }
    else φ
  | .deleteImage session => { φ with safe := φ.safe ++ [session.sessionId] }
  | _ => φ

abbrev UploadFollows {α : Type} (φ : Progress) (f : UploadFlow α) (Q : α → Progress → Prop) : Prop :=
  Follows (guarded Progress.Permits Progress.next) φ f Q fun _ _ => True

variable {α : Type} {φ : Progress} {Q : α → Progress → Prop} {c : UploadCmd} {r : Reply}
  {s : UploadStore}

theorem ask_follows (c : UploadCmd) {f : UploadStore → UploadFlow α} (hc : φ.Permits c)
    (h : ∀ r s, r.delivered = true → UploadFollows (φ.next c r s) (f (s.later r)) Q) :
    UploadFollows φ (ask c >>= f) Q := by
  apply follows_bind
  apply follows_guarded_bind hc fun _ _ => trivial
  intro r s hok
  exact follows_pure (h r s (Bool.and_eq_true_iff.1 hok).1)

theorem create_follows (sessionId : String) (input : CreateSessionInput) :
    UploadFollows φ (createSession sessionId input) fun _ _ => True := by
  apply ask_follows .clock trivial
  simp [Progress.Permits, ask]

variable {purpose : UploadPurpose} {userId : String}

theorem release_follows {session : UploadSession} {sessionId : String}
    (h : φ.Permits (.consume sessionId userId purpose)) :
    UploadFollows φ (releaseSession session sessionId userId purpose) fun _ _ => True := by
  apply ask_follows _ h
  intro r s hr
  apply ask_follows (.zrem sessionId)
  · show sessionId ∈ φ.safe ++ if r.delivered = true then [sessionId] else []
    simp [hr]
  · intro r' s' _
    exact follows_pure trivial

/-- **A commit** consumes what it has found to be its own. -/
theorem consume_follows (sessionId userId : String) (purpose : UploadPurpose) :
    UploadFollows φ (consumeSession sessionId userId purpose) fun _ _ => True := by
  have hget : UploadFollows φ (getSession sessionId) fun result φ' =>
      ∀ x, result = some x → (sessionId, x) ∈ φ'.found := by
    unfold getSession
    split
    · exact follows_pure nofun
    · apply ask_follows (.get sessionId) trivial
      intro r s _
      apply follows_pure
      intro x hx
      apply List.mem_append_right
      exact List.mem_map_of_mem (Option.mem_toList.2 hx)
  apply follows_bind
  apply Follows.mono hget _ fun _ _ _ => trivial
  intro result φ' hfound
  cases result with
  | none => exact follows_pure trivial
  | some session =>
    dsimp only
    split
    · exact follows_pure trivial
    · rename_i huser
      split
      · exact follows_pure trivial
      · rename_i hpurpose
        exact release_follows ⟨session, hfound session rfl, not_not.1 huser, not_not.1 hpurpose⟩

theorem collect_follows {found : String → Option UploadSession} (ids : List String)
    (hheld : ∀ id ∈ ids, ∀ x, found id = some x → x ∈ φ.held)
    (hsafe : ∀ id ∈ ids, found id = none → id ∈ φ.safe) :
    UploadFollows φ (collectSessions found ids) fun sessions φ' =>
      φ' = φ ∧ ∀ x ∈ sessions, x ∈ φ.held := by
  induction ids with
  | nil => exact follows_pure ⟨rfl, nofun⟩
  | cons id ids ih =>
    have hrest := ih (fun i hi => hheld i (List.mem_cons_of_mem _ hi))
      fun i hi => hsafe i (List.mem_cons_of_mem _ hi)
    unfold collectSessions
    split
    · simp_all
    · rename_i hnone
      apply ask_follows (.zrem id) (hsafe id List.mem_cons_self hnone)
      intro r s _
      exact hrest

variable {id : String}

theorem getAll_tells {ids : List String} (hr : r.delivered = true) (hid : id ∈ ids) :
    (∀ x, (s.later r).payload id = some x → x ∈ (φ.next (.getAll ids) r s).held) ∧
      ((s.later r).payload id = none → id ∈ (φ.next (.getAll ids) r s).safe) := by
  have hnext : φ.next (.getAll ids) r s = { φ with
      held := φ.held ++ (s.later r).payloads ids
      safe := φ.safe ++ ids.filter fun id => ((s.later r).payload id).isNone } := if_pos hr
  rw [hnext]
  constructor
  · intro x hx
    exact List.mem_append_right _ (List.mem_filterMap.2 ⟨id, hid, hx⟩)
  · intro hnone
    apply List.mem_append_right
    exact List.mem_filter.2 ⟨hid, Option.isNone_iff_eq_none.2 hnone⟩

theorem list_follows (limit : ℕ) :
    UploadFollows φ (listExpiredSessions limit) fun sessions φ' => ∀ x ∈ sessions, x ∈ φ'.held := by
  apply ask_follows .clock trivial
  intro r s _
  apply ask_follows (.zrangebyscore _ _) trivial
  intro r' s' _
  split
  · exact follows_pure nofun
  · rename_i id ids hids
    apply ask_follows (.getAll _)
    · intro i hi
      rw [← hids] at hi
      exact List.mem_append_right _ hi
    · intro r'' s'' hr
      apply Follows.mono (collect_follows (id :: ids) _ _) _ fun _ _ _ => trivial
      · exact fun i hi => (getAll_tells hr hi).1
      · exact fun i hi => (getAll_tells hr hi).2
      · rintro sessions φ' ⟨rfl, hsessions⟩
        exact hsessions

theorem sweepSessions_follows (expired : List UploadSession) (h : ∀ x ∈ expired, x ∈ φ.held) :
    UploadFollows φ (sweepSessions expired) fun _ _ => True := by
  induction expired generalizing φ with
  | nil => exact follows_pure trivial
  | cons session expired ih =>
    apply follows_bind
    have htried : Follows (guarded Progress.Permits Progress.next) φ
        (attempt (ask (.deleteImage session)))
        (fun _ φ' => φ'.held = φ.held ∧ session.sessionId ∈ φ'.safe) fun _ _ => True := by
      have hnext : ∀ r s, (φ.next (.deleteImage session) r s).held = φ.held ∧
          session.sessionId ∈ (φ.next (.deleteImage session) r s).safe :=
        fun _ _ => ⟨rfl, List.mem_concat_self⟩
      simp [Progress.Permits, ask, h, hnext]
    apply Follows.mono htried _ fun _ _ _ => trivial
    rintro result φ' ⟨hheld, hsafe⟩
    apply follows_bind
    apply ask_follows (.zrem session.sessionId) hsafe
    intro r s _
    apply ask_follows (.del session.sessionId) trivial
    intro r' s' _
    apply follows_pure
    apply ih
    intro x hx
    show x ∈ φ'.held
    rw [hheld]
    exact h x (List.mem_cons_of_mem _ hx)

theorem request_follows (q : UploadRequest) :
    (uploadProgram q).Follows (guarded Progress.Permits Progress.next) .begin
      fun _ _ => True := by
  cases q with
  | create sessionId input => exact Follows.run (create_follows sessionId input)
  | consume sessionId userId purpose => exact Follows.run (consume_follows sessionId userId purpose)
  | sweep batchSize =>
    apply Follows.run
    apply follows_bind
    apply Follows.mono (list_follows (readBatchSize batchSize)) _ fun _ _ _ => trivial
    exact fun expired φ' h => sweepSessions_follows expired h

/-! ### The law of a store -/

def UploadStore.Consumed (s : UploadStore) (x : UploadSession) : Prop :=
  ∃ y ∈ s.consumed, y.session = x

def UploadStore.Settled (s : UploadStore) (x : UploadSession) : Prop := s.Consumed x ∨ x ∈ s.tried

def UploadStore.Indexed (s : UploadStore) (sessionId : String) : Prop :=
  (s.index.score s.now sessionId).isSome = true

structure UploadStore.Lawful (s : UploadStore) : Prop where
  once : (s.consumed.map fun x => x.session.sessionId).Nodup
  own : ∀ x ∈ s.consumed,
    x.session ∈ s.created ∧ x.session.userId = x.userId ∧ x.session.purpose = x.purpose
  stays : ∀ x ∈ s.consumed, x.session.imageId ∉ s.deleted
  cleaned : ∀ x ∈ s.created, s.Indexed x.sessionId ∨ s.Settled x

structure UploadStore.Inv (s : UploadStore) : Prop where
  distinct : ∀ x ∈ s.created, ∀ y ∈ s.created,
    x.sessionId = y.sessionId ∨ x.imageId = y.imageId → x = y
  unexpiring : s.index.expireAt = none
  payloads : ∀ id e, s.sessions id = some e →
    e.value ∈ s.created ∧ e.value.sessionId = id ∧ ¬ s.Consumed e.value
  once : (s.consumed.map Consumption.session).Nodup
  own : ∀ x ∈ s.consumed,
    x.session ∈ s.created ∧ x.session.userId = x.userId ∧ x.session.purpose = x.purpose
  read : ∀ x ∈ s.read, x ∈ s.created ∧ ¬ s.Consumed x
  tried : ∀ x ∈ s.tried, x ∈ s.read
  deleted : ∀ i ∈ s.deleted, ∃ x ∈ s.tried, x.imageId = i
  indexed : ∀ id, s.Indexed id → ∃ x ∈ s.created, x.sessionId = id
  cleaned : ∀ x ∈ s.created, s.Indexed x.sessionId ∨ s.Settled x

theorem UploadStore.Inv.lawful (h : s.Inv) : s.Lawful where
  once := by
    have hmap : (s.consumed.map fun x => x.session.sessionId) =
        (s.consumed.map Consumption.session).map UploadSession.sessionId := List.map_map.symm
    rw [hmap]
    apply List.Nodup.map_on _ h.once
    intro x hx y hy hid
    obtain ⟨x', hx', rfl⟩ := List.mem_map.1 hx
    obtain ⟨y', hy', rfl⟩ := List.mem_map.1 hy
    exact h.distinct _ (h.own x' hx').1 _ (h.own y' hy').1 (.inl hid)
  own := h.own
  stays := by
    intro x hx hdeleted
    obtain ⟨y, hy, himage⟩ := h.deleted _ hdeleted
    obtain ⟨hcreated, hunconsumed⟩ := h.read y (h.tried y hy)
    obtain rfl := h.distinct _ (h.own x hx).1 y hcreated (.inr himage.symm)
    exact hunconsumed ⟨x, hx, rfl⟩
  cleaned := h.cleaned

variable {x : UploadSession}

theorem UploadStore.Inv.payload (h : s.Inv) (hx : s.payload id = some x) :
    x ∈ s.created ∧ x.sessionId = id ∧ ¬ s.Consumed x := by
  obtain ⟨e, he, rfl⟩ := Option.map_eq_some_iff.1 hx
  exact h.payloads id e (Keys.find_eq_some.1 he).1

theorem UploadStore.Inv.later (h : s.Inv) (r : Reply) : (s.later r).Inv :=
  { h with
    indexed := fun id hid => h.indexed id (by
      unfold UploadStore.Indexed at hid ⊢
      rw [Key.score_of_unexpiring h.unexpiring s.now (s.later r).now]
      exact hid)
    cleaned := fun x hx => (h.cleaned x hx).imp_left fun hid => by
      unfold UploadStore.Indexed at hid ⊢
      have hsame : (s.later r).index.score (s.later r).now x.sessionId =
        s.index.score s.now x.sessionId := Key.score_of_unexpiring h.unexpiring _ _ _
      rw [hsame]
      exact hid }

/-! ### Commands -/

def UploadStore.New (s : UploadStore) (session : UploadSession) : Prop :=
  ∀ x ∈ s.created, x.sessionId ≠ session.sessionId ∧ x.imageId ≠ session.imageId

theorem create_inv {session : UploadSession} {ttl : ℕ} (h : s.Inv) (hnew : s.New session) :
    ((UploadCmd.create session ttl).effect s).Inv where
  distinct := by
    intro x hx y hy hxy
    rcases List.mem_append.1 hx with hold | hx
    · rcases List.mem_append.1 hy with hy | hy
      · exact h.distinct x hold y hy hxy
      · rw [List.mem_singleton.1 hy] at hxy
        exact absurd hxy (not_or.2 (hnew x hold))
    · rw [List.mem_singleton.1 hx] at hxy ⊢
      rcases List.mem_append.1 hy with hold | hy
      · exact absurd (hxy.imp Eq.symm Eq.symm) (not_or.2 (hnew y hold))
      · exact (List.mem_singleton.1 hy).symm
  unexpiring := Key.zadd_unexpiring h.unexpiring _ _ _
  payloads := by
    intro id e he
    by_cases hid : id = session.sessionId
    · obtain rfl := hid
      obtain rfl := Option.some.inj (Keys.write_self.symm.trans he)
      refine ⟨List.mem_concat_self, rfl, ?_⟩
      rintro ⟨y, hy, hsession⟩
      exact (hnew _ (h.own y hy).1).1 (congrArg UploadSession.sessionId hsession)
    · obtain ⟨hcreated, hkey⟩ := h.payloads id e ((Keys.write_of_ne hid).symm.trans he)
      exact ⟨List.mem_append_left _ hcreated, hkey⟩
  once := h.once
  own x hx := (h.own x hx).imp_left (List.mem_append_left _)
  read x hx := (h.read x hx).imp_left (List.mem_append_left _)
  tried := h.tried
  deleted := h.deleted
  indexed := by
    intro id hid
    unfold UploadStore.Indexed UploadCmd.effect at hid
    rw [Key.score_zadd] at hid
    split at hid
    · rename_i hkey
      exact ⟨session, List.mem_concat_self, hkey.symm⟩
    · obtain ⟨x, hx, hxid⟩ := h.indexed id hid
      exact ⟨x, List.mem_append_left _ hx, hxid⟩
  cleaned := by
    intro x hx
    unfold UploadStore.Indexed UploadCmd.effect
    rw [Key.score_zadd]
    split
    · exact .inl rfl
    · rename_i hkey
      rcases mem_snoc.1 hx with hx | rfl
      · exact h.cleaned x hx
      · exact absurd rfl hkey

theorem zrem_inv (h : s.Inv) (hsafe : ∃ x ∈ s.created, x.sessionId = id ∧ s.Settled x) :
    ((UploadCmd.zrem id).effect s).Inv :=
  { h with
    unexpiring := Key.zrem_unexpiring h.unexpiring _ _
    indexed := by
      intro i hi
      unfold UploadStore.Indexed UploadCmd.effect at hi
      rw [Key.score_zrem] at hi
      split at hi
      · cases hi
      · exact h.indexed i hi
    cleaned := by
      intro x hx
      unfold UploadStore.Indexed UploadCmd.effect
      rw [Key.score_zrem]
      split
      · rename_i hkey
        obtain ⟨y, hy, hyid, hsettled⟩ := hsafe
        obtain rfl := h.distinct x hx y hy (.inl (hkey.trans hyid.symm))
        exact .inr hsettled
      · exact h.cleaned x hx }

theorem del_inv (id : String) (h : s.Inv) : ((UploadCmd.del id).effect s).Inv :=
  { h with
    payloads := by
      intro i e he
      by_cases hi : i = id
      · obtain rfl := hi
        cases Keys.del_self.symm.trans he
      · exact h.payloads i e ((Keys.del_of_ne hi).symm.trans he) }

theorem getAll_inv (ids : List String) (h : s.Inv) : ((UploadCmd.getAll ids).effect s).Inv :=
  { h with
    read := by
      intro x hx
      rcases List.mem_append.1 hx with hx | hx
      · exact h.read x hx
      · obtain ⟨id, -, hpayload⟩ := List.mem_filterMap.1 hx
        obtain ⟨hcreated, -, hunconsumed⟩ := h.payload hpayload
        exact ⟨hcreated, hunconsumed⟩
    tried := fun x hx => List.mem_append_left _ (h.tried x hx) }

theorem consume_inv (h : s.Inv) (hx : s.payload id = some x) (huser : x.userId = userId)
    (hpurpose : x.purpose = purpose) (hunread : x ∉ s.read) :
    ((UploadCmd.consume id userId purpose).effect s).Inv := by
  obtain ⟨hcreated, hid, hunconsumed⟩ := h.payload hx
  have hconsumed : ((UploadCmd.consume id userId purpose).effect s).consumed =
      s.consumed ++ [⟨x, userId, purpose⟩] := by
    show s.consumed ++ ((s.payload id).map _).toList = _
    rw [hx]
    rfl
  have hnot : ∀ y, y ≠ x → ¬ s.Consumed y →
      ¬ ((UploadCmd.consume id userId purpose).effect s).Consumed y := by
    rintro y hne hy ⟨z, hz, rfl⟩
    rw [hconsumed] at hz
    rcases mem_snoc.1 hz with hz | rfl
    · exact hy ⟨z, hz, rfl⟩
    · exact hne rfl
  exact
    { h with
      payloads := by
        intro i e he
        by_cases hi : i = id
        · obtain rfl := hi
          cases Keys.del_self.symm.trans he
        · obtain ⟨hmem, hkey, hfree⟩ := h.payloads i e ((Keys.del_of_ne hi).symm.trans he)
          refine ⟨hmem, hkey, hnot _ ?_ hfree⟩
          rintro rfl
          exact hi (hkey.symm.trans hid)
      once := by
        rw [hconsumed, List.map_append]
        apply List.Nodup.append h.once (List.nodup_singleton _)
        intro y hy hy'
        obtain rfl := List.mem_singleton.1 hy'
        obtain ⟨z, hz, hsession⟩ := List.mem_map.1 hy
        exact hunconsumed ⟨z, hz, hsession⟩
      own := by
        intro y hy
        rw [hconsumed] at hy
        rcases mem_snoc.1 hy with hy | rfl
        · exact h.own y hy
        · exact ⟨hcreated, huser, hpurpose⟩
      read := by
        intro y hy
        obtain ⟨hmem, hfree⟩ := h.read y hy
        refine ⟨hmem, hnot y ?_ hfree⟩
        rintro rfl
        exact hunread hy
      cleaned := fun y hy => (h.cleaned y hy).imp_right fun hsettled => hsettled.imp_left
        fun ⟨z, hz, hsession⟩ => ⟨z, List.mem_append_left _ hz, hsession⟩ }

theorem consume_nothing (hnone : s.payload id = none) :
    (UploadCmd.consume id userId purpose).effect s = (UploadCmd.del id).effect s := by
  show { s with
    sessions := s.sessions.del id
    consumed := s.consumed ++ ((s.payload id).map fun x => ⟨x, userId, purpose⟩).toList } =
      ({ s with sessions := s.sessions.del id } : UploadStore)
  rw [hnone, Option.map_none, Option.toList_none, List.append_nil]

theorem deleteImage_inv (h : s.Inv) (hread : x ∈ s.read) (r : Reply) :
    ((UploadCmd.deleteImage x).exec r s).Inv :=
  { h.later r with
    tried := forall_snoc h.tried hread
    deleted := by
      intro i hi
      rcases List.mem_append.1 hi with hi | hi
      · obtain ⟨y, hy, himage⟩ := h.deleted i hi
        exact ⟨y, List.mem_append_left _ hy, himage⟩
      · split at hi
        · obtain rfl := List.mem_singleton.1 hi
          exact ⟨x, List.mem_concat_self, rfl⟩
        · cases hi
    cleaned := fun y hy => ((h.later r).cleaned y hy).imp_right fun hsettled =>
      hsettled.imp_right (List.mem_append_left _) }

/-! ### Runs -/

def NewIds (e : Event UploadCmd Reply UploadStore) : Prop :=
  match e.cmd with
  | .create session _ => e.before.New session
  | _ => True

/-- The `DEL` of a commit finds a payload that no sweep has read, or one that is gone because the
session is settled; and so is every session whose payload the reads of a sweep do not find. -/
def Sound (e : Event UploadCmd Reply UploadStore) : Prop :=
  match e.cmd with
  | .consume sessionId _ _ => e.ans.delivered = true →
    (∀ x ∈ (e.before.later e.ans).payload sessionId, x ∉ e.before.read) ∧
      ((e.before.later e.ans).payload sessionId = none →
        ∀ x ∈ e.before.created, x.sessionId = sessionId → e.before.Settled x)
  | .getAll ids => e.ans.delivered = true →
    ∀ x ∈ e.before.created, x.sessionId ∈ ids →
      (e.before.later e.ans).payload x.sessionId = none → e.before.Settled x
  | _ => True

structure UploadStore.Grows (s s' : UploadStore) : Prop where
  created : ∀ x ∈ s.created, x ∈ s'.created
  read : ∀ x ∈ s.read, x ∈ s'.read
  settled : ∀ x, s.Settled x → s'.Settled x

theorem exec_grows (c : UploadCmd) (r : Reply) (s : UploadStore) : s.Grows (c.exec r s) := by
  have heffect : ∀ s : UploadStore, s.Grows (c.effect s) := by
    intro s
    cases c with
    | create session ttl => exact ⟨fun _ => List.mem_append_left _, fun _ h => h, fun _ h => h⟩
    | consume id userId purpose =>
      refine ⟨fun _ h => h, fun _ h => h, fun x hx => hx.imp_left ?_⟩
      exact fun ⟨y, hy, hsession⟩ => ⟨y, List.mem_append_left _ hy, hsession⟩
    | getAll ids => exact ⟨fun _ h => h, fun _ => List.mem_append_left _, fun _ h => h⟩
    | _ => exact ⟨fun _ h => h, fun _ h => h, fun _ h => h⟩
  have hlater : s.Grows (s.later r) := ⟨fun _ h => h, fun _ h => h, fun _ h => h⟩
  unfold UploadCmd.exec
  split
  · exact ⟨fun _ h => h, fun _ h => h, fun _ h => h.imp_right (List.mem_append_left _)⟩
  · split
    · obtain ⟨hcreated, hread, hsettled⟩ := heffect (s.later r)
      exact ⟨hcreated, hread, hsettled⟩
    · exact hlater

structure Progress.Known (φ : Progress) (s : UploadStore) : Prop where
  found : ∀ id x, (id, x) ∈ φ.found → x ∈ s.created ∧ x.sessionId = id
  listed : ∀ id ∈ φ.listed, ∃ x ∈ s.created, x.sessionId = id
  held : ∀ x ∈ φ.held, x ∈ s.read
  safe : ∀ id ∈ φ.safe, ∃ x ∈ s.created, x.sessionId = id ∧ s.Settled x

theorem Progress.Known.grow {s' : UploadStore} (h : φ.Known s) (hgrows : s.Grows s') :
    φ.Known s' where
  found id x hx := (h.found id x hx).imp_left (hgrows.created x)
  listed id hid := by
    obtain ⟨x, hx, hkey⟩ := h.listed id hid
    exact ⟨x, hgrows.created x hx, hkey⟩
  held x hx := hgrows.read x (h.held x hx)
  safe id hid := by
    obtain ⟨x, hx, hkey, hsettled⟩ := h.safe id hid
    exact ⟨x, hgrows.created x hx, hkey, hgrows.settled x hsettled⟩

theorem consume_settles (hinv : s.Inv) (hr : r.delivered = true) (hx : x ∈ s.created)
    (hid : x.sessionId = id)
    (hsound : Sound ⟨s, .consume id userId purpose, r, (UploadCmd.consume id userId purpose).exec r s⟩) :
    ((UploadCmd.consume id userId purpose).exec r s).Settled x := by
  have hexec : (UploadCmd.consume id userId purpose).exec r s =
      (UploadCmd.consume id userId purpose).effect (s.later r) := if_pos hr
  cases hpayload : (s.later r).payload id with
  | none => exact (exec_grows _ r s).settled x ((hsound hr).2 hpayload x hx hid)
  | some y =>
    obtain ⟨hcreated, hkey, -⟩ := (hinv.later r).payload hpayload
    obtain rfl := hinv.distinct x hx y hcreated (.inl (hid.trans hkey.symm))
    rw [hexec]
    refine .inl ⟨⟨x, userId, purpose⟩, List.mem_append_right _ ?_, rfl⟩
    rw [hpayload]
    exact List.mem_cons_self

theorem getAll_settles {ids : List String} (hknown : φ.Known s)
    (hpermits : φ.Permits (.getAll ids)) (hr : r.delivered = true)
    (hsound : Sound ⟨s, .getAll ids, r, (UploadCmd.getAll ids).exec r s⟩) (hid : id ∈ ids)
    (hnone : (s.later r).payload id = none) : ∃ x ∈ s.created, x.sessionId = id ∧ s.Settled x := by
  obtain ⟨x, hx, rfl⟩ := hknown.listed id (hpermits id hid)
  exact ⟨x, hx, rfl, hsound hr x hx hid hnone⟩

/-- **What a program sees is so**, after a command at a sound event. -/
theorem known_next (hinv : s.Inv) (hknown : φ.Known s) (hpermits : φ.Permits c)
    (hsound : Sound ⟨s, c, r, c.exec r s⟩) : (φ.next c r s).Known (c.exec r s) := by
  have hgrows := exec_grows c r s
  have hsame : φ.Known (c.exec r s) := hknown.grow hgrows
  have hlater := hinv.later r
  cases c with
  | get id =>
    refine { hsame with found := fun i x hx => ?_ }
    rcases List.mem_append.1 hx with hx | hx
    · exact hsame.found i x hx
    · obtain ⟨y, hy, heq⟩ := List.mem_map.1 hx
      obtain ⟨rfl, rfl⟩ := Prod.mk.inj heq
      obtain ⟨hcreated, hkey, -⟩ := hlater.payload (Option.mem_toList.1 hy)
      exact ⟨hgrows.created y hcreated, hkey⟩
  | consume id userId purpose =>
    refine { hsame with safe := fun i hi => ?_ }
    rcases List.mem_append.1 hi with hi | hi
    · exact hsame.safe i hi
    · split at hi
      · rename_i hr
        obtain rfl := List.mem_singleton.1 hi
        obtain ⟨x, hx, huser, hpurpose⟩ := hpermits
        obtain ⟨hcreated, hkey⟩ := hknown.found i x hx
        exact ⟨x, hgrows.created x hcreated, hkey, consume_settles hinv hr hcreated hkey hsound⟩
      · cases hi
  | zrangebyscore max limit =>
    refine { hsame with listed := fun i hi => ?_ }
    rcases List.mem_append.1 hi with hi | hi
    · exact hsame.listed i hi
    · obtain ⟨score, hscore, -⟩ := Key.score_of_mem_rangeByScore hi
      obtain ⟨x, hx, hkey⟩ := hlater.indexed i (Option.isSome_of_eq_some hscore)
      exact ⟨x, hgrows.created x hx, hkey⟩
  | getAll ids =>
    show Progress.Known (if r.delivered = true then _ else φ) _
    split
    · rename_i hr
      have hexec : (UploadCmd.getAll ids).exec r s = (UploadCmd.getAll ids).effect (s.later r) :=
        if_pos hr
      refine { hsame with held := fun x hx => ?_, safe := fun i hi => ?_ }
      · rcases List.mem_append.1 hx with hx | hx
        · exact hsame.held x hx
        · rw [hexec]
          exact List.mem_append_right _ hx
      · rcases List.mem_append.1 hi with hi | hi
        · exact hsame.safe i hi
        · obtain ⟨hmem, hnone⟩ := List.mem_filter.1 hi
          obtain ⟨x, hx, hkey, hsettled⟩ := getAll_settles hknown hpermits hr hsound hmem
            (Option.isNone_iff_eq_none.1 hnone)
          exact ⟨x, hgrows.created x hx, hkey, hgrows.settled x hsettled⟩
    · exact hsame
  | deleteImage x =>
    refine { hsame with safe := fun i hi => ?_ }
    rcases mem_snoc.1 hi with hi | rfl
    · exact hsame.safe i hi
    · obtain ⟨hcreated, -⟩ := hinv.read x (hknown.held x hpermits)
      exact ⟨x, hcreated, rfl, .inr (List.mem_append_right _ List.mem_cons_self)⟩
  | _ => exact hsame

/-- **A command keeps the invariant** at a sound event. -/
theorem exec_inv (hinv : s.Inv) (hknown : φ.Known s) (hpermits : φ.Permits c)
    (hnew : NewIds ⟨s, c, r, c.exec r s⟩) (hsound : Sound ⟨s, c, r, c.exec r s⟩) :
    (c.exec r s).Inv := by
  have hlater := hinv.later r
  cases hr : r.delivered with
  | false =>
    cases c with
    | deleteImage x => exact deleteImage_inv hinv (hknown.held x hpermits) r
    | _ =>
      unfold UploadCmd.exec
      dsimp only
      rw [hr]
      exact hlater
  | true =>
    have heffect : (∀ x, c ≠ .deleteImage x) → (c.effect (s.later r)).Inv → (c.exec r s).Inv := by
      simp_all [UploadCmd.exec]
    cases c with
    | deleteImage x => exact deleteImage_inv hinv (hknown.held x hpermits) r
    | create session ttl => exact heffect nofun (create_inv hlater hnew)
    | zrem id => exact heffect nofun (zrem_inv hlater (hknown.safe id hpermits))
    | del id => exact heffect nofun (del_inv id hlater)
    | getAll ids => exact heffect nofun (getAll_inv ids hlater)
    | consume id userId purpose =>
      apply heffect nofun
      cases hpayload : (s.later r).payload id with
      | none =>
        rw [consume_nothing hpayload]
        exact del_inv id hlater
      | some y =>
        obtain ⟨x, hx, huser, hpurpose⟩ := hpermits
        obtain ⟨hcreated, hkey⟩ := hknown.found id x hx
        obtain ⟨hcreated', hkey', -⟩ := hlater.payload hpayload
        obtain rfl := hinv.distinct x hcreated y hcreated' (.inl (hkey.trans hkey'.symm))
        exact consume_inv hlater hpayload huser hpurpose ((hsound hr).1 x hpayload)
    | _ => exact heffect nofun hlater

structure UploadInv (φs : List Progress) (l : List (Event UploadCmd Reply UploadStore))
    (s : UploadStore) : Prop where
  known : ∀ φ ∈ φs, φ.Known s
  inv : s.Inv
  log : ∀ e ∈ l, e.after.Lawful

theorem uploadInv_start (now : ℕ) : UploadInv [] [] (.initial now) := by
  constructor
  · exact fun φ hφ => absurd hφ List.not_mem_nil
  · constructor
    · exact fun x hx => absurd hx List.not_mem_nil
    · rfl
    · intro id e he
      cases he
    · exact List.nodup_nil
    · exact fun x hx => absurd hx List.not_mem_nil
    · exact fun x hx => absurd hx List.not_mem_nil
    · exact fun x hx => absurd hx List.not_mem_nil
    · exact fun x hx => absurd hx List.not_mem_nil
    · intro id hid
      cases hid
    · exact fun x hx => absurd hx List.not_mem_nil
  · exact fun e he => absurd he List.not_mem_nil

variable {l : List (Event UploadCmd Reply UploadStore)}

theorem uploadInv_spawn {φs : List Progress} (h : UploadInv φs l s) :
    UploadInv (φs ++ [.begin]) l s := by
  refine { h with known := fun φ hφ => ?_ }
  rcases mem_snoc.1 hφ with hφ | rfl
  · exact h.known φ hφ
  · exact ⟨nofun, nofun, nofun, nofun⟩

theorem uploadInv_step {φs : List Progress} {i : ℕ} (h : UploadInv φs l s) (hi : φs[i]? = some φ)
    (hpermits : φ.Permits c) (hnew : NewIds ⟨s, c, r, c.exec r s⟩)
    (hsound : Sound ⟨s, c, r, c.exec r s⟩) :
    UploadInv (φs.set i (φ.next c r s)) (l ++ [⟨s, c, r, c.exec r s⟩]) (c.exec r s) := by
  have hφ : φ.Known s := h.known φ (List.mem_of_getElem? hi)
  have hinv := exec_inv h.inv hφ hpermits hnew hsound
  refine ⟨?_, hinv, ?_⟩
  · apply forall_set
    · exact fun ψ hψ => (h.known ψ hψ).grow (exec_grows c r s)
    · exact known_next h.inv hφ hpermits hsound
  · exact forall_snoc h.log hinv.lawful

/-- **Upload sessions lead to a commit or a cleanup** in every run all of whose events are sound, when
no id and no image is given twice. -/
theorem sessions_settled (now : ℕ) (ms : List (Move UploadRequest Reply))
    (hnew : ∀ e ∈ ((start (.initial now)).play UploadCmd.exec uploadProgram ms).log, NewIds e)
    (hsound : ∀ e ∈ ((start (.initial now)).play UploadCmd.exec uploadProgram ms).log, Sound e) :
    ∀ e ∈ ((start (.initial now)).play UploadCmd.exec uploadProgram ms).log,
      e.after.Lawful := by
  have hrun := play_protocol UploadInv (fun e => NewIds e ∧ Sound e) request_follows
    (uploadInv_start now) (fun φs l t q h => uploadInv_spawn h)
    (fun φs l t i φ c r φ' h hi hδ hG => by
      obtain ⟨hpermits, rfl⟩ := guarded_eq_some hδ
      exact uploadInv_step h hi hpermits hG.1 hG.2)
    ms fun e he => ⟨hnew e he, hsound e he⟩
  obtain ⟨φs, -, hinv⟩ := hrun
  exact hinv.log

/-! ### A commit and a cleanup, and a sweep that comes after the expiry -/

instance (s : UploadStore) (x : UploadSession) : Decidable (s.Settled x) :=
  inferInstanceAs (Decidable ((∃ y ∈ s.consumed, y.session = x) ∨ x ∈ s.tried))

instance : DecidablePred NewIds
  | ⟨s, .create session _, _, _⟩ => inferInstanceAs (Decidable (∀ x ∈ s.created,
      x.sessionId ≠ session.sessionId ∧ x.imageId ≠ session.imageId))
  | ⟨_, .clock, _, _⟩ | ⟨_, .get _, _, _⟩ | ⟨_, .consume .., _, _⟩ | ⟨_, .zrem _, _, _⟩
  | ⟨_, .del _, _, _⟩ | ⟨_, .zrangebyscore .., _, _⟩ | ⟨_, .getAll _, _, _⟩
  | ⟨_, .deleteImage _, _, _⟩ => isTrue trivial

instance : DecidablePred Sound
  | ⟨s, .consume sessionId _ _, r, _⟩ => inferInstanceAs (Decidable (r.delivered = true →
      (∀ x ∈ (s.later r).payload sessionId, x ∉ s.read) ∧
        ((s.later r).payload sessionId = none →
          ∀ x ∈ s.created, x.sessionId = sessionId → s.Settled x)))
  | ⟨s, .getAll ids, r, _⟩ => inferInstanceAs (Decidable (r.delivered = true →
      ∀ x ∈ s.created, x.sessionId ∈ ids → (s.later r).payload x.sessionId = none → s.Settled x))
  | ⟨_, .clock, _, _⟩ | ⟨_, .get _, _, _⟩ | ⟨_, .create .., _, _⟩ | ⟨_, .zrem _, _, _⟩
  | ⟨_, .del _, _, _⟩ | ⟨_, .zrangebyscore .., _, _⟩ | ⟨_, .deleteImage _, _, _⟩ => isTrue trivial

def answer (waited : ℕ) : Reply := ⟨true, true, waited⟩

def avatar (userId imageId : String) : CreateSessionInput :=
  ⟨userId, .userAvatar, imageId, none, some 60⟩

/-- One session is consumed; the payload of another one outlives its score by 5 milliseconds, and a
sweep comes in between. -/
def settledMoves : List (Move UploadRequest Reply) :=
  [.spawn (.create "s_1" (avatar "u1" "i1")), .step 0 (answer 0), .step 0 (answer 0),
    .spawn (.consume "s_1" "u1" .userAvatar), .step 1 (answer 1), .step 1 (answer 1),
    .step 1 (answer 1),
    .spawn (.create "s_2" (avatar "u2" "i2")), .step 2 (answer 0), .step 2 (answer 5),
    .spawn (.sweep none), .step 3 (answer 59995), .step 3 (answer 1), .step 3 (answer 1),
    .step 3 (answer 1), .step 3 (answer 1), .step 3 (answer 1)]

theorem settledMoves_lawful :
    (∃ e ∈ ((start (.initial 0)).play UploadCmd.exec uploadProgram settledMoves).log,
      e.after.consumed.map (fun x => x.session.imageId) = ["i1"] ∧ e.after.deleted = ["i2"]) ∧
    ∀ e ∈ ((start (.initial 0)).play UploadCmd.exec uploadProgram settledMoves).log,
      e.after.Lawful :=
  ⟨by decide +kernel, sessions_settled 0 settledMoves (by decide +kernel) (by decide +kernel)⟩

/-- The sweep comes when the score is reached, and the payload has expired. -/
def expiredMoves : List (Move UploadRequest Reply) :=
  [.spawn (.create "s_1" (avatar "u1" "i1")), .step 0 (answer 0), .step 0 (answer 0),
    .spawn (.sweep none), .step 1 (answer 60000), .step 1 (answer 0), .step 1 (answer 0),
    .step 1 (answer 0)]

/-- The session leaves the index although nobody has tried to delete its image. -/
theorem expired_notCleaned :
    ¬ ∀ e ∈ ((start (.initial 0)).play UploadCmd.exec uploadProgram expiredMoves).log,
      e.after.Lawful := by
  have hlost : ∃ e ∈ ((start (.initial 0)).play UploadCmd.exec uploadProgram expiredMoves).log,
      ∃ x ∈ e.after.created, (e.after.index.score e.after.now x.sessionId).isSome = false ∧
        ¬ e.after.Settled x := by decide +kernel
  intro h
  obtain ⟨e, he, x, hx, hindex, hunsettled⟩ := hlost
  rcases (h e he).cleaned x hx with hindexed | hsettled
  · exact Bool.false_ne_true (hindex.symm.trans hindexed)
  · exact hunsettled hsettled

end VibemeetBackend.Images
