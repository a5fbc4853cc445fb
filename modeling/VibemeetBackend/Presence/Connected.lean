import VibemeetBackend.Presence.SocketRegistry

/-!
# Which sockets the registry holds

A version is a number within one stay of a socket in the hash: once the field is gone the numbers
start again, and the call that unregisters an early registration can carry the number of a late one.
-/

namespace VibemeetBackend.Presence

open Async

variable {socketId : String}

/-! ### What the scripts do to a field -/

section Keys

variable (env : RegistryEnv) (k : Keys)

@[simp] theorem hget_hset_self (socketId : String) (record : PresenceSocketRecord) :
    (k.hset env socketId record).hget socketId = some record :=
  AList.lookup_insert _

theorem hget_hset_ne {other : String} (record : PresenceSocketRecord) (h : other ≠ socketId) :
    (k.hset env socketId record).hget other = k.hget other :=
  AList.lookup_insert_ne h

theorem fields_hdel (socketId : String) :
    (k.hdel env socketId).fields = k.fields.erase socketId := by
  unfold Keys.hdel Keys.fields
  dsimp only
  split
  case isTrue h =>
    show ∅ = _
    apply AList.ext
    exact (List.map_eq_nil_iff.1 (List.length_eq_zero_iff.1 h)).symm
  case isFalse => rfl

@[simp] theorem hget_hdel_self (socketId : String) :
    (k.hdel env socketId).hget socketId = none := by
  show (k.hdel env socketId).fields.lookup socketId = none
  simp [fields_hdel]

theorem hget_hdel_ne {other : String} (h : other ≠ socketId) :
    (k.hdel env socketId).hget other = k.hget other := by
  show (k.hdel env socketId).fields.lookup other = k.fields.lookup other
  rw [fields_hdel]
  exact AList.lookup_erase_ne h

theorem hasAnySocket_iff : hasAnySocket k = true ↔ ∃ socketId, (k.hget socketId).isSome := by
  rw [hasAnySocket, decide_eq_true_iff, Keys.hlen, List.length_pos_iff_exists_mem]
  apply exists_congr
  intro socketId
  exact AList.mem_keys.symm.trans AList.lookup_isSome.symm

theorem unregisterSocket_removed {version : ℕ} {record : PresenceSocketRecord}
    (hr : k.hget socketId = some record) (hv : record.version = version) :
    unregisterSocket env k socketId version =
      (k.hdel env socketId, ⟨(k.hdel env socketId).hlen, true⟩) := by
  unfold unregisterSocket
  rw [hr]
  exact if_neg (not_not.2 hv)

theorem unregisterSocket_kept {version : ℕ}
    (h : ∀ record, k.hget socketId = some record → record.version ≠ version) :
    unregisterSocket env k socketId version = (k, ⟨k.hlen, false⟩) := by
  unfold unregisterSocket
  split
  case h_1 => rfl
  case h_2 record hr => exact if_pos (h record hr)

@[simp] theorem hget_renewHeartbeatLease (instanceId socketId : String) :
    (renewHeartbeatLease env k instanceId).hget socketId = k.hget socketId := by
  unfold renewHeartbeatLease Keys.hget Keys.fields
  split
  case isFalse => rfl
  case isTrue =>
    rcases k.sockets with _ | h
    · rfl
    · show AList.lookup socketId (SocketHash.fields (if _ then _ else _)) = _
      split <;> rfl

@[simp] theorem hget_tryAcquireHeartbeatLease (instanceId socketId : String) :
    (tryAcquireHeartbeatLease env k instanceId).hget socketId = k.hget socketId := by
  unfold tryAcquireHeartbeatLease
  split <;> rfl

theorem purge_sockets : k.purge.sockets = k.sockets ∨ k.purge.sockets = none := by
  unfold Keys.purge
  rcases k.sockets with _ | h
  · exact Or.inl rfl
  · rw [Option.filter_some]
    split
    · exact Or.inl rfl
    · exact Or.inr rfl

end Keys

/-! ### The history -/

namespace History

/-- The registrations are numbered in order, and nothing is recorded of later ones. -/
structure Numbered (h : History) : Prop where
  falls : h.registered.Pairwise fun r r' => r'.id < r.id
  below : ∀ r ∈ h.registered, r.id < h.registered.length
  unregistered : ∀ id ∈ h.unregistered, id < h.registered.length
  expired : h.expired ≤ h.registered.length

variable {h : History} {r r' l : Registration} {socketId : String}

theorem mem_of_latest (hl : h.latest socketId = some l) :
    l ∈ h.registered ∧ l.socketId = socketId := by
  apply And.intro (List.mem_of_find?_eq_some hl)
  simpa using List.find?_some (p := fun r : Registration => decide (r.socketId = socketId)) hl

theorem mem_of_find {id : ℕ} (hr : h.find id = some r) : r ∈ h.registered ∧ r.id = id := by
  apply And.intro (List.mem_of_find?_eq_some hr)
  simpa using List.find?_some (p := fun r : Registration => decide (r.id = id)) hr

theorem Numbered.le_latest (hn : h.Numbered) (hl : h.latest socketId = some l)
    (hr : r ∈ h.registered) (hs : r.socketId = socketId) : r.id ≤ l.id := by
  obtain ⟨-, newer, older, hsplit, hnew⟩ := List.find?_eq_some_iff_append.1 hl
  have hfalls := hn.falls
  rw [hsplit] at hr hfalls
  rcases List.mem_append.1 hr with hr | hr
  · have := hnew r hr
    simp [hs] at this
  · rcases List.mem_cons.1 hr with rfl | hr
    · exact le_rfl
    · exact ((List.pairwise_cons.1 (List.pairwise_append.1 hfalls).2.1).1 r hr).le

theorem Numbered.eq_of_id (hn : h.Numbered) (hr : r ∈ h.registered) (hr' : r' ∈ h.registered)
    (hid : r.id = r'.id) : r = r' := by
  by_contra hne
  have hids := List.Pairwise.forall_of_forall_of_flip (R := fun a b => a ≠ b → a.id ≠ b.id)
    (fun _ _ hself => absurd rfl hself) (hn.falls.imp fun hlt _ => hlt.ne')
    (hn.falls.imp fun hlt _ => hlt.ne)
  exact hids hr hr' hne hid

variable (h) in
@[simp] theorem latest_register_self (version : ℕ) :
    (h.register socketId version).latest socketId =
      some ⟨h.registered.length, socketId, version, h.nextRank socketId⟩ := by
  simp [register, latest]

theorem latest_register_ne {other : String} {version : ℕ} (hne : other ≠ socketId) :
    (h.register socketId version).latest other = h.latest other := by
  simp [register, latest, hne.symm]

theorem Numbered.register (hn : h.Numbered) (version : ℕ) :
    (h.register socketId version).Numbered where
  falls := List.pairwise_cons.2 ⟨hn.below, hn.falls⟩
  below := by
    intro r hr
    rcases List.mem_cons.1 hr with rfl | hr
    · exact Nat.lt_succ_self _
    · exact (hn.below r hr).trans (Nat.lt_succ_self _)
  unregistered id hid := (hn.unregistered id hid).trans (Nat.lt_succ_self _)
  expired := hn.expired.trans (Nat.le_succ _)

theorem Numbered.isOpen_new (hn : h.Numbered) (version : ℕ) :
    (h.register socketId version).IsOpen
      ⟨h.registered.length, socketId, version, h.nextRank socketId⟩ :=
  ⟨fun hmem => (hn.unregistered _ hmem).false, hn.expired⟩

theorem isOpen_unregister {id : ℕ} :
    IsOpen { h with unregistered := id :: h.unregistered } r ↔ r.id ≠ id ∧ h.IsOpen r := by
  show r.id ∉ id :: h.unregistered ∧ h.expired ≤ r.id ↔ _
  rw [List.mem_cons, not_or, and_assoc]
  rfl

theorem Numbered.unregister (hn : h.Numbered) (hr : r ∈ h.registered) :
    Numbered { h with unregistered := r.id :: h.unregistered } where
  falls := hn.falls
  below := hn.below
  unregistered := List.forall_mem_cons.2 ⟨hn.below r hr, hn.unregistered⟩
  expired := hn.expired

end History

/-! ### What the hash holds -/

open History

abbrev RegistryStep : Type := World × Event

def SocketsReported (w : World) : Prop :=
  ∀ socketId, (w.keys.hget socketId).isSome ↔ w.history.HasOpen socketId

def UserReported (w : World) : Prop :=
  hasAnySocket w.keys = true ↔ ∃ r ∈ w.history.registered, w.history.IsOpen r

theorem SocketsReported.user {w : World} (h : SocketsReported w) : UserReported w := by
  rw [UserReported, hasAnySocket_iff]
  constructor
  · rintro ⟨socketId, hs⟩
    obtain ⟨r, hr, -, ho⟩ := (h socketId).1 hs
    exact ⟨r, hr, ho⟩
  · rintro ⟨r, hr, ho⟩
    exact ⟨r.socketId, (h r.socketId).2 ⟨r, hr, rfl, ho⟩⟩

/-- An unregister whose socket has an open registration either carries the number of the last
registration of the socket, and the others are no longer open, or a number that the last one does
not have: the ranks, counted anew with each stay of the socket, have not met. -/
def Distinct (e : RegistryStep) : Prop :=
  match e.2 with
  | .unregister id =>
    ∀ r ∈ e.1.history.find id, e.1.history.HasOpen r.socketId →
      ∀ l ∈ e.1.history.latest r.socketId,
        (l.id = r.id → ∀ r' ∈ e.1.history.registered,
          r'.socketId = r.socketId → e.1.history.IsOpen r' → r'.id = r.id) ∧
        (l.id ≠ r.id → l.rank ≠ r.rank)
  | _ => True

def NoAba (env : RegistryEnv) (e : RegistryStep) : Prop :=
  ∀ id, e.2 = .unregister id → ∀ r ∈ e.1.history.find id,
    (e.1.unregisterResult env r).2.removed = true →
      ∀ r' ∈ e.1.history.registered, r'.socketId = r.socketId → r'.id ≤ r.id

structure Recorded (w : World) : Prop where
  numbered : w.history.Numbered
  ranked : ∀ r ∈ w.history.registered, r.version = r.rank ∧ 0 < r.rank
  /-- a field is the record of the last registration of its socket, which is open. -/
  held : ∀ socketId record, w.keys.hget socketId = some record →
    ∃ l, w.history.latest socketId = some l ∧ w.history.IsOpen l ∧ record.version = l.version
  kept : ∀ r ∈ w.history.registered, w.history.IsOpen r → (w.keys.hget r.socketId).isSome

namespace Recorded

variable {env : RegistryEnv} {w : World}

theorem start (now : ℤ) : Recorded (World.start now) where
  numbered := ⟨List.Pairwise.nil, fun _ hr => absurd hr List.not_mem_nil,
    fun _ hid => absurd hid List.not_mem_nil, le_rfl⟩
  ranked _ hr := nomatch hr
  held _ _ h := nomatch h
  kept _ hr := nomatch hr

theorem reported (h : Recorded w) : SocketsReported w := by
  intro socketId
  constructor
  · intro hs
    obtain ⟨record, hr⟩ := Option.isSome_iff_exists.1 hs
    obtain ⟨l, hl, ho, -⟩ := h.held socketId record hr
    exact ⟨l, (mem_of_latest hl).1, (mem_of_latest hl).2, ho⟩
  · rintro ⟨r, hr, rfl, ho⟩
    exact h.kept r hr ho

theorem version_eq_rank (h : Recorded w) (socketId : String) :
    nextVersion (w.keys.hget socketId) = w.history.nextRank socketId := by
  have hopen := h.reported socketId
  unfold nextRank nextVersion
  cases hr : w.keys.hget socketId with
  | none =>
    rw [hr] at hopen
    exact (if_neg fun ho => Bool.noConfusion (hopen.2 ho)).symm
  | some record =>
    rw [hr] at hopen
    obtain ⟨l, hl, -, hv⟩ := h.held socketId record hr
    rw [if_pos (hopen.1 rfl), hl]
    show record.version + 1 = l.rank + 1
    rw [hv, (h.ranked l (mem_of_latest hl).1).1]

theorem of_hget (h : Recorded w) {k : Keys} {n : ℕ}
    (hk : ∀ socketId, k.hget socketId = w.keys.hget socketId) :
    Recorded ⟨k, n, w.history⟩ where
  numbered := h.numbered
  ranked := h.ranked
  held socketId record hr := h.held socketId record ((hk socketId).symm.trans hr)
  kept r hr ho := (congrArg Option.isSome (hk r.socketId)).trans (h.kept r hr ho)

theorem register (h : Recorded w) (instanceId socketId : String) (role : PresenceSocketRole)
    (connectedAt : ℤ) : Recorded (w.next env (.register instanceId socketId role connectedAt)) where
  numbered := h.numbered.register _
  ranked := by
    intro r hr
    rcases List.mem_cons.1 hr with rfl | hr
    · apply And.intro (h.version_eq_rank socketId)
      show 0 < w.history.nextRank socketId
      unfold nextRank
      split <;> omega
    · exact h.ranked r hr
  held := by
    intro other record hr
    by_cases ho : other = socketId
    · subst ho
      have hrec := Option.some.inj ((hget_hset_self env w.keys other _).symm.trans hr)
      exact ⟨_, latest_register_self w.history _, h.numbered.isOpen_new _, hrec ▸ rfl⟩
    · have hr' := (hget_hset_ne env w.keys _ ho).symm.trans hr
      obtain ⟨l, hl, hopen⟩ := h.held other record hr'
      exact ⟨l, (latest_register_ne ho).trans hl, hopen⟩
  kept := by
    intro r hr ho
    show ((Keys.hset env w.keys socketId _).hget r.socketId).isSome
    by_cases hs : r.socketId = socketId
    · rw [hs, hget_hset_self]
      rfl
    · rw [hget_hset_ne env w.keys _ hs]
      rcases List.mem_cons.1 hr with rfl | hr
      · exact absurd rfl hs
      · exact h.kept r hr ho

theorem removed (h : Recorded w) {r : Registration} (hr : w.history.find r.id = some r)
    {record : PresenceSocketRecord} (hrec : w.keys.hget r.socketId = some record)
    (hv : record.version = r.version) (hd : Distinct (w, .unregister r.id)) :
    w.history.latest r.socketId = some r ∧ ∀ r' ∈ w.history.registered,
      r'.socketId = r.socketId → w.history.IsOpen r' → r'.id = r.id := by
  obtain ⟨l, hl, ho, hlv⟩ := h.held r.socketId record hrec
  obtain ⟨hmem, hs⟩ := mem_of_latest hl
  have hrm := (mem_of_find hr).1
  have hrank : l.rank = r.rank := by
    rw [← (h.ranked l hmem).1, ← (h.ranked r hrm).1, ← hlv, hv]
  have hd := hd r hr ⟨l, hmem, hs, ho⟩ l hl
  have hid : l.id = r.id := by
    by_contra hne
    exact hd.2 hne hrank
  rw [hl, h.numbered.eq_of_id hmem hrm hid]
  exact ⟨rfl, hd.1 hid⟩

theorem unregister (h : Recorded w) {id : ℕ} (hd : Distinct (w, .unregister id)) :
    Recorded (w.next env (.unregister id)) := by
  unfold World.next
  dsimp only
  split
  case h_1 => exact h
  case h_2 r hr =>
    obtain ⟨hrm, rfl⟩ := mem_of_find hr
    by_cases hfound : ∃ record, w.keys.hget r.socketId = some record ∧ record.version = r.version
    case pos =>
      obtain ⟨record, hrec, hv⟩ := hfound
      obtain ⟨hlatest, honly⟩ := h.removed hr hrec hv hd
      rw [World.unregisterResult, unregisterSocket_removed env w.keys hrec hv]
      constructor
      case numbered => exact h.numbered.unregister hrm
      case ranked => exact h.ranked
      case held =>
        intro socketId record' hrec'
        by_cases hs : socketId = r.socketId
        · subst hs
          exact nomatch (hget_hdel_self env w.keys _).symm.trans hrec'
        · obtain ⟨l, hl, ho, hlv⟩ :=
            h.held socketId record' ((hget_hdel_ne env w.keys hs).symm.trans hrec')
          have hne : l.id ≠ r.id := by
            intro hid
            have hlr := h.numbered.eq_of_id (mem_of_latest hl).1 hrm hid
            exact hs ((mem_of_latest hl).2.symm.trans (congrArg Registration.socketId hlr))
          exact ⟨l, hl, isOpen_unregister.2 ⟨hne, ho⟩, hlv⟩
      case kept =>
        intro r' hr' ho
        obtain ⟨hne, ho⟩ := isOpen_unregister.1 ho
        have hs : r'.socketId ≠ r.socketId := fun hs => hne (honly r' hr' hs ho)
        show ((w.keys.hdel env r.socketId).hget r'.socketId).isSome
        rw [hget_hdel_ne env w.keys hs]
        exact h.kept r' hr' ho
    case neg =>
      have hother : ∀ record, w.keys.hget r.socketId = some record → record.version ≠ r.version :=
        fun record hrec hv => hfound ⟨record, hrec, hv⟩
      rw [World.unregisterResult, unregisterSocket_kept env w.keys hother]
      constructor
      case numbered => exact h.numbered.unregister hrm
      case ranked => exact h.ranked
      case held =>
        intro socketId record hrec
        obtain ⟨l, hl, ho, hlv⟩ := h.held socketId record hrec
        have hne : l.id ≠ r.id := by
          intro hid
          have hlr := h.numbered.eq_of_id (mem_of_latest hl).1 hrm hid
          subst hlr
          exact hother record ((mem_of_latest hl).2 ▸ hrec) hlv
        exact ⟨l, hl, isOpen_unregister.2 ⟨hne, ho⟩, hlv⟩
      case kept =>
        intro r' hr' ho
        exact h.kept r' hr' (isOpen_unregister.1 ho).2

theorem unregisterUnknown (h : Recorded w) (socketId : String) :
    Recorded (w.next env (.unregisterUnknown socketId)) := by
  apply h.of_hget
  intro other
  rw [unregisterSocket_kept]
  intro record hrec
  obtain ⟨l, hl, -, hlv⟩ := h.held socketId record hrec
  have := h.ranked l (mem_of_latest hl).1
  omega

theorem pass (h : Recorded w) (ms : ℕ) : Recorded (w.next env (.pass ms)) := by
  unfold World.next
  dsimp only
  have hpurge := purge_sockets { w.keys with now := w.keys.now + ms }
  split
  case isTrue hgone =>
    have hnone : ∀ socketId, (Keys.purge { w.keys with now := w.keys.now + ms }).hget socketId =
        none := by
      intro socketId
      simp [Keys.hget, Keys.fields, hgone.2]
    constructor
    case numbered => exact ⟨h.numbered.falls, h.numbered.below, h.numbered.unregistered, le_rfl⟩
    case ranked => exact h.ranked
    case held =>
      intro socketId record hr
      exact nomatch (hnone socketId).symm.trans hr
    case kept =>
      intro r hr ho
      exact absurd ho.2 (not_le_of_gt (h.numbered.below r hr))
  case isFalse hkept =>
    have hsame : (Keys.purge { w.keys with now := w.keys.now + ms }).sockets = w.keys.sockets := by
      rcases hpurge with hsame | hgone
      · exact hsame
      · rw [hgone]
        by_contra hne
        exact hkept ⟨Option.isSome_iff_ne_none.2 fun h => hne h.symm, hgone⟩
    apply h.of_hget
    intro socketId
    unfold Keys.hget Keys.fields
    rw [hsame]

theorem next (h : Recorded w) (event : Event) (hd : Distinct (w, event)) :
    Recorded (w.next env event) := by
  cases event with
  | register instanceId socketId role connectedAt =>
    exact h.register instanceId socketId role connectedAt
  | unregister id => exact h.unregister hd
  | unregisterUnknown socketId => exact h.unregisterUnknown socketId
  | tryAcquireHeartbeatLease instanceId =>
    exact h.of_hget (hget_tryAcquireHeartbeatLease env w.keys instanceId)
  | renewHeartbeatLease instanceId =>
    exact h.of_hget (hget_renewHeartbeatLease env w.keys instanceId)
  | releaseRead instanceId =>
    unfold World.next
    dsimp only
    split
    · exact h.of_hget fun _ => rfl
    · exact h
  | releaseDelete =>
    unfold World.next
    dsimp only
    split
    · exact h
    · exact h.of_hget fun _ => rfl
  | pass ms => exact h.pass ms

theorem hget_latest (h : Recorded w) (ho : w.history.HasOpen socketId) {l : Registration}
    (hl : w.history.latest socketId = some l) :
    ∃ record, w.keys.hget socketId = some record ∧ record.version = l.version := by
  obtain ⟨record, hrec⟩ := Option.isSome_iff_exists.1 ((h.reported socketId).2 ho)
  obtain ⟨l', hl', -, hv⟩ := h.held socketId record hrec
  have hll := Option.mem_unique hl hl'
  exact ⟨record, hrec, hll ▸ hv⟩

theorem noAba (h : Recorded w) {event : Event} (hd : Distinct (w, event)) :
    NoAba env (w, event) := by
  rintro id rfl r hr hremoved r' hr' hs
  obtain ⟨hrm, rfl⟩ := mem_of_find hr
  have hfound : ∃ record, w.keys.hget r.socketId = some record ∧ record.version = r.version := by
    by_contra hfound
    have hkept := unregisterSocket_kept env w.keys fun record hrec hv =>
      hfound ⟨record, hrec, hv⟩
    rw [World.unregisterResult, hkept] at hremoved
    exact Bool.noConfusion hremoved
  obtain ⟨record, hrec, hv⟩ := hfound
  exact h.numbered.le_latest (h.removed hr hrec hv hd).1 hr' hs

theorem distinct_of_unregister (h : Recorded w) {id : ℕ}
    (ha : NoAba env (w, .unregister id))
    (hs : SocketsReported (w.next env (.unregister id))) : Distinct (w, .unregister id) := by
  intro r hr ho l hl
  obtain ⟨record, hrec, hv⟩ := h.hget_latest ho hl
  obtain ⟨hlm, hls⟩ := mem_of_latest hl
  obtain ⟨hrm, rfl⟩ := mem_of_find hr
  constructor
  · intro hid r' hr' hs' ho'
    by_contra hne
    have hlr := h.numbered.eq_of_id hlm hrm hid
    have hnext : w.next env (.unregister r.id) = { w with
        keys := w.keys.hdel env r.socketId
        history := { w.history with unregistered := r.id :: w.history.unregistered } } := by
      simp [World.next, World.unregisterResult, Option.mem_def.1 hr,
        unregisterSocket_removed env w.keys hrec (hlr ▸ hv)]
    have hreported := (hs r.socketId).2
    rw [hnext] at hreported
    have hgone := hreported ⟨r', hr', hs', isOpen_unregister.2 ⟨hne, ho'⟩⟩
    rw [hget_hdel_self] at hgone
    exact Bool.noConfusion hgone
  · intro hne hrank
    have hsame : record.version = r.version := by
      rw [hv, (h.ranked l hlm).1, (h.ranked r hrm).1, hrank]
    have hremoved : (w.unregisterResult env r).2.removed = true := by
      rw [World.unregisterResult, unregisterSocket_removed env w.keys hrec hsame]
    exact hne (le_antisymm (ha r.id rfl r hr hremoved l hlm hls)
      (h.numbered.le_latest hl hrm rfl))

theorem reported_iff (h : Recorded w) (event : Event) :
    (NoAba env (w, event) ∧ SocketsReported (w.next env event) ∧
      UserReported (w.next env event)) ↔ Distinct (w, event) := by
  constructor
  · rintro ⟨ha, hs, -⟩
    cases event with
    | unregister id => exact h.distinct_of_unregister ha hs
    | _ => trivial
  · intro hd
    have hnext : Recorded (w.next env event) := h.next event hd
    exact ⟨h.noAba hd, hnext.reported, hnext.reported.user⟩

end Recorded

/-- On every run, the steps that remove no later registration and leave the sockets reported as the
history has them are those that meet the condition. -/
theorem every_socket_reported_iff (env : RegistryEnv) (now : ℤ) (events : List Event) :
    (∀ e ∈ stepLog (World.next env) (World.start now) events,
      NoAba env e ∧ SocketsReported (e.1.next env e.2) ∧ UserReported (e.1.next env e.2)) ↔
    ∀ e ∈ stepLog (World.next env) (World.start now) events, Distinct e := by
  apply forall_trace_iff (I := Recorded)
  · exact Recorded.start now
  · intro w event h
    exact h.reported_iff event
  · intro w event h hd
    exact h.next event hd

def registeredTwice : World :=
  runFrom (World.next ⟨none, none, none⟩) (World.start 0)
    [.register "a" "socket" .user 0, .pass 210000, .register "a" "socket" .user 210000]

/-- Both registrations get the number 1, so the unregister of the first removes the second and the
user is reported as disconnected. -/
theorem late_unregister_removes :
    ¬ ∀ events, ∀ e ∈ stepLog (World.next ⟨none, none, none⟩) (World.start 0) events,
      NoAba ⟨none, none, none⟩ e ∧ UserReported (e.1.next ⟨none, none, none⟩ e.2) := by
  intro h
  have hlast := h [.register "a" "socket" .user 0, .pass 210000,
    .register "a" "socket" .user 210000, .unregister 0] (registeredTwice, .unregister 0)
    (by simp [stepLog, registeredTwice, runFrom])
  have hremoved : ∃ r ∈ registeredTwice.history.find 0,
      (registeredTwice.unregisterResult ⟨none, none, none⟩ r).2.removed = true ∧
        ∃ r' ∈ registeredTwice.history.registered, r'.socketId = r.socketId ∧ r.id < r'.id := by
    decide +kernel
  obtain ⟨r, hr, hremoved, r', hr', hs, hlt⟩ := hremoved
  exact absurd (hlast.1 0 rfl r hr hremoved r' hr' hs) (not_le_of_gt hlt)

end VibemeetBackend.Presence
