import VibemeetBackend.Vip.Hands

/-!
# First in, first out

Whole runs of callers who queue and leave, pops and sweeps, with the time passing between any two
commands, answers that are lost, and operations that stop for good anywhere.
-/

namespace VibemeetBackend.Vip

open Async
open Redis (Key)

/-! ### Who waits -/

namespace Store

def waits (s : Store) : List CallQueueEntry :=
  s.entries.rows.filter fun e => e.isWaiting && decide (s.now < e.expiresAt)

variable {s : Store} {e d : CallQueueEntry}

theorem mem_waits :
    e ∈ s.waits ↔ e ∈ s.entries.rows ∧ e.isWaiting = true ∧ s.now < e.expiresAt := by
  rw [waits, List.mem_filter, Bool.and_eq_true, decide_eq_true_eq]

theorem eq_of_waits (he : e ∈ s.waits) (hd : d ∈ s.waits) (h : e.pair = d.pair) : e = d := by
  obtain ⟨he, hwe, -⟩ := mem_waits.1 he
  obtain ⟨hd, hwd, -⟩ := mem_waits.1 hd
  exact Entries.eq_of_pair he hd hwe hwd h

theorem ringable_of_waits {date : ℤ} (he : e ∈ s.waits) (hdate : date ≤ s.now) :
    s.ringable e.pair date = some e := by
  obtain ⟨hmem, hw, hexpires⟩ := mem_waits.1 he
  cases hfound : s.ringable e.pair date with
  | none =>
    have hnone := List.find?_eq_none.1 hfound e hmem
    rw [hw, beq_self_eq_true, Bool.true_and, Bool.true_and, decide_eq_true_eq] at hnone
    omega
  | some d =>
    have hd := List.find?_some hfound
    rw [Bool.and_eq_true, Bool.and_eq_true, beq_iff_eq] at hd
    have heq := Entries.eq_of_pair (List.mem_of_find?_eq_some hfound) hmem hd.1.1 hw hd.1.2
    rw [heq]

theorem waits_of_ringable {pair : String × String} (h : s.ringable pair s.now = some e) :
    e ∈ s.waits ∧ e.pair = pair := by
  have he := List.find?_some h
  rw [Bool.and_eq_true, Bool.and_eq_true, beq_iff_eq, decide_eq_true_eq] at he
  exact ⟨mem_waits.2 ⟨List.mem_of_find?_eq_some h, he.1.1, he.2⟩, he.1.2⟩

theorem one_le_position {pair : String × String} (h : (s.score pair).isSome = true) :
    1 ≤ s.position pair := by
  obtain ⟨x, hx⟩ := Option.isSome_iff_exists.1 h
  have hx : (s.queue pair.1).score s.now pair.2 = some x := hx
  simp [position, Key.zrank, hx]

end Store

/-! ### What a command changes -/

variable {c : Cmd} {r : Reply} {s : Store} {e : CallQueueEntry} {pair : String × String}

theorem exec_lost (c : Cmd) (s : Store) (hr : r.delivered = false) : c.exec r s = s := if_pos hr

/-- Nobody begins to wait but by a `create`. -/
theorem waits_exec (h : e ∈ (c.exec r s).waits) :
    e ∈ s.waits ∨ ∃ u enqueuedAt expiresAt callId, r.delivered = true ∧
      c = .create e.pair u enqueuedAt expiresAt callId ∧ s.entries.findWaiting e.pair = none := by
  obtain ⟨hmem, hw, hexpires⟩ := Store.mem_waits.1 h
  unfold Cmd.exec at hmem hexpires
  split at hmem
  · rename_i hr
    rw [if_pos hr] at hexpires
    exact .inl (Store.mem_waits.2 ⟨hmem, hw, hexpires⟩)
  rename_i hr
  rw [if_neg hr] at hexpires
  rw [Bool.not_eq_false] at hr
  cases c with
  | clock | isVipActive | findWaiting | zrank | zrange | findStale | emit | zadd | expire | zrem =>
    exact .inl (Store.mem_waits.2 ⟨hmem, hw, hexpires⟩)
  | create pair u enqueuedAt expiresAt callId =>
    rcases Entries.mem_create hmem with hmem | ⟨hnone, rfl⟩
    · exact .inl (Store.mem_waits.2 ⟨hmem, hw, hexpires⟩)
    · exact .inr ⟨u, enqueuedAt, expiresAt, callId, hr, rfl, hnone⟩
  | cancel pair =>
    dsimp only at hmem
    exact .inl (Store.mem_waits.2 ⟨(Entries.mem_settle hmem hw).1, hw, hexpires⟩)
  | ring pair date =>
    dsimp only at hmem hexpires
    split at hmem
    · rename_i hfound
      rw [hfound] at hexpires
      dsimp only at hmem
      exact .inl (Store.mem_waits.2 ⟨(Entries.mem_settle hmem hw).1, hw, hexpires⟩)
    · rename_i hfound
      rw [hfound] at hexpires
      exact .inl (Store.mem_waits.2 ⟨hmem, hw, hexpires⟩)
  | expireStale date =>
    dsimp only at hmem
    exact .inl (Store.mem_waits.2 ⟨(Entries.mem_settle hmem hw).1, hw, hexpires⟩)
  | tick ms =>
    have hexpires : s.now + ms < e.expiresAt := hexpires
    exact .inl (Store.mem_waits.2 ⟨hmem, hw, by omega⟩)

theorem waits_cancel (hr : r.delivered = true) (h : e ∈ ((Cmd.cancel pair).exec r s).waits) :
    e.pair ≠ pair := by
  obtain ⟨hmem, hw, -⟩ := Store.mem_waits.1 h
  rw [Cmd.exec, if_neg (by rw [hr]; exact Bool.noConfusion)] at hmem
  dsimp only at hmem
  have hp := (Entries.mem_settle hmem hw).2
  rw [hw, Bool.true_and, beq_eq_false_iff_ne] at hp
  exact hp

theorem waits_ring {date : ℤ} (hr : r.delivered = true) (hdate : date ≤ s.now)
    (h : e ∈ ((Cmd.ring pair date).exec r s).waits) : e.pair ≠ pair := by
  rintro rfl
  rcases waits_exec h with he | ⟨_, _, _, _, -, hc, -⟩
  · have hfound := Store.ringable_of_waits he hdate
    obtain ⟨hmem, hw, -⟩ := Store.mem_waits.1 h
    rw [Cmd.exec, if_neg (by rw [hr]; exact Bool.noConfusion)] at hmem
    rw [hfound] at hmem
    dsimp only at hmem
    have hp := (Entries.mem_settle hmem hw).2
    rw [beq_self_eq_true] at hp
    cases hp
  · cases hc

theorem score_setQueue (s : Store) (creator : String) (k : Key String) (pair : String × String) :
    (s.setQueue creator k).score pair =
      if pair.1 = creator then k.score s.now pair.2 else s.score pair := by
  show (Function.update s.queue creator k pair.1).score s.now pair.2 = _
  by_cases h : pair.1 = creator
  · rw [if_pos h, h, Function.update_self]
  · rw [if_neg h, Function.update_of_ne h]
    rfl

theorem score_exec {x : ℤ} (h : (c.exec r s).score pair = some x) :
    s.score pair = some x ∨ (r.delivered = true ∧ c = .zadd pair x) := by
  cases hr : r.delivered with
  | false =>
    rw [exec_lost c s hr] at h
    exact .inl h
  | true =>
    unfold Cmd.exec at h
    rw [if_neg (by rw [hr]; exact Bool.noConfusion)] at h
    cases c with
    | clock | isVipActive | findWaiting | zrank | zrange | findStale | emit | create | cancel
      | expireStale => exact .inl h
    | ring pair date =>
      dsimp only at h
      split at h
      · exact .inl h
      · exact .inl h
    | zadd pair' score =>
      rw [score_setQueue, Key.score_zadd] at h
      split at h
      · rename_i hcreator
        split at h
        · rename_i hcaller
          cases h
          exact .inr ⟨rfl, by rw [Prod.ext hcreator hcaller]⟩
        · rw [← hcreator] at h
          exact .inl h
      · exact .inl h
    | zrem pair' =>
      rw [score_setQueue, Key.score_zrem] at h
      split at h
      · rename_i hcreator
        split at h
        · cases h
        · rw [← hcreator] at h
          exact .inl h
      · exact .inl h
    | expire creator ttl =>
      rw [score_setQueue] at h
      split at h
      · rename_i hcreator
        rw [← hcreator] at h
        exact .inl (Key.score_of_expire h)
      · exact .inl h
    | tick ms => exact .inl (Key.score_of_le (Int.le_add_of_nonneg_right (Int.natCast_nonneg ms)) h)

theorem score_zadd (hr : r.delivered = true) (x : ℤ) :
    ((Cmd.zadd pair x).exec r s).score pair = some x := by
  rw [Cmd.exec, if_neg (by rw [hr]; exact Bool.noConfusion)]
  simp [score_setQueue, Key.score_zadd]

/-- The commands that renew a key or let it run out. -/
def Cmd.ages : Cmd → Bool
  | .expire .. | .tick _ => true
  | _ => false

theorem score_kept (h : (s.score pair).isSome = true) :
    ((c.exec r s).score pair).isSome = true ∨ (r.delivered = true ∧ (c = .zrem pair ∨ c.ages = true)) := by
  cases hr : r.delivered with
  | false =>
    rw [exec_lost c s hr]
    exact .inl h
  | true =>
    unfold Cmd.exec
    rw [if_neg (by rw [hr]; exact Bool.noConfusion)]
    cases c with
    | clock | isVipActive | findWaiting | zrank | zrange | findStale | emit | create | cancel
      | expireStale => exact .inl h
    | ring pair date =>
      dsimp only
      split
      · exact .inl h
      · exact .inl h
    | zadd pair' score =>
      rw [score_setQueue, Key.score_zadd]
      split
      · rename_i hcreator
        split
        · exact .inl rfl
        · rw [← hcreator]
          exact .inl h
      · exact .inl h
    | zrem pair' =>
      rw [score_setQueue, Key.score_zrem]
      split
      · rename_i hcreator
        split
        · rename_i hcaller
          exact .inr ⟨rfl, .inl (by rw [Prod.ext hcreator hcaller])⟩
        · rw [← hcreator]
          exact .inl h
      · exact .inl h
    | expire | tick => exact .inr ⟨rfl, .inr rfl⟩

/-! ### Who is in hand -/

def InHand (φs : List Phase) (pair : String × String) : Prop := ∃ φ ∈ φs, φ.hand = some pair

variable {φ : Phase} {φs : List Phase} {i : ℕ}

theorem next_hand (hA : Allows φ c) (h : φ.hand = some pair) :
    (φ.next c r s).hand = some pair ∨ (r.delivered = true ∧
      ((∃ x, c = .zadd pair x) ∨ c = .cancel pair ∨
        ∃ date, c = .ring pair date ∧ φ.readAt = some date)) := by
  cases hr : r.delivered with
  | false =>
    rw [Phase.next, if_pos hr]
    exact .inl h
  | true =>
    rw [next_delivered hr]
    cases c with
    | clock | isVipActive | findWaiting | zrank | zrange | findStale | expire | expireStale | tick =>
      exact .inl h
    | emit _ event =>
      cases event with
      | queued | dequeued => exact .inl h
    | create pair' =>
      have hnone : φ.hand = none := hA
      simp [hnone] at h
    | zrem pair' =>
      have hnone : φ.hand = none := hA
      simp [hnone] at h
    | zadd pair' x =>
      obtain rfl := Option.mem_unique h hA
      exact .inr ⟨rfl, .inl ⟨x, rfl⟩⟩
    | cancel pair' =>
      obtain rfl := Option.mem_unique h hA
      exact .inr ⟨rfl, .inr (.inl rfl)⟩
    | ring pair' date =>
      obtain rfl := Option.some.inj (h.symm.trans hA.1)
      exact .inr ⟨rfl, .inr (.inr ⟨date, rfl, hA.2⟩)⟩

theorem released (hi : φs[i]? = some φ) (hA : Allows φ c)
    (hread : ∀ t, φ.readAt = some t → t ≤ s.now) (h : InHand φs pair) :
    InHand (φs.set i (φ.next c r s)) pair ∨ (r.delivered = true ∧ ∃ x, c = .zadd pair x) ∨
      ∀ e ∈ (c.exec r s).waits, e.pair ≠ pair := by
  obtain ⟨φ', hφ', hhand⟩ := h
  obtain ⟨j, hj⟩ := List.getElem?_of_mem hφ'
  by_cases hij : i = j
  · rw [hij, hj] at hi
    cases hi
    rcases next_hand (r := r) (s := s) hA hhand with hnext | ⟨hr, hzadd | rfl | ⟨date, rfl, hdate⟩⟩
    · refine .inl ⟨_, ?_, hnext⟩
      rw [hij]
      exact List.mem_set (List.getElem?_eq_some_iff.1 hj).1 _
    · exact .inr (.inl ⟨hr, hzadd⟩)
    · exact .inr (.inr fun e he => waits_cancel hr he)
    · exact .inr (.inr fun e he => waits_ring hr (hread date hdate) he)
  · refine .inl ⟨φ', ?_, hhand⟩
    apply List.mem_of_getElem? (i := j)
    rw [List.getElem?_set_ne hij]
    exact hj

/-! ### Conditions -/

/-- The score puts the caller behind those who wait and have older entries than his, and in front of
those who have newer ones. -/
def Store.Placed (s : Store) (pair : String × String) (score : ℤ) : Prop :=
  ∀ e ∈ s.waits, e.pair = pair → ∀ d ∈ s.waits, d.pair.1 = pair.1 → d.pair ≠ pair →
    ∀ x ∈ s.score d.pair,
      (Key.place x d.pair.2 < Key.place score pair.2 → d.enqueuedAt ≤ e.enqueuedAt) ∧
        (Key.place score pair.2 < Key.place x d.pair.2 → e.enqueuedAt ≤ d.enqueuedAt)

/-- What a step must find.  A sweep takes nobody out who waits, no key runs out with a member who
waits, and a score puts the caller where his entry belongs. -/
def Meets (x : Phase × Event Cmd Reply Store) : Prop :=
  x.2.ans.delivered = true →
    match x.2.cmd with
    | .zrem pair => x.1.q.sweeps = true → (x.2.before.score pair).isSome = true →
      ∀ e ∈ x.2.before.waits, e.pair ≠ pair
    | .zadd pair score => x.2.before.Placed pair score
    | .expire .. | .tick _ => ∀ e ∈ x.2.after.waits, (x.2.before.score e.pair).isSome = true →
      (x.2.after.score e.pair).isSome = true
    | _ => True

/-! ### The queue -/

structure Queued (φs : List Phase) (s : Store) : Prop where
  read : ∀ φ ∈ φs, ∀ t, φ.readAt = some t → t ≤ s.now
  held : ∀ e ∈ s.waits, (s.score e.pair).isSome = true ∨ InHand φs e.pair
  order : ∀ e ∈ s.waits, ∀ d ∈ s.waits, e.pair.1 = d.pair.1 → e.pair ≠ d.pair →
    ¬ InHand φs e.pair → ¬ InHand φs d.pair → ∀ x y, s.score e.pair = some x →
      s.score d.pair = some y → Key.place x e.pair.2 < Key.place y d.pair.2 →
        e.enqueuedAt ≤ d.enqueuedAt

theorem Queued.spawn {q : Request} (h : Queued φs s) : Queued (φs ++ [.start q]) s := by
  have hmono : ∀ pair, InHand φs pair → InHand (φs ++ [.start q]) pair := by
    rintro pair ⟨φ, hφ, hhand⟩
    exact ⟨φ, List.mem_append_left _ hφ, hhand⟩
  constructor
  · apply Pool.forall_snoc h.read
    intro t ht
    cases ht
  · intro e he
    rcases h.held e he with hscore | hhand
    · exact .inl hscore
    · exact .inr (hmono _ hhand)
  · intro e he d hd hcreator hne hein hdin
    exact h.order e he d hd hcreator hne (fun hin => hein (hmono _ hin)) fun hin =>
      hdin (hmono _ hin)

theorem now_le_exec (c : Cmd) (r : Reply) (s : Store) : s.now ≤ (c.exec r s).now := by
  unfold Cmd.exec
  split
  · exact le_refl _
  cases c with
  | ring pair date =>
    dsimp only
    split
    · exact le_refl _
    · exact le_refl _
  | tick ms => exact Int.le_add_of_nonneg_right (Int.natCast_nonneg ms)
  | _ => exact le_refl _

theorem read_next (hread : ∀ t, φ.readAt = some t → t ≤ s.now) :
    ∀ t, (φ.next c r s).readAt = some t → t ≤ (c.exec r s).now := by
  intro t ht
  apply le_trans _ (now_le_exec c r s)
  cases hr : r.delivered with
  | false =>
    rw [Phase.next, if_pos hr] at ht
    exact hread t ht
  | true =>
    rw [next_delivered hr] at ht
    cases c with
    | clock =>
      cases ht
      exact le_refl _
    | emit _ event =>
      cases event with
      | queued | dequeued => exact hread t ht
    | create =>
      dsimp only [Phase.after] at ht
      split at ht
      · exact hread t ht
      · exact hread t ht
    | zrem =>
      dsimp only [Phase.after] at ht
      split at ht
      · exact hread t ht
      · exact hread t ht
    | _ => exact hread t ht

theorem inHand_create {u : CreatorReferral.ObjectId} {enqueuedAt expiresAt : ℤ} {callId : String}
    (hi : φs[i]? = some φ) (hr : r.delivered = true)
    (hnone : s.entries.findWaiting pair = none) :
    InHand (φs.set i (φ.next (.create pair u enqueuedAt expiresAt callId) r s)) pair := by
  refine ⟨_, List.mem_set (List.getElem?_eq_some_iff.1 hi).1 _, ?_⟩
  rw [next_delivered hr, Phase.after, hnone]
  rfl

theorem Queued.held_step (h : Queued φs s) (hi : φs[i]? = some φ) (hA : Allows φ c)
    (hG : Meets (φ, ⟨s, c, r, c.exec r s⟩)) (he : e ∈ (c.exec r s).waits) :
    ((c.exec r s).score e.pair).isSome = true ∨ InHand (φs.set i (φ.next c r s)) e.pair := by
  rcases waits_exec he with hes | ⟨u, enqueuedAt, expiresAt, callId, hr, rfl, hnone⟩
  · rcases h.held e hes with hscore | hhand
    · rcases score_kept (c := c) (r := r) hscore with hkept | ⟨hr, rfl | hages⟩
      · exact .inl hkept
      · cases hq : φ.q.sweeps with
        | true => exact absurd rfl (hG hr hq hscore e hes)
        | false =>
          refine .inr ⟨_, List.mem_set (List.getElem?_eq_some_iff.1 hi).1 _, ?_⟩
          rw [next_delivered hr, Phase.after, hq]
          rfl
      · cases c with
        | expire => exact .inl (hG hr e he hscore)
        | tick => exact .inl (hG hr e he hscore)
        | _ => cases hages
    · rcases released (r := r) hi hA (h.read φ (List.mem_of_getElem? hi)) hhand with
        hin | ⟨hr, x, rfl⟩ | hgone
      · exact .inr hin
      · apply Or.inl
        rw [score_zadd hr]
        rfl
      · exact absurd rfl (hgone e he)
  · exact .inr (inHand_create hi hr hnone)

theorem Queued.order_step (h : Queued φs s) (hi : φs[i]? = some φ) (hA : Allows φ c)
    (hG : Meets (φ, ⟨s, c, r, c.exec r s⟩)) {d : CallQueueEntry} {x y : ℤ}
    (he : e ∈ (c.exec r s).waits) (hd : d ∈ (c.exec r s).waits) (hcreator : e.pair.1 = d.pair.1)
    (hne : e.pair ≠ d.pair) (hein : ¬ InHand (φs.set i (φ.next c r s)) e.pair)
    (hdin : ¬ InHand (φs.set i (φ.next c r s)) d.pair) (hx : (c.exec r s).score e.pair = some x)
    (hy : (c.exec r s).score d.pair = some y)
    (hlt : Key.place x e.pair.2 < Key.place y d.pair.2) : e.enqueuedAt ≤ d.enqueuedAt := by
  have hread := h.read φ (List.mem_of_getElem? hi)
  have hwaits : ∀ {e'}, e' ∈ (c.exec r s).waits →
      ¬ InHand (φs.set i (φ.next c r s)) e'.pair → e' ∈ s.waits := by
    intro e' he' hin
    rcases waits_exec he' with hes | ⟨u, enqueuedAt, expiresAt, callId, hr, rfl, hnone⟩
    · exact hes
    · exact absurd (inHand_create hi hr hnone) hin
  have hes := hwaits he hein
  have hds := hwaits hd hdin
  rcases score_exec hx with hxs | ⟨hr, rfl⟩
  · rcases score_exec hy with hys | ⟨hr, rfl⟩
    · by_cases hzadd : r.delivered = true ∧ ∃ z, c = .zadd e.pair z
      · obtain ⟨hr, z, rfl⟩ := hzadd
        obtain rfl := Option.some.inj (hx.symm.trans (score_zadd hr z))
        exact ((hG hr e hes rfl d hds hcreator.symm hne.symm y hys).2 hlt)
      · by_cases hzadd' : r.delivered = true ∧ ∃ z, c = .zadd d.pair z
        · obtain ⟨hr, z, rfl⟩ := hzadd'
          obtain rfl := Option.some.inj (hy.symm.trans (score_zadd hr z))
          exact ((hG hr d hds rfl e hes hcreator hne x hxs).1 hlt)
        · have hout : ∀ {e'}, e' ∈ (c.exec r s).waits →
              ¬ (r.delivered = true ∧ ∃ z, c = .zadd e'.pair z) →
              ¬ InHand (φs.set i (φ.next c r s)) e'.pair → ¬ InHand φs e'.pair := by
            intro e' he' hno hin hhand
            rcases released (r := r) hi hA hread hhand with hin' | hyes | hgone
            · exact hin hin'
            · exact hno hyes
            · exact hgone e' he' rfl
          exact h.order e hes d hds hcreator hne (hout he hzadd hein) (hout hd hzadd' hdin) x y hxs
            hys hlt
    · exact (hG hr d hds rfl e hes hcreator hne x hxs).1 hlt
  · rcases score_exec hy with hys | ⟨-, hc⟩
    · exact (hG hr e hes rfl d hds hcreator.symm hne.symm y hys).2 hlt
    · injection hc with hpair _
      exact absurd hpair hne

/-- **The step of the queue.** -/
theorem Queued.step (h : Queued φs s) (hi : φs[i]? = some φ) (hA : Allows φ c)
    (hG : Meets (φ, ⟨s, c, r, c.exec r s⟩)) :
    Queued (φs.set i (φ.next c r s)) (c.exec r s) := by
  constructor
  · apply Pool.forall_set
    · intro φ' hφ' t ht
      exact (h.read φ' hφ' t ht).trans (now_le_exec c r s)
    · exact read_next (h.read φ (List.mem_of_getElem? hi))
  · intro e he
    exact h.held_step hi hA hG he
  · intro e he d hd hcreator hne hein hdin x y hx hy hlt
    exact h.order_step hi hA hG he hd hcreator hne hein hdin hx hy hlt

/-! ### Entries that were returned -/

/-- The entry that a pop tells its caller of before it returns it. -/
def dequeued (e : Event Cmd Reply Store) : Option ℕ :=
  if e.ans.delivered = false then none
  else
    match e.cmd with
    | .emit _ (.dequeued _ entryId) => some entryId
    | _ => none

def returns (log : List (Phase × Event Cmd Reply Store)) (entryId : ℕ) : ℕ :=
  log.countP fun x => dequeued x.2 == some entryId

def Store.spent (s : Store) (entryId : ℕ) : Prop :=
  ∃ e ∈ s.entries.rows, e.id = entryId ∧ e.isWaiting = false

def holders (φs : List Phase) (entryId : ℕ) : ℕ := φs.countP fun φ => φ.rung == some entryId

def Once (φs : List Phase) (log : List (Phase × Event Cmd Reply Store)) (s : Store) : Prop :=
  ∀ entryId, returns log entryId + holders φs entryId ≤ 1 ∧
    (0 < returns log entryId + holders φs entryId → s.spent entryId)

theorem spent_exec {entryId : ℕ} (h : s.spent entryId) : (c.exec r s).spent entryId := by
  obtain ⟨e, he, hid, hw⟩ := h
  unfold Cmd.exec
  split
  · exact ⟨e, he, hid, hw⟩
  have hsettled : ∀ p status (hstatus : status ≠ CallQueueStatus.waiting),
      ∃ e' ∈ (s.entries.settle p status hstatus).rows, e'.id = entryId ∧ e'.isWaiting = false := by
    intro p status hstatus
    obtain ⟨e', he', hid', hw'⟩ := Entries.settle_mem (p := p) hstatus he (.inr hw)
    exact ⟨e', he', hid'.trans hid, hw'⟩
  cases c with
  | create => exact ⟨e, Entries.create_mem he, hid, hw⟩
  | cancel => exact hsettled _ _ (by decide)
  | expireStale => exact hsettled _ _ (by decide)
  | ring pair date =>
    dsimp only
    split
    · exact hsettled _ _ (by decide)
    · exact ⟨e, he, hid, hw⟩
  | _ => exact ⟨e, he, hid, hw⟩

theorem spent_ring {date : ℤ} (hr : r.delivered = true) (h : s.ringable pair date = some e) :
    ¬ s.spent e.id ∧ ((Cmd.ring pair date).exec r s).spent e.id := by
  have hmem := List.mem_of_find?_eq_some h
  have hfound := List.find?_some h
  rw [Bool.and_eq_true, Bool.and_eq_true] at hfound
  constructor
  · rintro ⟨d, hd, hid, hw⟩
    simp [Entries.eq_of_id hd hmem hid, hfound.1.1] at hw
  · rw [Cmd.exec, if_neg (by rw [hr]; exact Bool.noConfusion), h]
    exact Entries.settle_mem (by decide) hmem (.inl (beq_self_eq_true _))

theorem holders_set {ψ : Phase} (hi : φs[i]? = some φ) (entryId : ℕ) :
    holders (φs.set i ψ) entryId + (φ.rung == some entryId).toNat =
      holders φs entryId + (ψ.rung == some entryId).toNat :=
  Pool.countP_phases_set hi fun φ => φ.rung == some entryId

theorem returns_snoc (log : List (Phase × Event Cmd Reply Store))
    (x : Phase × Event Cmd Reply Store) (entryId : ℕ) :
    returns (log ++ [x]) entryId = returns log entryId + (dequeued x.2 == some entryId).toNat :=
  countP_snoc log x fun x => dequeued x.2 == some entryId

/-- What a command does to the entry that its program has found: a pop's update replaces it, the event
returns it, and the others leave it. -/
theorem rung_cases (hA : Allows φ c) :
    ((φ.next c r s).rung = φ.rung ∧ dequeued ⟨s, c, r, c.exec r s⟩ = none) ∨
      (∃ entryId, φ.rung = some entryId ∧ (φ.next c r s).rung = none ∧
        dequeued ⟨s, c, r, c.exec r s⟩ = some entryId) ∨
      (dequeued ⟨s, c, r, c.exec r s⟩ = none ∧
        ∀ entryId, (φ.next c r s).rung = some entryId →
          ¬ s.spent entryId ∧ (c.exec r s).spent entryId) := by
  cases hr : r.delivered with
  | false =>
    simp [Phase.next, hr, dequeued]
  | true =>
    rw [next_delivered hr, dequeued, if_neg (by rw [hr]; exact Bool.noConfusion)]
    cases c with
    | emit _ event =>
      cases event with
      | queued => exact .inl ⟨rfl, rfl⟩
      | dequeued _ entryId => exact .inr (.inl ⟨entryId, hA, rfl, rfl⟩)
    | ring pair date =>
      refine .inr (.inr ⟨rfl, ?_⟩)
      intro entryId hrung
      obtain ⟨found, hfound, rfl⟩ := Option.map_eq_some_iff.1 hrung
      exact spent_ring hr hfound
    | create =>
      refine .inl ⟨?_, rfl⟩
      dsimp only [Phase.after]
      split <;> rfl
    | zrem =>
      refine .inl ⟨?_, rfl⟩
      dsimp only [Phase.after]
      split <;> rfl
    | _ => exact .inl ⟨rfl, rfl⟩

theorem Once.step {log : List (Phase × Event Cmd Reply Store)} (h : Once φs log s)
    (hi : φs[i]? = some φ) (hA : Allows φ c) :
    Once (φs.set i (φ.next c r s)) (log ++ [(φ, ⟨s, c, r, c.exec r s⟩)]) (c.exec r s) := by
  intro entryId
  obtain ⟨hle, hspent⟩ := h entryId
  have hholders := holders_set (ψ := φ.next c r s) hi entryId
  rw [returns_snoc]
  rcases rung_cases (r := r) (s := s) hA with ⟨hrung, hout⟩ | ⟨id, hrung, hnext, hout⟩ | ⟨hout, hnew⟩
  · rw [hrung] at hholders
    rw [hout]
    have hnone : ((none : Option ℕ) == some entryId).toNat = 0 := rfl
    exact ⟨by omega, fun hpos => spent_exec (hspent (by omega))⟩
  · have hnone : ((none : Option ℕ) == some entryId).toNat = 0 := rfl
    rw [hrung, hnext, hnone] at hholders
    rw [hout]
    exact ⟨by omega, fun hpos => spent_exec (hspent (by omega))⟩
  · rw [hout]
    have hnone : ((none : Option ℕ) == some entryId).toNat = 0 := rfl
    by_cases hrung : (φ.next c r s).rung = some entryId
    · obtain ⟨hwaited, hdone⟩ := hnew entryId hrung
      have hzero : ¬ 0 < returns log entryId + holders φs entryId := fun hpos =>
        hwaited (hspent hpos)
      have hle : (some entryId == some entryId).toNat ≤ 1 := Bool.toNat_le _
      rw [hrung] at hholders
      exact ⟨by omega, fun _ => hdone⟩
    · have hnext : ((φ.next c r s).rung == some entryId).toNat = 0 := by
        rw [beq_eq_false_iff_ne.2 hrung]
        rfl
      exact ⟨by omega, fun hpos => spent_exec (hspent (by omega))⟩

/-! ### A pop that runs alone -/

/-- What a pop returns when all its commands are answered and nobody else works on the store. -/
def popAlone (cfg : Config) (creator : String) (s : Store) : Option (Except String (Option Popped)) :=
  ((popNextQueuedCaller cfg creator).run.exec Cmd.exec (List.replicate 5 ⟨true, true, true⟩) s).2

/-- The pop returns the waiting entry of the creator that was enqueued earliest. -/
def PopsFirst (cfg : Config) (creator : String) (s : Store) : Prop :=
  ∃ e ∈ s.waits, e.creatorFirebaseUid = creator ∧
    (∀ d ∈ s.waits, d.creatorFirebaseUid = creator → e.enqueuedAt ≤ d.enqueuedAt) ∧
    popAlone cfg creator s = some (.ok (some ⟨e.callerFirebaseUid, e.callerUserId, e.id⟩))

def StaleHead (creator : String) (s : Store) : Prop :=
  ∃ caller, (s.queue creator).first s.now = some caller ∧ ∀ e ∈ s.waits, e.pair ≠ (creator, caller)

/-- What a pop does with the caller it finds. -/
def popCaller (creator caller : String) : QueueFlow (Option Popped) := do
  let _ ← run (.zrem (creator, caller))
  let date ← clock
  let (_, s) ← run (.ring (creator, caller) date)
  match s.ringable (creator, caller) date with
  | none => pure none
  | some entry => do
    let _ ← run (.emit caller (.dequeued creator entry.id))
    pure (some ⟨caller, entry.callerUserId, entry.id⟩)

variable {creator : String}

theorem popAlone_queue {cfg : Config} (hcfg : cfg.vipPriorityQueueEnabled = true) :
    popAlone cfg creator s =
      ((match (s.queue creator).first s.now with
        | none => pure none
        | some caller => popCaller creator caller : QueueFlow (Option Popped)).run.exec Cmd.exec
          (List.replicate 4 ⟨true, true, true⟩) s).2 := by
  unfold popAlone popNextQueuedCaller
  rw [hcfg, if_neg Bool.noConfusion]
  rfl

theorem popCaller_rings (creator caller : String) (s : Store) :
    ∃ t, ((popCaller creator caller).run.exec Cmd.exec (List.replicate 4 ⟨true, true, true⟩) s).2 =
      ((match s.ringable (creator, caller) s.now with
        | none => pure none
        | some entry => do
          let _ ← run (.emit caller (.dequeued creator entry.id))
          pure (some ⟨caller, entry.callerUserId, entry.id⟩) :
            QueueFlow (Option Popped)).run.exec Cmd.exec [⟨true, true, true⟩] t).2 :=
  ⟨_, rfl⟩

theorem popAlone_some {cfg : Config} {caller : String} (hcfg : cfg.vipPriorityQueueEnabled = true)
    (h : (s.queue creator).first s.now = some caller) :
    popAlone cfg creator s =
      some (.ok ((s.ringable (creator, caller) s.now).map fun e =>
        ⟨caller, e.callerUserId, e.id⟩)) := by
  rw [popAlone_queue hcfg, h]
  obtain ⟨t, ht⟩ := popCaller_rings creator caller s
  refine ht.trans ?_
  cases s.ringable (creator, caller) s.now with
  | _ => rfl

/-! ### Runs -/

abbrev operate (cfg : Config) (s : Store) (ms : List (Move Request Reply)) :
    Watched Phase Cmd Reply Store :=
  (Watched.start s).play Phase.next Phase.start Cmd.exec (program cfg) ms

/-- What holds after a run. -/
structure Fifo (cfg : Config) (s : Store) (ms : List (Move Request Reply)) : Prop where
  /-- No entry is returned twice. -/
  once : ∀ entryId, returns (operate cfg s ms).log entryId ≤ 1
  position : ∀ e ∈ (operate cfg s ms).pool.store.waits, ¬ InHand (operate cfg s ms).phases e.pair →
    1 ≤ (operate cfg s ms).pool.store.position e.pair
  /-- When nobody has a caller of the creator in hand, and somebody waits, a pop returns who was
  enqueued earliest, unless the head of the queue is stale. -/
  pop : cfg.vipPriorityQueueEnabled = true → ∀ creator,
    (∀ caller, ¬ InHand (operate cfg s ms).phases (creator, caller)) →
    (∃ e ∈ (operate cfg s ms).pool.store.waits, e.creatorFirebaseUid = creator) →
    (PopsFirst cfg creator (operate cfg s ms).pool.store ↔
      ¬ StaleHead creator (operate cfg s ms).pool.store)

/-- In a queue that nobody has a caller in hand of, a pop returns who was enqueued earliest exactly when
the head is not stale. -/
theorem Queued.popsFirst_iff (h : Queued φs s) {cfg : Config}
    (hcfg : cfg.vipPriorityQueueEnabled = true) (hhands : ∀ caller, ¬ InHand φs (creator, caller))
    (hwaits : ∃ e ∈ s.waits, e.creatorFirebaseUid = creator) :
    PopsFirst cfg creator s ↔ ¬ StaleHead creator s := by
  have hscored : ∀ e ∈ s.waits, e.creatorFirebaseUid = creator →
      (s.score e.pair).isSome = true ∧ ¬ InHand φs e.pair := by
    rintro e he rfl
    exact ⟨(h.held e he).resolve_right (hhands e.callerFirebaseUid), hhands e.callerFirebaseUid⟩
  obtain ⟨e₀, he₀, hcreator₀⟩ := hwaits
  cases hfirst : (s.queue creator).first s.now with
  | none =>
    have hscore := (hscored e₀ he₀ hcreator₀).1
    have hnone := Key.first_eq_none hfirst e₀.callerFirebaseUid
    rw [← hcreator₀] at hnone
    have hnone : s.score e₀.pair = none := hnone
    simp [hnone] at hscore
  | some caller =>
    have halone := popAlone_some hcfg hfirst
    constructor
    · rintro ⟨e, he, hcreator, -, hpop⟩ ⟨caller', hcaller', hstale⟩
      obtain rfl := Option.mem_unique hfirst hcaller'
      rw [halone] at hpop
      cases hring : s.ringable (creator, caller) s.now with
      | none =>
        rw [hring] at hpop
        cases Except.ok.inj (Option.some.inj hpop)
      | some d =>
        obtain ⟨hd, hpair⟩ := Store.waits_of_ringable hring
        exact hstale d hd hpair
    · intro hfresh
      have hhead : ∃ e ∈ s.waits, e.pair = (creator, caller) := by
        by_contra hno
        exact hfresh ⟨caller, hfirst, fun e he hpair => hno ⟨e, he, hpair⟩⟩
      obtain ⟨e, he, hpair⟩ := hhead
      obtain ⟨hcreator, hcaller⟩ := Prod.mk.inj hpair
      have hring : s.ringable (creator, caller) s.now = some e := by
        rw [← hpair]
        exact Store.ringable_of_waits he (le_refl _)
      refine ⟨e, he, hcreator, ?_, ?_⟩
      · intro d hd hdcreator
        by_cases hsame : e.pair = d.pair
        · rw [Store.eq_of_waits he hd hsame]
        obtain ⟨x, hx, hmin⟩ := Key.first_spec hfirst
        obtain ⟨y, hy⟩ := Option.isSome_iff_exists.1 (hscored d hd hdcreator).1
        have hy' : (s.queue creator).score s.now d.callerFirebaseUid = some y := by
          rw [← hdcreator]
          exact hy
        have hx' : s.score e.pair = some x := by
          rw [hpair]
          exact hx
        have hne : caller ≠ d.callerFirebaseUid := by
          rintro rfl
          apply hsame
          rw [hpair, ← hdcreator]
          rfl
        have hlt := Key.place_lt hne (hmin _ y hy')
        rw [← hcaller] at hlt
        exact h.order e he d hd (hcreator.trans hdcreator.symm) hsame (hscored e he hcreator).2
          (hscored d hd hdcreator).2 x y hx' hy hlt
      · rw [halone, hring, ← hcaller]
        rfl

/-- **The queue is first in, first out**, and loses nobody, in every run from a queue in order whose
steps find what they must. -/
theorem fifo_run (cfg : Config) {s : Store} (hs : Queued [] s) (ms : List (Move Request Reply))
    (hG : ∀ x ∈ (operate cfg s ms).log, Meets x) : Fifo cfg s ms := by
  let J : List Phase → List (Phase × Event Cmd Reply Store) → Store → Prop := fun φs l t =>
    Queued φs t ∧ Once φs l t
  have h₀ : J [] [] s := by
    refine ⟨hs, fun entryId => ⟨Nat.zero_le _, fun hpos => ?_⟩⟩
    exact absurd hpos (Nat.lt_irrefl 0)
  have hspawn : ∀ φs l t q, J φs l t → J (φs ++ [.start q]) l t := by
    intro φs l t q hJ
    refine ⟨hJ.1.spawn, fun entryId => ?_⟩
    have hsame : holders (φs ++ [.start q]) entryId = holders φs entryId := by
      unfold holders
      rw [List.countP_append]
      rfl
    rw [hsame]
    exact hJ.2 entryId
  obtain ⟨-, -, hqueued, honce⟩ := Watched.play_phased J Meets (program_follows cfg) h₀ hspawn
    (fun φs l t i φ c r hJ hi hA hmeets => ⟨hJ.1.step hi hA hmeets, hJ.2.step hi hA⟩) ms hG
  constructor
  · intro entryId
    exact (Nat.le_add_right _ _).trans (honce entryId).1
  · intro e he hhand
    exact Store.one_le_position ((hqueued.held e he).resolve_right hhand)
  · intro hcfg creator hhands hwaits
    exact hqueued.popsFirst_iff hcfg hhands hwaits

/-! ### Fixed runs -/

instance (s : Store) (pair : String × String) (score : ℤ) : Decidable (s.Placed pair score) :=
  inferInstanceAs (Decidable (∀ e ∈ s.waits, _ → ∀ d ∈ s.waits, _ → _ → ∀ x ∈ s.score d.pair, _))

instance : DecidablePred Meets := fun x => by
  unfold Meets
  cases x.2.cmd <;> dsimp only <;> infer_instance

def noQueue : Store := ⟨0, Entries.empty, fun _ => Key.empty⟩

theorem queued_noQueue : Queued [] noQueue :=
  ⟨fun _ h => (nomatch h), fun _ h => (nomatch h), fun _ h => (nomatch h)⟩

def queueing (callerFirebaseUid callId : String) : Request :=
  .enqueue ⟨"creator", callerFirebaseUid, ⟨"65a000000000000000000001", rfl⟩, callId⟩

def completed (i n : ℕ) : List (Move Request Reply) := List.replicate n (.step i ⟨true, true, true⟩)

/-- Two callers, ten minutes apart, and a pop. -/
def twoCallers : List (Move Request Reply) :=
  .spawn (queueing "a" "c1") :: completed 0 10 ++ .spawn (.tick 600000) :: completed 1 1 ++
    .spawn (queueing "b" "c2") :: completed 2 10

theorem fifo_twoCallers :
    Fifo ⟨true, 900⟩ noQueue (twoCallers ++ .spawn (.pop "creator") :: completed 3 5) :=
  fifo_run ⟨true, 900⟩ queued_noQueue _ (by decide +kernel)

/-- A sweep has found the expired entry of a caller; he leaves and comes back; and the sweep takes him
out of the queue. -/
def comesBack : List (Move Request Reply) :=
  .spawn (queueing "a" "c1") :: completed 0 10 ++ .spawn (.tick 900001) :: completed 1 1 ++
    .spawn .expireStale :: completed 2 2 ++ .spawn (.leave "creator" "a") :: completed 3 2 ++
    .spawn (queueing "a" "c2") :: completed 4 10 ++ completed 2 2

/-- A pop that finds an expired entry at the head returns nobody, although somebody waits behind it;
and a caller who waits is not in the queue. -/
theorem stale_head :
    let late := operate ⟨true, 900⟩ noQueue (twoCallers ++ .spawn (.tick 301000) :: completed 3 1)
    let back := operate ⟨true, 900⟩ noQueue comesBack
    late.pool.store.waits.map (·.callerFirebaseUid) = ["b"] ∧
      late.phases.all (·.hand.isNone) = true ∧
      popAlone ⟨true, 900⟩ "creator" late.pool.store = some (.ok none) ∧
      back.pool.store.waits.map (·.callerFirebaseUid) = ["a"] ∧
      back.phases.all (·.hand.isNone) = true ∧
      back.pool.store.position ("creator", "a") = 0 := by
  decide +kernel

end VibemeetBackend.Vip
