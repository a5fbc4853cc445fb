import VibemeetBackend.FeedRank.Pages
import VibemeetBackend.FeedRank.Phases

/-!
# The index agrees with the sort

Whole runs of the requests that change who is listed, or in which tier, from a rebuilt index on.
-/

namespace VibemeetBackend.FeedRank

open Async
open Moments (Text ObjectId)
open Presence

/-! ### The condition -/

def uidOf (cfg : FeedConfig) (s : FeedStore) (id : ObjectId) : Option Text :=
  (s.creators.get id).bind (Creator.feedUid cfg)

def Indexed (cfg : FeedConfig) (s : FeedStore) (uid : Text) : Prop :=
  ∀ c ∈ s.creators.rows, c.feedUid cfg = some uid → Right cfg s c.id

/-- Its caller goes on to tell the index. -/
def Told : PresenceCmd → Bool
  | .exec t => t.statusChanged
  | .clearCreatorActiveCallSlotIfStale => true
  | _ => false

/-- The score to be written is still that of a creator who is listed, and no other creator with the
uid is waiting. -/
def Fresh (cfg : FeedConfig) (step : Step) (s : FeedStore) (score : ℤ) (id : ObjectId) : Prop :=
  ((s.creators.get id).any fun c => !c.isDisabled && expectedScore cfg s c == score) ∧
    ∀ c ∈ s.creators.rows, c.id ≠ id → c.feedUid cfg = step.uid → Right cfg s c.id

/-- The keys of a creator change only in a transition that goes on to tell the index; the update
finds the creator, and nothing changed since; and nobody comes, goes, is disabled or enabled whose
entry the request does not take care of.  Where a change is not told, the entries may be those that
it calls for. -/
def Sound (cfg : FeedConfig) (x : FeedEvent) : Prop :=
  let s := x.2.before
  match x.2.cmd with
  | .presence uid c => Told c = true ∨
    (stateOf (x.2.after.keys uid) = stateOf (s.keys uid) ∧ x.1.next x.2.cmd x.2.ans s = x.1) ∨
      Indexed cfg x.2.after uid
  | .findByUid uid => (s.findByUid uid).isSome = true ∨ Indexed cfg s uid
  | .zadd score id => Fresh cfg x.1.step s score id
  | .zrem id => (s.creators.get id).all fun c => c.isDisabled
  | .insertCreator c => c.isDisabled = true ∨ (s.creators.get c.id).isSome = true
  | .saveDisabled loaded disabled =>
    ((s.creators.get loaded.id).all fun c =>
      (loaded.saved disabled c).isDisabled == c.isDisabled) ∨ Right cfg x.2.after loaded.id
  | .deleteOne id => s.creators.get id = none ∨ s.rank.score 0 id = none
  | .findById _ | .findByIdAndDelete _ => True

section decidable

variable (cfg : FeedConfig) (s : FeedStore)

instance (id : ObjectId) : Decidable (Right cfg s id) := inferInstanceAs (Decidable (_ = _))

instance (uid : Text) : Decidable (Indexed cfg s uid) :=
  inferInstanceAs (Decidable (∀ c ∈ s.creators.rows, _ = _ → Right cfg s c.id))

instance (step : Step) (score : ℤ) (id : ObjectId) : Decidable (Fresh cfg step s score id) :=
  inferInstanceAs (Decidable (_ ∧ ∀ c ∈ s.creators.rows, c.id ≠ id → _ = _ → Right cfg s c.id))

instance : DecidablePred (Sound cfg) := by
  intro x
  unfold Sound
  dsimp only
  cases x.2.cmd <;> infer_instance

instance : Decidable (TimesApart s) :=
  inferInstanceAs (Decidable (∀ c ∈ s.listable, ∀ c' ∈ s.listable, _ = _ → _ = _))

end decidable

/-! ### Steps -/

namespace Phase

def Covers (cfg : FeedConfig) (s : FeedStore) (φ : Phase) (id : ObjectId) : Prop :=
  φ.gone = some id ∨ ∃ uid, φ.step.uid = some uid ∧ uidOf cfg s id = some uid

end Phase

/-- Every entry is right, or a request under way goes on to it. -/
def Tracked (cfg : FeedConfig) (φs : List Phase) (s : FeedStore) : Prop :=
  ∀ id, Right cfg s id ∨ ∃ φ ∈ φs, φ.Covers cfg s id

section steps

variable {cfg : FeedConfig} {φs : List Phase} {s s' : FeedStore} {φ ψ : Phase} {i : ℕ}
  {id : ObjectId} {uid : Text}

theorem Indexed.right (h : Indexed cfg s uid) (hid : uidOf cfg s id = some uid) :
    Right cfg s id := by
  obtain ⟨c, hc, huid⟩ := Option.bind_eq_some_iff.1 hid
  obtain ⟨hmem, rfl⟩ := Mongo.Unique.mem_of_get hc
  exact h c hmem huid

theorem Right.congr (h : Right cfg s id) (hscore : s'.rank.score 0 id = s.rank.score 0 id)
    (hget : s'.creators.get id = s.creators.get id)
    (hkeys : ∀ uid, uidOf cfg s id = some uid → stateOf (s'.keys uid) = stateOf (s.keys uid)) :
    Right cfg s' id := by
  unfold Right at h ⊢
  rw [hscore, hget, h]
  unfold uidOf at hkeys
  cases hc : s.creators.get id with
  | none => rfl
  | some c =>
    rw [hc] at hkeys
    have hstate : feedState cfg s' c = feedState cfg s c := by
      unfold feedState
      cases huid : c.feedUid cfg with
      | none => rfl
      | some uid =>
        have hsame := hkeys uid huid
        by_cases hlikely : isLikelyFirebaseUid uid = true
        · simp [Option.filter_some_pos hlikely, hsame]
        · rw [Option.filter_some_neg (Bool.eq_false_iff.2 hlikely)]
          rfl
    have hexpected : expectedScore cfg s' c = expectedScore cfg s c := by
      unfold expectedScore
      rw [hstate]
    rw [Option.filter_some]
    split
    · rw [Option.map_some, Option.map_some, hexpected]
    · rfl

theorem Tracked.set (h : Tracked cfg φs s) (hi : φs[i]? = some φ)
    (hright : ∀ id, Right cfg s id → Right cfg s' id ∨ ψ.Covers cfg s' id)
    (hown : ∀ id, φ.Covers cfg s id → Right cfg s' id ∨ ψ.Covers cfg s' id)
    (hothers : ∀ id χ, Phase.Covers cfg s χ id →
      Right cfg s' id ∨ ψ.Covers cfg s' id ∨ χ.Covers cfg s' id) :
    Tracked cfg (φs.set i ψ) s' := by
  have hset : ∀ id, Right cfg s' id ∨ ψ.Covers cfg s' id →
      Right cfg s' id ∨ ∃ χ ∈ φs.set i ψ, χ.Covers cfg s' id := by
    intro id hid
    exact hid.imp_right fun hψ => ⟨ψ, Pool.mem_set_self hi, hψ⟩
  intro id
  obtain hid | ⟨χ, hχ, hid⟩ := h id
  · exact hset id (hright id hid)
  · obtain ⟨j, hj⟩ := List.mem_iff_getElem?.1 hχ
    by_cases hij : j = i
    · subst hij
      obtain rfl := Option.mem_unique hi hj
      exact hset id (hown id hid)
    · obtain hdone | hdone | hdone := hothers id χ hid
      · exact hset id (.inl hdone)
      · exact hset id (.inr hdone)
      · exact .inr ⟨χ, Pool.mem_set_of_ne hj hij, hdone⟩

variable {r : FeedReply} {c : PresenceCmd}

theorem right_presence (h : Right cfg s id)
    (hkeys : uidOf cfg s id = some uid →
      stateOf (((FeedCmd.presence uid c).effect r s).keys uid) = stateOf (s.keys uid)) :
    Right cfg ((FeedCmd.presence uid c).effect r s) id := by
  apply Right.congr h
  · rfl
  · rfl
  · intro uid' huid'
    by_cases hsame : uid' = uid
    · subst hsame
      exact hkeys huid'
    · show stateOf (Function.update s.keys uid _ uid') = _
      rw [Function.update_of_ne hsame]

theorem next_presence (hA : Permits φ (.presence uid c)) :
    (φ.next (.presence uid c) r s).gone = φ.gone ∧
      ∀ uid', φ.step.uid = some uid' → uid' ≠ uid → φ.next (.presence uid c) r s = φ := by
  cases c with
  | exec t =>
    refine ⟨rfl, ?_⟩
    intro uid' huid' hne
    obtain hstep | hstep := hA
    · rw [hstep] at huid'
      cases huid'
    · rw [hstep] at huid'
      exact absurd (Option.some.inj huid').symm hne
  | clearCreatorActiveCallSlotIfStale =>
    constructor
    · show Phase.gone (if _ then _ else _) = _
      split <;> rfl
    · intro uid' huid' hne
      obtain hstep | hstep := hA
      · rw [hstep] at huid'
        cases huid'
      · rw [hstep] at huid'
        exact absurd (Option.some.inj huid').symm hne
  | _ => exact ⟨rfl, fun _ _ _ => rfl⟩

theorem next_told (uid : Text) (hc : Told c = true) :
    (φ.next (.presence uid c) r s).step.uid = some uid ∨
      (φ.next (.presence uid c) r s = φ ∧
        ((FeedCmd.presence uid c).effect r s).keys uid = s.keys uid) := by
  cases c with
  | exec t =>
    left
    have hchanged : t.statusChanged = true := hc
    show Step.uid (if t.statusChanged then _ else _) = _
    rw [if_pos hchanged]
    rfl
  | clearCreatorActiveCallSlotIfStale =>
    cases hr : r.cleared with
    | true =>
      left
      show Step.uid (Phase.step (if r.cleared then _ else _)) = _
      rw [if_pos hr]
      rfl
    | false =>
      right
      constructor
      · exact if_neg (Bool.eq_false_iff.1 hr)
      · show Function.update s.keys uid (if r.cleared then _ else _) uid = _
        rw [Function.update_self, if_neg (Bool.eq_false_iff.1 hr)]
  | _ => cases hc

theorem presence_step (h : Tracked cfg φs s) (hi : φs[i]? = some φ)
    (hA : Permits φ (.presence uid c))
    (hG : Sound cfg (φ, ⟨s, .presence uid c, r, (FeedCmd.presence uid c).effect r s⟩)) :
    Tracked cfg (φs.set i (φ.next (.presence uid c) r s))
      ((FeedCmd.presence uid c).effect r s) := by
  obtain ⟨hgone, hother⟩ := next_presence (s := s) (r := r) hA
  -- whoever has the uid of the keys is taken care of
  have huid : ∀ id, uidOf cfg s id = some uid → Right cfg s id ∨ φ.Covers cfg s id →
      Right cfg ((FeedCmd.presence uid c).effect r s) id ∨
        (φ.next (.presence uid c) r s).Covers cfg ((FeedCmd.presence uid c).effect r s) id := by
    intro id hid hbefore
    obtain htold | ⟨hkeys, hphase⟩ | hindexed := hG
    · obtain hstep | ⟨hphase, hkeys⟩ := next_told (φ := φ) (s := s) (r := r) uid htold
      · exact .inr (.inr ⟨uid, hstep, hid⟩)
      · rw [hphase]
        apply hbefore.imp_left
        intro hright
        apply right_presence hright
        intro _
        rw [hkeys]
    · have hphase' : φ.next (.presence uid c) r s = φ := hphase
      rw [hphase']
      apply hbefore.imp_left
      intro hright
      exact right_presence hright fun _ => hkeys
    · exact .inl (hindexed.right hid)
  apply h.set hi
  · intro id hright
    by_cases hid : uidOf cfg s id = some uid
    · exact huid id hid (.inl hright)
    · exact .inl (right_presence hright fun h => absurd h hid)
  · intro id hcovers
    by_cases hid : uidOf cfg s id = some uid
    · exact huid id hid (.inr hcovers)
    · right
      obtain hid' | ⟨uid', hstep, hid'⟩ := hcovers
      · left
        rw [hgone]
        exact hid'
      · rw [hother uid' hstep fun heq => hid (heq ▸ hid')]
        exact .inr ⟨uid', hstep, hid'⟩
  · intro id χ hχ
    exact .inr (.inr hχ)

theorem uidOf_congr (hget : s'.creators.get id = s.creators.get id) :
    uidOf cfg s' id = uidOf cfg s id := congrArg (Option.bind · _) hget

theorem Phase.Covers.congr (h : φ.Covers cfg s id) (hget : s'.creators.get id = s.creators.get id) :
    φ.Covers cfg s' id := by
  unfold Phase.Covers at h ⊢
  rw [uidOf_congr hget]
  exact h

theorem Tracked.set_at (h : Tracked cfg φs s) (hi : φs[i]? = some φ) (k : ObjectId)
    (hscore : ∀ id ≠ k, s'.rank.score 0 id = s.rank.score 0 id)
    (hget : ∀ id ≠ k, s'.creators.get id = s.creators.get id)
    (hkeys : ∀ uid, s'.keys uid = s.keys uid)
    (hphase : ∀ id ≠ k, φ.Covers cfg s id → Right cfg s' id ∨ ψ.Covers cfg s' id)
    (hk : Right cfg s' k ∨ ψ.Covers cfg s' k) : Tracked cfg (φs.set i ψ) s' := by
  have hright : ∀ id, Right cfg s id → Right cfg s' id ∨ ψ.Covers cfg s' id := by
    intro id hid
    by_cases hne : id = k
    · rw [hne]
      exact hk
    · exact .inl (hid.congr (hscore id hne) (hget id hne) fun uid _ => by rw [hkeys])
  apply h.set hi hright
  · intro id hid
    by_cases hne : id = k
    · rw [hne]
      exact hk
    · exact hphase id hne hid
  · intro id χ hχ
    by_cases hne : id = k
    · rw [hne]
      exact hk.imp_right .inl
    · exact .inr (.inr (hχ.congr (hget id hne)))

theorem Tracked.set_same (h : Tracked cfg φs s) (hi : φs[i]? = some φ)
    (hright : ∀ id, Right cfg s id → Right cfg s' id)
    (hcovers : ∀ id χ, Phase.Covers cfg s χ id → χ.Covers cfg s' id) :
    Tracked cfg (φs.set i φ) s' :=
  h.set hi (fun id hid => .inl (hright id hid)) (fun id hid => .inr (hcovers id φ hid))
    fun id χ hid => .inr (.inr (hcovers id χ hid))

theorem findByUid_step (h : Tracked cfg φs s) (hi : φs[i]? = some φ)
    (hA : Permits φ (.findByUid uid))
    (hG : Sound cfg (φ, ⟨s, .findByUid uid, r, (FeedCmd.findByUid uid).effect r s⟩)) :
    Tracked cfg (φs.set i (φ.next (.findByUid uid) r s)) s := by
  obtain ⟨state, hstep⟩ := hA
  apply h.set hi
  · intro id hid
    exact .inl hid
  · rintro id (hgone | ⟨uid', huid', hid⟩)
    · exact .inr (.inl hgone)
    · rw [hstep] at huid'
      cases huid'
      obtain hfound | hindexed := hG
      · right; right
        refine ⟨uid, ?_, hid⟩
        obtain ⟨row, hrow⟩ := Option.isSome_iff_exists.1 hfound
        show (φ.step.found (s.findByUid uid)).uid = _
        rw [hstep, hrow]
        rfl
      · exact .inl (hindexed.right hid)
  · intro id χ hid
    exact .inr (.inr hid)

theorem zadd_step {score : ℤ} (h : Tracked cfg φs s) (hi : φs[i]? = some φ)
    (hG : Fresh cfg φ.step s score id) :
    Tracked cfg (φs.set i (φ.next (.zadd score id) r s)) ((FeedCmd.zadd score id).effect r s) := by
  have hscore : ∀ id', ((FeedCmd.zadd score id).effect r s).rank.score 0 id' =
      if id' = id then some score else s.rank.score 0 id' := Redis.Key.score_zadd _ _ _ _
  apply h.set_at hi id
  · intro id' hne
    rw [hscore, if_neg hne]
  · exact fun _ _ => rfl
  · exact fun _ => rfl
  · rintro id' hne (hgone | ⟨uid, huid, hid⟩)
    · exact .inr (.inl hgone)
    · left
      obtain ⟨c, hc, hcuid⟩ := Option.bind_eq_some_iff.1 hid
      obtain ⟨hmem, rfl⟩ := Mongo.Unique.mem_of_get hc
      apply (hG.2 c hmem hne (hcuid.trans huid.symm)).congr
      · rw [hscore, if_neg hne]
      · rfl
      · exact fun _ _ => rfl
  · left
    have hany := hG.1
    unfold Right
    rw [hscore, if_pos rfl]
    show some score = ((s.creators.get id).filter _).map _
    cases hc : s.creators.get id with
    | none =>
      simp [hc] at hany
    | some c =>
      rw [hc, Option.any_some, Bool.and_eq_true, beq_iff_eq] at hany
      rw [Option.filter_some, if_pos hany.1, Option.map_some]
      exact congrArg some hany.2.symm

theorem zrem_step (h : Tracked cfg φs s) (hi : φs[i]? = some φ) (hA : Permits φ (.zrem id))
    (hG : (s.creators.get id).all fun c => c.isDisabled) :
    Tracked cfg (φs.set i (φ.next (.zrem id) r s)) ((FeedCmd.zrem id).effect r s) := by
  have hscore : ∀ id', ((FeedCmd.zrem id).effect r s).rank.score 0 id' =
      if id' = id then none else s.rank.score 0 id' := Redis.Key.score_zrem _ _ _
  apply h.set_at hi id
  · intro id' hne
    rw [hscore, if_neg hne]
  · exact fun _ _ => rfl
  · exact fun _ => rfl
  · rintro id' hne (hgone | hstep)
    · exact absurd (Option.mem_unique hgone hA) hne
    · exact .inr (.inr hstep)
  · left
    unfold Right
    rw [hscore, if_pos rfl]
    show none = ((s.creators.get id).filter _).map _
    cases hc : s.creators.get id <;> simp_all

theorem insertCreator_step {c : Creator} (h : Tracked cfg φs s) (hi : φs[i]? = some φ)
    (hG : c.isDisabled = true ∨ (s.creators.get c.id).isSome = true) :
    Tracked cfg (φs.set i φ) ((FeedCmd.insertCreator c).effect r s) := by
  cases hget : s.creators.get c.id with
  | some taken =>
    have hsame : (FeedCmd.insertCreator c).effect r s = s := by
      show { s with creators := s.creators.insert c } = s
      rw [Mongo.Unique.insert_of_get hget]
    rw [hsame]
    exact h.set_same hi (fun _ hid => hid) fun _ _ hid => hid
  | none =>
    have hdisabled : c.isDisabled = true := by
      obtain hdisabled | hsome := hG
      · exact hdisabled
      · simp [hget] at hsome
    have hget' : ∀ id, ((FeedCmd.insertCreator c).effect r s).creators.get id =
        if c.id = id then some c else s.creators.get id := Mongo.Unique.get_insert hget
    apply h.set_same hi
    · intro id hright
      by_cases hid : c.id = id
      · subst hid
        unfold Right at hright ⊢
        rw [hget] at hright
        rw [hget', if_pos rfl, Option.filter_some, hdisabled]
        exact hright
      · apply hright.congr
        · rfl
        · rw [hget', if_neg hid]
        · exact fun _ _ => rfl
    · rintro id χ (hgone | ⟨uid, hstep, huid⟩)
      · exact .inl hgone
      · have hid : c.id ≠ id := by
          rintro rfl
          unfold uidOf at huid
          simp [hget] at huid
        right
        refine ⟨uid, hstep, ?_⟩
        rw [uidOf_congr, huid]
        rw [hget', if_neg hid]

theorem saved_id (loaded : Creator) (disabled : Bool) (c : Creator) :
    (loaded.saved disabled c).id = c.id := rfl

theorem saveDisabled_step {loaded : Creator} {disabled : Bool} (h : Tracked cfg φs s)
    (hi : φs[i]? = some φ)
    (hG : Sound cfg (φ, ⟨s, .saveDisabled loaded disabled, r,
      (FeedCmd.saveDisabled loaded disabled).effect r s⟩)) :
    Tracked cfg (φs.set i φ) ((FeedCmd.saveDisabled loaded disabled).effect r s) := by
  have hget : ∀ id', ((FeedCmd.saveDisabled loaded disabled).effect r s).creators.get id' =
      if loaded.id = id' then (s.creators.get id').map (loaded.saved disabled)
      else s.creators.get id' :=
        Mongo.Unique.get_update (saved_id loaded disabled) _
  have huid : ∀ id', uidOf cfg ((FeedCmd.saveDisabled loaded disabled).effect r s) id' =
      uidOf cfg s id' := by
    intro id'
    unfold uidOf
    rw [hget]
    split
    · rw [Option.bind_map]
      rfl
    · rfl
  have hcovers : ∀ id' χ, Phase.Covers cfg s χ id' →
      χ.Covers cfg ((FeedCmd.saveDisabled loaded disabled).effect r s) id' := by
    intro id' χ hχ
    unfold Phase.Covers
    rw [huid]
    exact hχ
  obtain hsame | hright := hG
  · apply h.set_same hi _ hcovers
    intro id' hright
    by_cases hid : loaded.id = id'
    · subst hid
      have hsame' : (s.creators.get loaded.id).all (fun c =>
        (loaded.saved disabled c).isDisabled == c.isDisabled) = true := hsame
      unfold Right at hright ⊢
      rw [hget, if_pos rfl]
      cases hc : s.creators.get loaded.id with
      | none =>
        rw [hc] at hright
        exact hright
      | some c =>
        rw [hc, Option.all_some, beq_iff_eq] at hsame'
        rw [hc, Option.filter_some] at hright
        rw [Option.map_some, Option.filter_some, hsame']
        cases hdisabled : c.isDisabled <;> rw [hdisabled] at hright <;> exact hright
    · apply hright.congr
      · rfl
      · rw [hget, if_neg hid]
      · exact fun _ _ => rfl
  · apply h.set_at hi loaded.id
    · exact fun _ _ => rfl
    · intro id' hne
      rw [hget, if_neg hne.symm]
    · exact fun _ => rfl
    · intro id' _ hid
      exact .inr (hcovers id' φ hid)
    · exact .inl hright

theorem erased {c : FeedCmd} (hc : c = .findByIdAndDelete id ∨ c = .deleteOne id) (id' : ObjectId) :
    (c.effect r s).creators.get id' =
      if id = id' then none else s.creators.get id' := by
  obtain rfl | rfl := hc
  · exact Mongo.Unique.get_erase _ _ _
  · exact Mongo.Unique.get_erase _ _ _

theorem findByIdAndDelete_step (h : Tracked cfg φs s) (hi : φs[i]? = some φ)
    (hA : Permits φ (.findByIdAndDelete id)) :
    Tracked cfg (φs.set i (φ.next (.findByIdAndDelete id) r s))
      ((FeedCmd.findByIdAndDelete id).effect r s) := by
  have hgone : φ.gone = none := hA
  have hget : ∀ id' ≠ id, ((FeedCmd.findByIdAndDelete id).effect r s).creators.get id' =
      s.creators.get id' := by
    intro id' hne
    rw [erased (.inl rfl), if_neg hne.symm]
  apply h.set_at hi id
  · exact fun _ _ => rfl
  · exact hget
  · exact fun _ => rfl
  · rintro id' hne (hown | ⟨uid, hstep, hid⟩)
    · simp [hgone] at hown
    · right; right
      refine ⟨uid, hstep, ?_⟩
      rw [uidOf_congr (hget id' hne)]
      exact hid
  · exact .inr (.inl rfl)

theorem deleteOne_step (h : Tracked cfg φs s) (hi : φs[i]? = some φ)
    (hG : s.creators.get id = none ∨ s.rank.score 0 id = none) :
    Tracked cfg (φs.set i φ) ((FeedCmd.deleteOne id).effect r s) := by
  have hget : ∀ id', ((FeedCmd.deleteOne id).effect r s).creators.get id' =
      if id = id' then none else s.creators.get id' := erased (.inr rfl)
  obtain hnone | hscore := hG
  · have hsame : ∀ id', ((FeedCmd.deleteOne id).effect r s).creators.get id' =
        s.creators.get id' := by
      intro id'
      rw [hget]
      split
      · rename_i hid
        rw [← hid, hnone]
      · rfl
    apply h.set_same hi
    · intro id' hright
      exact hright.congr rfl (hsame id') fun _ _ => rfl
    · intro id' χ hχ
      exact hχ.congr (hsame id')
  · apply h.set_at hi id
    · exact fun _ _ => rfl
    · intro id' hne
      rw [hget, if_neg hne.symm]
    · exact fun _ => rfl
    · intro id' hne hid
      right
      apply hid.congr
      rw [hget, if_neg hne.symm]
    · left
      unfold Right
      rw [hget, if_pos rfl]
      exact hscore

/-- **What one command keeps.** -/
theorem tracked_step {c : FeedCmd} (h : Tracked cfg φs s) (hi : φs[i]? = some φ)
    (hA : Permits φ c) (hG : Sound cfg (φ, ⟨s, c, r, c.effect r s⟩)) :
    Tracked cfg (φs.set i (φ.next c r s)) (c.effect r s) := by
  cases c with
  | presence uid c => exact presence_step h hi hA hG
  | findById id => exact h.set_same hi (fun _ hid => hid) fun _ _ hid => hid
  | findByUid uid => exact findByUid_step h hi hA hG
  | zadd score id => exact zadd_step h hi hG
  | zrem id => exact zrem_step h hi hA hG
  | insertCreator c => exact insertCreator_step h hi hG
  | saveDisabled loaded disabled => exact saveDisabled_step h hi hG
  | findByIdAndDelete id => exact findByIdAndDelete_step h hi hA
  | deleteOne id => exact deleteOne_step h hi hG

end steps

/-! ### Runs -/

theorem score_rows {f : Creator → ℤ} {rows : List Creator} (hnodup : (rows.map (·.id)).Nodup)
    (rank : Redis.Key ObjectId) (id : ObjectId) (x : ℤ) :
    (rows.foldl (fun rank c => rank.zadd 0 (f c) c.id) rank).score 0 id = some x ↔
      (∃ c ∈ rows, c.id = id ∧ f c = x) ∨
        (∀ c ∈ rows, c.id ≠ id) ∧ rank.score 0 id = some x := by
  induction rows generalizing rank with
  | nil => simp
  | cons c rows ih =>
    obtain ⟨hnew, hnodup⟩ := List.nodup_cons.1 hnodup
    rw [List.foldl_cons, ih hnodup, Redis.Key.score_zadd]
    by_cases hid : id = c.id
    · have hrows : ∀ c' ∈ rows, c'.id ≠ id := by
        intro c' hc' hid'
        apply hnew
        exact List.mem_map.2 ⟨c', hc', hid'.trans hid⟩
      rw [if_pos hid]
      constructor
      · grind
      · rintro (⟨c', hc', hid', hx⟩ | ⟨hall, -⟩)
        · obtain rfl | hc' := List.mem_cons.1 hc'
          · exact .inr ⟨hrows, congrArg some hx⟩
          · exact absurd hid' (hrows c' hc')
        · exact absurd hid.symm (hall c List.mem_cons_self)
    · rw [if_neg hid]
      constructor
      · rintro (⟨c', hc', hx⟩ | ⟨hall, hx⟩)
        · exact .inl ⟨c', List.mem_cons_of_mem _ hc', hx⟩
        · right
          refine ⟨?_, hx⟩
          intro c' hc'
          obtain rfl | hc' := List.mem_cons.1 hc'
          · exact Ne.symm hid
          · exact hall c' hc'
      · rintro (⟨c', hc', hx⟩ | ⟨hall, hx⟩)
        · obtain rfl | hc' := List.mem_cons.1 hc'
          · exact absurd hx.1.symm hid
          · exact .inl ⟨c', hc', hx⟩
        · exact .inr ⟨fun c' hc' => hall c' (List.mem_cons_of_mem _ hc'), hx⟩

/-- **A rebuilt index is right**, when the catalog is within the cap. -/
theorem rebuild_right {cfg : FeedConfig} {s : FeedStore}
    (hcap : s.listable.length ≤ cfg.readCreatorFeedAvailabilityMaxCatalog) (id : ObjectId) :
    Right cfg (rebuildCreatorFeedRankIndex cfg s) id := by
  have hrows : s.listable.take cfg.readCreatorFeedAvailabilityMaxCatalog = s.listable :=
    List.take_of_length_le hcap
  have hscore : ∀ x, (rebuildCreatorFeedRankIndex cfg s).rank.score 0 id = some x ↔
      ∃ c ∈ s.listable, c.id = id ∧ expectedScore cfg s c = x := by
    intro x
    unfold rebuildCreatorFeedRankIndex
    rw [hrows]
    have hentries := score_rows (f := expectedScore cfg s) (listable_nodup s) .empty id x
    simp only [Redis.Key.score_empty, reduceCtorEq, and_false, or_false] at hentries
    exact hentries
  apply Option.ext
  intro x
  rw [hscore, Option.map_eq_some_iff]
  constructor
  · rintro ⟨c, hc, rfl, hx⟩
    obtain ⟨hmem, hlisted⟩ := mem_listable.1 hc
    use c
    constructor
    · show (s.creators.get c.id).filter _ = _
      rw [Mongo.Unique.get_of_mem hmem, Option.filter_some, hlisted]
      rfl
    · exact hx
  · rintro ⟨c, hc, hx⟩
    obtain ⟨hget, hlisted⟩ := Option.filter_eq_some_iff.1 hc
    obtain ⟨hmem, hid⟩ := Mongo.Unique.mem_of_get hget
    exact ⟨c, mem_listable.2 ⟨hmem, by simpa using hlisted⟩, hid, hx⟩

def feedRun (cfg : FeedConfig) (s : FeedStore) (ms : List (Move FeedRequest FeedReply)) :
    Watched Phase FeedCmd FeedReply FeedStore :=
  (Watched.start (rebuildCreatorFeedRankIndex cfg s)).play Phase.next (fun _ => .start)
    FeedCmd.effect (feedProgram cfg) ms

/-- No request is under way. -/
def Quiet (w : Watched Phase FeedCmd FeedReply FeedStore) : Prop :=
  ∀ p ∈ w.pool.procs, p.returned = true

/-- **The index agrees with the sort**: from a rebuilt index on, in every run whose commands are
sound, whenever no request is under way, the catalog is within the cap, and creation times that
differ have different tie-breaks. -/
theorem feed_rank_agrees (cfg : FeedConfig) (s : FeedStore)
    (hcap : s.listable.length ≤ cfg.readCreatorFeedAvailabilityMaxCatalog)
    (ms : List (Move FeedRequest FeedReply)) (hsound : ∀ x ∈ (feedRun cfg s ms).log, Sound cfg x)
    (hquiet : Quiet (feedRun cfg s ms))
    (hlength : (feedRun cfg s ms).pool.store.listable.length ≤
      cfg.readCreatorFeedAvailabilityMaxCatalog)
    (hapart : TimesApart (feedRun cfg s ms).pool.store) :
    PagesAgree cfg (feedRun cfg s ms).pool.store := by
  obtain ⟨hphases, -, htracked⟩ := Watched.play_phased (fun φs _ s => Tracked cfg φs s) (Sound cfg)
    (feedProgram_follows cfg) (fun id => .inl (rebuild_right hcap id))
    (fun φs _ _ _ h id => (h id).imp_right fun ⟨φ, hφ, hid⟩ => ⟨φ, List.mem_append_left _ hφ, hid⟩)
    (fun _ _ _ _ _ _ _ h hi hA hG => tracked_step h hi hA hG) ms hsound
  apply pages_agree _ hapart hlength
  intro id
  obtain hright | ⟨φ, hφ, hid⟩ := htracked id
  · exact hright
  · obtain rfl := hphases.of_returned hquiet φ hφ
    obtain hgone | ⟨uid, hstep, -⟩ := hid
    · cases hgone
    · cases hstep

/-! ### Samples -/

def config : FeedConfig := ⟨⟨⟨none, none, none⟩, true, true, none, true⟩, false, none⟩

def creator (id : ObjectId) (uid : String) (createdAt : ℤ) : Creator :=
  ⟨id, some uid.toList, none, createdAt, false, false⟩

def catalog : FeedStore where
  creators := (Mongo.Unique.empty.insert (creator 1 "firebase-1" 1000)).insert
    (creator 2 "firebase-2" 2000)
  keys := fun _ => .start
  rank := .empty

instance (w : Watched Phase FeedCmd FeedReply FeedStore) : Decidable (Quiet w) :=
  inferInstanceAs (Decidable (∀ p ∈ w.pool.procs, _ = true))

def cameOnline : List (Move FeedRequest FeedReply) :=
  .spawn (.presence "firebase-1".toList (.transition .connected "gateway")) ::
    List.replicate 14 (.step 0 ⟨5000, 180, false⟩)

/-- The creator who came online goes first on both kinds of pages. -/
theorem cameOnline_agrees :
    rankPage config (feedRun config catalog cameOnline).pool.store 0 20 = ⟨[1, 2], 2⟩ ∧
      PagesAgree config (feedRun config catalog cameOnline).pool.store := by
  constructor
  · decide +kernel
  · apply feed_rank_agrees
    · decide +kernel
    · decide +kernel
    · decide +kernel
    · decide +kernel
    · decide +kernel

def createdLater : List (Move FeedRequest FeedReply) :=
  [.spawn (.createCreator (creator 3 "firebase-3" 3000)), .step 0 ⟨5000, 180, false⟩]

theorem createdLater_disagrees :
    ¬ ∀ cfg s ms, s.listable.length ≤ cfg.readCreatorFeedAvailabilityMaxCatalog →
      Quiet (feedRun cfg s ms) → (feedRun cfg s ms).pool.store.listable.length ≤
        cfg.readCreatorFeedAvailabilityMaxCatalog →
      PagesAgree cfg (feedRun cfg s ms).pool.store := by
  intro h
  have hagree := h config catalog createdLater (by decide +kernel) (by decide +kernel)
    (by decide +kernel)
  have htotal := hagree.total 0 20
  revert htotal
  decide +kernel

end VibemeetBackend.FeedRank
