import VibemeetBackend.Async.Debt
import VibemeetBackend.Moments.Engagement

/-!
# Counters and rows

Whole runs of likes, comments and their removals on one moment, with answers that are lost and
requests that stop for good anywhere.  A request that has written a row owes its counter a
change; while it does, the counter is off by that much.
-/

namespace VibemeetBackend.Moments

open Async Flow Mongo Pool

/-! ### Counters -/

inductive Counter
  | likes
  | comments
  | commentLikes (commentId : ObjectId)
  deriving DecidableEq

namespace Engagement

/-- A comment that `commentsCount` counts. -/
def counts (s : Engagement) (d : MomentComment) : Bool :=
  d.momentId == s.momentId && d.parentCommentId.isNone && !d.isDeleted

def liveTopLevel (s : Engagement) : ℕ := s.comments.rows.countP s.counts

def likesOf (s : Engagement) (commentId : ObjectId) : Finset (ObjectId × ObjectId) :=
  s.commentLikes.filter fun row => row.1 = commentId

/-- The `likesCount` of a comment; none is zero. -/
def commentLikesCount (s : Engagement) (commentId : ObjectId) : ℤ :=
  ((s.comments.get commentId).map fun d => d.likesCount).getD 0

def gap (s : Engagement) : Counter → ℤ
  | .likes => s.likes.card - s.likesCount
  | .comments => s.liveTopLevel - s.commentsCount
  | .commentLikes commentId => (s.likesOf commentId).card - s.commentLikesCount commentId

structure Counted (s : Engagement) : Prop where
  likes : s.likesCount = s.likes.card
  comments : s.commentsCount = s.liveTopLevel
  commentLikes : ∀ d ∈ s.comments.rows, d.likesCount = (s.likesOf d.id).card
  ofComments : ∀ row ∈ s.commentLikes, (s.comments.get row.1).isSome
  score : s.engagementScore =
    s.likesCount * engagementLikeWeight + s.commentsCount * engagementCommentWeight

end Engagement

/-! ### What a request owes -/

structure Phase where
  comment : Option MomentComment
  owes : Debt Counter

namespace Phase

def start : Phase := ⟨none, none⟩

def owe (φ : Phase) (k : Counter) (n : ℤ) : Phase := { φ with owes := some (k, n) }

def settle (φ : Phase) : Phase := { φ with owes := none }

def after (φ : Phase) (c : Cmd) (r : Reply) (s : Engagement) : Phase :=
  match c with
  | .createLike userId => if userId ∈ s.likes then φ else φ.owe .likes 1
  | .deleteLike userId => if userId ∈ s.likes then φ.owe .likes (-1) else φ
  | .createComment _ _ parentCommentId _ =>
    if (s.comments.get r.id).isNone ∧ parentCommentId.isNone then φ.owe .comments 1 else φ
  | .findComment commentId => { φ with comment := s.liveComment commentId }
  | .deleteComment _ =>
    if φ.comment.any (·.parentCommentId.isNone) then φ.owe .comments (-1) else φ
  | .createCommentLike commentId userId =>
    if (commentId, userId) ∈ s.commentLikes then φ else φ.owe (.commentLikes commentId) 1
  | .deleteCommentLike commentId userId =>
    if (commentId, userId) ∈ s.commentLikes then φ.owe (.commentLikes commentId) (-1) else φ
  | .incLikes _ | .incComments _ | .incCommentLikes .. => φ.settle
  | _ => φ

/-- A request whose command is not answered gives up. -/
def next (φ : Phase) (c : Cmd) (r : Reply) (s : Engagement) : Phase :=
  if r.ok then φ.after c r s else φ.settle

end Phase

/-- A request pays what it owes before it does anything else, and touches the comment that it has
read. -/
def Permits (φ : Phase) : Cmd → Prop
  | .incLikes n => φ.owes = some (.likes, n)
  | .incComments n => φ.owes = some (.comments, n)
  | .incCommentLikes commentId n =>
    φ.owes = some (.commentLikes commentId, n) ∧ φ.comment.map (·.id) = some commentId
  | .deleteComment commentId | .createCommentLike commentId _ | .deleteCommentLike commentId _ =>
    φ.owes = none ∧ φ.comment.map (·.id) = some commentId
  | _ => φ.owes = none

variable {s : Engagement} {commentId : ObjectId} {c : Cmd} {d : MomentComment}

/-! ### The functions follow the protocol -/

section protocol

variable {φ : Phase} {α : Type}

/-- The function ends with nothing owed. -/
abbrev Pays (φ : Phase) (p : EngagementFlow α) (Q : α → Phase → Prop) : Prop :=
  Follows (guarded Permits Phase.next) φ p Q fun _ φ' => φ'.owes = none

theorem pays_run {f : Reply × Engagement → EngagementFlow α} {Q : α → Phase → Prop}
    (hc : Permits φ c) (h : ∀ r s, Pays (φ.after c r s) (f (r, s)) Q) : Pays φ (run c >>= f) Q := by
  apply follows_call_bind
  intro r s
  refine ⟨_, guarded_of hc, ?_, ?_⟩
  · intro hr
    rw [Phase.next, if_pos hr]
    exact h r s
  · intro hr
    rw [Phase.next, if_neg (by simp [hr])]
    rfl

variable (userId : ObjectId)

theorem likeMoment_pays : Pays Phase.start (likeMoment userId) fun _ φ => φ.owes = none := by
  unfold likeMoment
  apply pays_run (c := .findMoment)
  · rfl
  intro _ moment
  dsimp only
  split
  · rfl
  apply pays_run (c := .engagementAccess userId)
  · rfl
  intro access _
  split
  · rfl
  apply pays_run (c := .findLike userId)
  · rfl
  intro _ s
  split
  · rfl
  apply pays_run (c := .createLike userId)
  · rfl
  intro r s'
  by_cases hmem : userId ∈ s'.likes
  · rw [if_pos hmem]
    rw [Phase.after, if_pos hmem]
    rfl
  · rw [if_neg hmem]
    rw [Phase.after, if_neg hmem]
    apply pays_run (c := .incLikes 1)
    · rfl
    intro _ _
    rfl

theorem unlikeMoment_pays : Pays Phase.start (unlikeMoment userId) fun _ φ => φ.owes = none := by
  apply pays_run (c := .findMoment)
  · rfl
  intro _ moment
  dsimp only
  split
  · rfl
  apply pays_run (c := .deleteLike userId)
  · rfl
  intro r s
  by_cases hmem : userId ∈ s.likes
  · rw [if_neg (not_not.2 hmem), Phase.after, if_pos hmem]
    apply pays_run (c := .incLikes (-1))
    · rfl
    intro _ s'
    split
    · apply pays_run (c := .clampLikes)
      · rfl
      intro _ _
      rfl
    · rfl
  · rw [if_pos hmem, Phase.after, if_neg hmem]
    rfl

theorem findParent_pays (parentCommentId : Option ObjectId) (hφ : φ.owes = none) :
    Pays φ (findParent parentCommentId) fun _ φ' => φ'.owes = none := by
  cases parentCommentId with
  | none => exact hφ
  | some parentCommentId =>
    apply pays_run (c := .findComment parentCommentId)
    · exact hφ
    intro _ s
    dsimp only
    split
    · exact hφ
    · exact hφ

theorem highlights_pays (asked : Bool) (parentId : Option ObjectId) (hφ : φ.owes = none) :
    Pays φ (highlights userId asked parentId) fun _ φ' => φ'.owes = none := by
  unfold highlights
  split
  · apply pays_run (c := .vipActive userId)
    · exact hφ
    intro vipActive _
    dsimp only
    split
    · exact hφ
    · exact hφ
  · exact hφ

theorem postComment_pays (trimmed : Text) (parentCommentId : Option ObjectId)
    (isVipHighlighted : Bool) :
    Pays Phase.start (postComment userId trimmed parentCommentId isVipHighlighted)
      fun _ φ => φ.owes = none := by
  unfold postComment
  apply pays_run (c := .findMoment)
  · rfl
  intro _ moment
  dsimp only
  split
  · rfl
  apply pays_run (c := .engagementAccess userId)
  · rfl
  intro access _
  split
  · rfl
  apply follows_bind
  apply (findParent_pays parentCommentId rfl).mono _ fun _ _ h => h
  intro parentId φ hφ
  apply follows_bind
  apply (highlights_pays userId isVipHighlighted parentId hφ).mono _ fun _ _ h => h
  intro highlighted φ hφ
  apply pays_run (c := .createComment userId trimmed parentId highlighted)
  · exact hφ
  intro r s
  by_cases htaken : (s.comments.get r.id).isSome = true
  · have hsame : φ.after (.createComment userId trimmed parentId highlighted) r s = φ :=
      if_neg fun h => by simp [Option.isNone_iff_eq_none.1 h.1] at htaken
    rw [if_pos htaken, hsame]
    exact hφ
  rw [if_neg htaken]
  have hfree : (s.comments.get r.id).isNone = true := by simpa using htaken
  by_cases htop : parentId.isNone = true
  · have howes : φ.after (.createComment userId trimmed parentId highlighted) r s =
        φ.owe .comments 1 := if_pos ⟨hfree, htop⟩
    rw [if_pos htop, howes]
    apply pays_run (c := .incComments 1)
    · rfl
    intro _ _
    apply pays_run (c := .resolveAuthors)
    · rfl
    intro _ _
    rfl
  · have hsame : φ.after (.createComment userId trimmed parentId highlighted) r s = φ :=
      if_neg fun h => htop h.2
    rw [if_neg htop, hsame]
    apply pays_run (c := .resolveAuthors)
    · exact hφ
    intro _ _
    exact hφ

theorem createMomentComment_pays (text : Text) (parentCommentId : Option ObjectId)
    (isVipHighlighted : Bool) :
    Pays Phase.start (createMomentComment userId text parentCommentId isVipHighlighted)
      fun _ φ => φ.owes = none := by
  unfold createMomentComment
  extract_lets trimmed
  split
  · rfl
  split
  · rfl
  exact postComment_pays userId trimmed parentCommentId isVipHighlighted

theorem liveComment_id (h : s.liveComment commentId = some d) : d.id = commentId :=
  (Unique.mem_of_get (Option.filter_eq_some_iff.1 h).1).2

theorem deleteMomentComment_pays (userId commentId : ObjectId) :
    Pays Phase.start (deleteMomentComment userId commentId) fun _ φ => φ.owes = none := by
  unfold deleteMomentComment
  apply pays_run (c := .findMoment)
  · rfl
  intro _ moment
  dsimp only
  split
  · rfl
  apply pays_run (c := .findComment commentId)
  · rfl
  intro r s
  cases hread : s.liveComment commentId with
  | none => rfl
  | some comment =>
    have hafter : Phase.start.after (.findComment commentId) r s = ⟨some comment, none⟩ := by
      rw [Phase.after, hread]
      rfl
    show Pays (Phase.start.after (.findComment commentId) r s) _ _
    rw [hafter]
    apply pays_run (c := .ownsMoment userId)
    · rfl
    intro isOwner _
    split
    · rfl
    apply pays_run (c := .deleteComment commentId)
    · exact ⟨rfl, congrArg some (liveComment_id hread)⟩
    intro r' s'
    by_cases htop : comment.parentCommentId.isNone = true
    · have howes : Phase.after ⟨some comment, none⟩ (.deleteComment commentId) r' s' =
          ⟨some comment, some (.comments, -1)⟩ := if_pos htop
      rw [if_pos htop]
      show Pays (Phase.after ⟨some comment, none⟩ (.deleteComment commentId) r' s') _ _
      rw [howes]
      apply pays_run (c := .incComments (-1))
      · rfl
      intro _ _
      apply pays_run (c := .findMoment)
      · rfl
      intro _ updated
      split
      · apply pays_run (c := .clampComments)
        · rfl
        intro _ _
        rfl
      · rfl
    · have hsame : Phase.after ⟨some comment, none⟩ (.deleteComment commentId) r' s' =
          ⟨some comment, none⟩ := if_neg htop
      rw [if_neg htop]
      show Pays (Phase.after ⟨some comment, none⟩ (.deleteComment commentId) r' s') _ _
      rw [hsame]
      rfl

theorem likeMomentComment_pays (userId commentId : ObjectId) :
    Pays Phase.start (likeMomentComment userId commentId) fun _ φ => φ.owes = none := by
  unfold likeMomentComment
  apply pays_run (c := .findMoment)
  · rfl
  intro _ moment
  dsimp only
  split
  · rfl
  apply pays_run (c := .engagementAccess userId)
  · rfl
  intro access _
  split
  · rfl
  apply pays_run (c := .findComment commentId)
  · rfl
  intro r s
  cases hread : s.liveComment commentId with
  | none => rfl
  | some comment =>
    have hafter : Phase.start.after (.findComment commentId) r s = ⟨some comment, none⟩ := by
      rw [Phase.after, hread]
      rfl
    show Pays (Phase.start.after (.findComment commentId) r s) _ _
    rw [hafter]
    apply pays_run (c := .findCommentLike commentId userId)
    · rfl
    intro _ s'
    split
    · rfl
    apply pays_run (c := .createCommentLike commentId userId)
    · exact ⟨rfl, congrArg some (liveComment_id hread)⟩
    intro r' t
    show Pays (Phase.after ⟨some comment, none⟩ (.createCommentLike commentId userId) r' t) _ _
    by_cases hmem : (commentId, userId) ∈ t.commentLikes
    · rw [if_pos hmem, Phase.after, if_pos hmem]
      rfl
    · rw [if_neg hmem, Phase.after, if_neg hmem]
      apply pays_run (c := .incCommentLikes commentId 1)
      · exact ⟨rfl, congrArg some (liveComment_id hread)⟩
      intro _ _
      rfl

theorem unlikeMomentComment_pays (userId commentId : ObjectId) :
    Pays Phase.start (unlikeMomentComment userId commentId) fun _ φ => φ.owes = none := by
  apply pays_run (c := .findComment commentId)
  · rfl
  intro r s
  dsimp only
  cases hread : s.liveComment commentId with
  | none => rfl
  | some comment =>
    have hafter : Phase.start.after (.findComment commentId) r s = ⟨some comment, none⟩ := by
      rw [Phase.after, hread]
      rfl
    rw [hafter]
    apply pays_run (c := .deleteCommentLike commentId userId)
    · exact ⟨rfl, congrArg some (liveComment_id hread)⟩
    intro r' t
    by_cases hmem : (commentId, userId) ∈ t.commentLikes
    · show Pays (Phase.after ⟨some comment, none⟩ (.deleteCommentLike commentId userId) r' t)
        (if (commentId, userId) ∉ t.commentLikes then _ else _) _
      rw [if_neg (not_not.2 hmem), Phase.after, if_pos hmem]
      apply pays_run (c := .incCommentLikes commentId (-1))
      · exact ⟨rfl, congrArg some (liveComment_id hread)⟩
      intro _ t'
      split
      · apply pays_run (c := .clampCommentLikes commentId)
        · rfl
        intro _ _
        rfl
      · rfl
    · show Pays (Phase.after ⟨some comment, none⟩ (.deleteCommentLike commentId userId) r' t)
        (if (commentId, userId) ∉ t.commentLikes then _ else _) _
      rw [if_pos hmem, Phase.after, if_neg hmem]
      rfl

theorem program_pays (q : Request) :
    (program q).Follows (guarded Permits Phase.next) .start fun _ φ => φ.owes = none := by
  cases q with
  | like userId => exact (likeMoment_pays userId).run_of
  | unlike userId => exact (unlikeMoment_pays userId).run_of
  | comment userId text parentCommentId isVipHighlighted =>
    exact (createMomentComment_pays userId text parentCommentId isVipHighlighted).run_of
  | deleteComment userId commentId => exact (deleteMomentComment_pays userId commentId).run_of
  | likeComment userId commentId => exact (likeMomentComment_pays userId commentId).run_of
  | unlikeComment userId commentId => exact (unlikeMomentComment_pays userId commentId).run_of

end protocol

/-! ### Steps -/

/-- A write is executed and answered, a comment that is removed is still there, and a counter
that is set to zero is zero. -/
def Sound (e : Event Cmd Reply Engagement) : Prop :=
  match e.cmd with
  | .createLike _ | .deleteLike _ | .incLikes _ | .createComment .. | .incComments _
  | .createCommentLike .. | .deleteCommentLike .. | .incCommentLikes .. => e.ans.ok = true
  | .deleteComment commentId =>
    e.ans.ok = true ∧ (e.before.comments.get commentId).any (!·.isDeleted) = true
  | .clampLikes => e.before.likesCount = 0
  | .clampComments => e.before.commentsCount = 0
  | .clampCommentLikes commentId => e.before.commentLikesCount commentId = 0
  | _ => True

instance : DecidablePred Sound := fun e => by
  unfold Sound
  cases e.cmd <;> infer_instance

def Knows (φ : Phase) (s : Engagement) : Prop :=
  ∀ d, φ.comment = some d → ∃ d', s.comments.get d.id = some d' ∧
    d'.parentCommentId = d.parentCommentId ∧ d'.momentId = s.momentId

def Keeps (s t : Engagement) : Prop :=
  t.momentId = s.momentId ∧ ∀ id d, s.comments.get id = some d → ∃ d', t.comments.get id = some d' ∧
    d'.parentCommentId = d.parentCommentId ∧ d'.momentId = d.momentId

theorem Keeps.refl (s : Engagement) : Keeps s s := ⟨rfl, fun _ d hd => ⟨d, hd, rfl, rfl⟩⟩

variable {f : MomentComment → MomentComment}

theorem keeps_update (s : Engagement) (commentId : ObjectId) (hid : ∀ d, (f d).id = d.id)
    (hparent : ∀ d, (f d).parentCommentId = d.parentCommentId)
    (hmoment : ∀ d, (f d).momentId = d.momentId) : Keeps s (s.updateComment commentId f) := by
  refine ⟨rfl, fun id d hd => ?_⟩
  show ∃ d', (s.comments.update commentId f).get id = some d' ∧ _
  rw [Unique.get_update hid, hd]
  by_cases heq : commentId = id
  · rw [if_pos heq]
    exact ⟨f d, rfl, hparent d, hmoment d⟩
  · rw [if_neg heq]
    exact ⟨d, rfl, rfl, rfl⟩

theorem effect_keeps (c : Cmd) (r : Reply) (s : Engagement) : Keeps s (c.effect r s) := by
  cases c with
  | createComment authorUserId text parentCommentId isVipHighlighted =>
    refine ⟨rfl, fun id d hd => ?_⟩
    generalize hnew : newComment s r authorUserId text parentCommentId isVipHighlighted = d₀
    show ∃ d', (s.comments.insert (newComment s r authorUserId text parentCommentId
      isVipHighlighted)).get id = some d' ∧ _
    rw [hnew]
    cases hget : s.comments.get d₀.id with
    | some d₁ =>
      rw [Unique.insert_of_get hget]
      exact ⟨d, hd, rfl, rfl⟩
    | none =>
      rw [Unique.get_insert hget]
      by_cases heq : d₀.id = id
      · simp [← heq, hget] at hd
      · simpa [heq] using ⟨d, hd, rfl, rfl⟩
  | deleteComment commentId => exact keeps_update s commentId (fun _ => rfl) (fun _ => rfl) fun _ => rfl
  | incCommentLikes commentId n =>
    exact keeps_update s commentId (fun _ => rfl) (fun _ => rfl) fun _ => rfl
  | clampCommentLikes commentId =>
    exact keeps_update s commentId (fun _ => rfl) (fun _ => rfl) fun _ => rfl
  | _ => exact Keeps.refl s

theorem exec_keeps (c : Cmd) (r : Reply) (s : Engagement) : Keeps s (c.exec r s) := by
  rw [Cmd.exec]
  split
  · exact effect_keeps c r s
  · exact Keeps.refl s

variable {φ : Phase}

theorem Knows.keeps {t : Engagement} (h : Knows φ s) (hk : Keeps s t) : Knows φ t := by
  intro d hd
  obtain ⟨d', hd', hparent, hmoment⟩ := h d hd
  obtain ⟨d'', hd'', hparent', hmoment'⟩ := hk.2 d.id d' hd'
  exact ⟨d'', hd'', hparent'.trans hparent, hmoment'.trans (hmoment.trans hk.1.symm)⟩

theorem knows_liveComment (s : Engagement) (commentId : ObjectId) (owes : Option (Counter × ℤ)) :
    Knows ⟨s.liveComment commentId, owes⟩ s := by
  intro d hd
  obtain ⟨hget, hlive⟩ := Option.filter_eq_some_iff.1 hd
  obtain ⟨-, hid⟩ := Unique.mem_of_get hget
  rw [Bool.and_eq_true, beq_iff_eq] at hlive
  exact ⟨d, hid ▸ hget, rfl, hlive.1⟩

theorem Knows.next (h : Knows φ s) (c : Cmd) (r : Reply) : Knows (φ.next c r s) s := by
  have hsame : ∀ φ' : Phase, φ'.comment = φ.comment → Knows φ' s := by
    intro φ' heq d hd
    rw [heq] at hd
    exact h d hd
  rw [Phase.next]
  split
  · cases c with
    | findComment commentId => exact knows_liveComment s commentId φ.owes
    | _ =>
      apply hsame
      dsimp only [Phase.after, Phase.owe, Phase.settle]
      try split
      all_goals rfl
  · exact hsame _ rfl

theorem due_of_none (h : φ.owes = none) (k : Counter) : φ.owes.due k = 0 := by
  rw [h, Debt.due_paid]

theorem due_of_some {k : Counter} {n : ℤ} (h : φ.owes = some (k, n)) (k' : Counter) :
    φ.owes.due k' = if k = k' then n else 0 := by
  rw [h, Debt.due_owe]

theorem due_owe (φ : Phase) (k : Counter) (n : ℤ) (k' : Counter) :
    (φ.owe k n).owes.due k' = if k = k' then n else 0 := rfl

theorem due_settle (φ : Phase) (k : Counter) : φ.settle.owes.due k = 0 := rfl

/-! #### Likes -/

section gaps

variable (s : Engagement) (k : Counter)

variable {userId : ObjectId}

theorem gap_createLike (h : userId ∉ s.likes) :
    ({ s with likes := insert userId s.likes } : Engagement).gap k =
      s.gap k + if Counter.likes = k then 1 else 0 := by
  cases k with
  | likes =>
    show ((insert userId s.likes).card : ℤ) - s.likesCount = _
    rw [Finset.card_insert_of_notMem h, if_pos rfl]
    push_cast
    show _ = ((s.likes.card : ℤ) - s.likesCount) + 1
    ring
  | _ => exact (add_zero _).symm

theorem gap_deleteLike (h : userId ∈ s.likes) :
    ({ s with likes := s.likes.erase userId } : Engagement).gap k =
      s.gap k + if Counter.likes = k then -1 else 0 := by
  cases k with
  | likes =>
    have hcard := Finset.card_erase_add_one h
    show ((s.likes.erase userId).card : ℤ) - s.likesCount =
      ((s.likes.card : ℤ) - s.likesCount) + -1
    omega
  | _ => exact (add_zero _).symm

theorem gap_likesCount (likesCount score : ℤ) :
    ({ s with likesCount := likesCount, engagementScore := score } : Engagement).gap k =
      s.gap k + if Counter.likes = k then s.likesCount - likesCount else 0 := by
  cases k with
  | likes =>
    show (s.likes.card : ℤ) - likesCount =
      ((s.likes.card : ℤ) - s.likesCount) + (s.likesCount - likesCount)
    ring
  | _ => exact (add_zero _).symm

theorem gap_commentsCount (commentsCount score : ℤ) :
    ({ s with commentsCount := commentsCount, engagementScore := score } : Engagement).gap k =
      s.gap k + if Counter.comments = k then s.commentsCount - commentsCount else 0 := by
  cases k with
  | comments =>
    show (s.liveTopLevel : ℤ) - commentsCount =
      ((s.liveTopLevel : ℤ) - s.commentsCount) + (s.commentsCount - commentsCount)
    ring
  | _ => exact (add_zero _).symm

theorem gap_updateComment (hid : ∀ d, (f d).id = d.id) (hd : s.comments.get commentId = some d) :
    (s.updateComment commentId f).gap k = s.gap k +
      ((if Counter.comments = k then ((s.counts (f d)).toNat : ℤ) - (s.counts d).toNat else 0) +
        if Counter.commentLikes commentId = k then d.likesCount - (f d).likesCount else 0) := by
  cases k with
  | likes => exact (add_zero _).symm
  | comments =>
    have hcount := Unique.countP_update hid hd s.counts
    rw [if_pos rfl, if_neg Counter.noConfusion]
    show (((s.comments.update commentId f).rows.countP s.counts : ℕ) : ℤ) - s.commentsCount =
      ((s.comments.rows.countP s.counts : ℕ) : ℤ) - s.commentsCount + _
    omega
  | commentLikes id =>
    have hcount : (s.updateComment commentId f).commentLikesCount id =
        s.commentLikesCount id +
          if Counter.commentLikes commentId = .commentLikes id then
            (f d).likesCount - d.likesCount else 0 := by
      show (((s.comments.update commentId f).get id).map fun d => d.likesCount).getD 0 =
        ((s.comments.get id).map fun d => d.likesCount).getD 0 + _
      rw [Unique.get_update hid]
      by_cases heq : commentId = id
      · subst heq
        rw [if_pos rfl, if_pos rfl, hd]
        show (f d).likesCount = d.likesCount + _
        ring
      · simp [heq]
    show ((s.likesOf id).card : ℤ) - (s.updateComment commentId f).commentLikesCount id =
      ((s.likesOf id).card : ℤ) - s.commentLikesCount id + _
    have hother : ¬ Counter.comments = .commentLikes id := by rintro ⟨⟩
    rw [hcount, if_neg hother]
    by_cases heq : Counter.commentLikes commentId = .commentLikes id
    · rw [if_pos heq, if_pos heq]
      ring
    · rw [if_neg heq, if_neg heq]
      ring

theorem likesOf_insert (commentId userId id : ObjectId) :
    ({ s with commentLikes := insert (commentId, userId) s.commentLikes } : Engagement).likesOf id =
      if commentId = id then insert (commentId, userId) (s.likesOf id) else s.likesOf id := by
  simp [Engagement.likesOf, Finset.filter_insert]

theorem gap_createCommentLike (h : (commentId, userId) ∉ s.commentLikes) :
    ({ s with commentLikes := insert (commentId, userId) s.commentLikes } : Engagement).gap k =
      s.gap k + if Counter.commentLikes commentId = k then 1 else 0 := by
  cases k with
  | likes => exact (add_zero _).symm
  | comments => exact (add_zero _).symm
  | commentLikes id =>
    show (((_ : Engagement).likesOf id).card : ℤ) - s.commentLikesCount id =
      ((s.likesOf id).card : ℤ) - s.commentLikesCount id + _
    rw [likesOf_insert]
    by_cases heq : commentId = id
    · subst heq
      have hnew : (commentId, userId) ∉ s.likesOf commentId :=
        fun hmem => h (Finset.mem_filter.1 hmem).1
      rw [if_pos rfl, if_pos rfl, Finset.card_insert_of_notMem hnew]
      push_cast
      ring
    · simp [heq]

theorem gap_deleteCommentLike (h : (commentId, userId) ∈ s.commentLikes) :
    ({ s with commentLikes := s.commentLikes.erase (commentId, userId) } : Engagement).gap k =
      s.gap k + if Counter.commentLikes commentId = k then -1 else 0 := by
  cases k with
  | likes => exact (add_zero _).symm
  | comments => exact (add_zero _).symm
  | commentLikes id =>
    show ((((s.commentLikes.erase (commentId, userId)).filter fun row => row.1 = id).card : ℕ) : ℤ)
      - s.commentLikesCount id = ((s.likesOf id).card : ℤ) - s.commentLikesCount id + _
    rw [Finset.filter_erase]
    by_cases heq : commentId = id
    · subst heq
      have hmem : (commentId, userId) ∈ s.likesOf commentId := Finset.mem_filter.2 ⟨h, rfl⟩
      have hcard := Finset.card_erase_add_one hmem
      rw [if_pos rfl]
      show (((s.likesOf commentId).erase (commentId, userId)).card : ℤ) - _ = _
      omega
    · have hnot : (commentId, userId) ∉ s.commentLikes.filter fun row => row.1 = id :=
        fun hmem => heq (Finset.mem_filter.1 hmem).2
      rw [Finset.erase_eq_of_notMem hnot, if_neg fun hk => heq (Counter.commentLikes.inj hk),
        add_zero]
      rfl

theorem gap_createComment (hnew : s.comments.get d.id = none) (hlikes : d.likesCount = 0) :
    ({ s with comments := s.comments.insert d } : Engagement).gap k =
      s.gap k + if Counter.comments = k then ((s.counts d).toNat : ℤ) else 0 := by
  cases k with
  | likes => exact (add_zero _).symm
  | comments =>
    have hcount := Unique.countP_insert hnew s.counts
    rw [if_pos rfl]
    show (((s.comments.insert d).rows.countP s.counts : ℕ) : ℤ) - s.commentsCount =
      ((s.comments.rows.countP s.counts : ℕ) : ℤ) - s.commentsCount + _
    omega
  | commentLikes id =>
    have hcount : ({ s with comments := s.comments.insert d } : Engagement).commentLikesCount id =
        s.commentLikesCount id := by
      show (((s.comments.insert d).get id).map fun d => d.likesCount).getD 0 =
        ((s.comments.get id).map fun d => d.likesCount).getD 0
      rw [Unique.get_insert hnew]
      by_cases heq : d.id = id
      · rw [if_pos heq, ← heq, hnew]
        exact hlikes
      · rw [if_neg heq]
    show ((s.likesOf id).card : ℤ) -
      ({ s with comments := s.comments.insert d } : Engagement).commentLikesCount id = _
    have hother : ¬ Counter.comments = .commentLikes id := by rintro ⟨⟩
    rw [hcount, if_neg hother, add_zero]
    rfl

end gaps

variable {r : Reply}

theorem next_owes_none (h : (φ.after c r s).owes = none) : (φ.next c r s).owes = none := by
  rw [Phase.next]
  split
  · exact h
  · rfl

theorem exec_gap {k : Counter} (h : (c.effect r s).gap k = s.gap k) :
    (c.exec r s).gap k = s.gap k := by
  rw [Cmd.exec]
  split
  · exact h
  · rfl

theorem Knows.stored (h : Knows φ s) (hread : φ.comment.map (·.id) = some commentId) :
    ∃ d d', φ.comment = some d ∧ s.comments.get commentId = some d' ∧
      d'.parentCommentId = d.parentCommentId ∧ d'.momentId = s.momentId := by
  obtain ⟨d, hd, rfl⟩ := Option.map_eq_some_iff.1 hread
  obtain ⟨d', hd', hparent, hmoment⟩ := h d hd
  exact ⟨d, d', hd, hd', hparent, hmoment⟩

/-- **What a command changes.**  The gap of a counter moves as far as what the request owes it. -/
theorem gap_step (hA : Permits φ c) (hknows : Knows φ s) (hsound : Sound ⟨s, c, r, c.exec r s⟩)
    (k : Counter) : (c.exec r s).gap k = s.gap k + ((φ.next c r s).owes.due k - φ.owes.due k) := by
  have hok : r.ok = true → c.exec r s = c.effect r s ∧ φ.next c r s = φ.after c r s := by
    intro hr
    constructor
    · rw [Cmd.exec, hr, Bool.true_or, if_pos rfl]
    · rw [Phase.next, if_pos hr]
  -- a command that leaves the gaps, from a request that owes nothing
  have hidle : (c.effect r s).gap k = s.gap k → φ.owes = none → (φ.after c r s).owes = none →
      (c.exec r s).gap k = s.gap k + ((φ.next c r s).owes.due k - φ.owes.due k) := by
    intro hgap hnone hnone'
    rw [exec_gap hgap, due_of_none hnone, due_of_none (next_owes_none hnone'), sub_zero,
      add_zero]
  cases c with
  | createLike userId =>
    obtain ⟨hexec, hnext⟩ := hok hsound
    by_cases hmem : userId ∈ s.likes
    · apply hidle _ hA
      · rw [Phase.after, if_pos hmem]
        exact hA
      · rw [Cmd.effect, Finset.insert_eq_of_mem hmem]
    · rw [hexec, hnext, Phase.after, if_neg hmem, due_owe, due_of_none hA, sub_zero]
      exact gap_createLike s k hmem
  | deleteLike userId =>
    obtain ⟨hexec, hnext⟩ := hok hsound
    by_cases hmem : userId ∈ s.likes
    · rw [hexec, hnext, Phase.after, if_pos hmem, due_owe, due_of_none hA, sub_zero]
      exact gap_deleteLike s k hmem
    · apply hidle _ hA
      · rw [Phase.after, if_neg hmem]
        exact hA
      · rw [Cmd.effect, Finset.erase_eq_of_notMem hmem]
  | incLikes n =>
    obtain ⟨hexec, hnext⟩ := hok hsound
    rw [hexec, hnext, Phase.after, due_settle, due_of_some hA, Cmd.effect, gap_likesCount]
    split <;> ring
  | clampLikes =>
    have hzero : s.likesCount = 0 := hsound
    apply hidle _ hA hA
    have hgap := gap_likesCount s k 0 s.engagementScore
    rw [hzero, sub_zero, ite_self, add_zero] at hgap
    exact hgap
  | createComment authorUserId text parentCommentId isVipHighlighted =>
    obtain ⟨hexec, hnext⟩ := hok hsound
    generalize hd : newComment s r authorUserId text parentCommentId isVipHighlighted = d
    have hid : d.id = r.id := by rw [← hd]; rfl
    cases hget : s.comments.get r.id with
    | some d₁ =>
      have htaken : s.comments.insert d = s.comments := Unique.insert_of_get (hid ▸ hget)
      apply hidle _ hA
      · rw [Phase.after, if_neg (by simp [hget])]
        exact hA
      · rw [Cmd.effect, hd, htaken]
    | none =>
      have hlikes : d.likesCount = 0 := by rw [← hd]; rfl
      have hgap := gap_createComment s k (hid.symm ▸ hget) hlikes
      have hcounts : s.counts d = parentCommentId.isNone := by
        rw [← hd]
        show (s.momentId == s.momentId && parentCommentId.isNone && !false) = _
        simp
      rw [hcounts] at hgap
      rw [hexec, hnext, Cmd.effect, hd, hgap, Phase.after, due_of_none hA, hget]
      cases parentCommentId with
      | none =>
        have htop : (none : Option MomentComment).isNone = true ∧
            (none : Option ObjectId).isNone = true := ⟨rfl, rfl⟩
        simp [due_owe]
      | some parentId =>
        have hreply : ¬ ((none : Option MomentComment).isNone = true ∧
            (some parentId).isNone = true) := fun h => Bool.noConfusion h.2
        rw [if_neg hreply, due_of_none hA, sub_zero, add_zero]
        show s.gap k + (if Counter.comments = k then 0 else 0) = s.gap k
        rw [ite_self, add_zero]
  | deleteComment commentId =>
    obtain ⟨hr, hstill⟩ := hsound
    obtain ⟨hexec, hnext⟩ := hok hr
    obtain ⟨hnone, hread⟩ := hA
    obtain ⟨d, d', hd, hd', hparent, hmoment⟩ := hknows.stored hread
    have hlive : d'.isDeleted = false := by simpa [hd'] using hstill
    have hgap := gap_updateComment s k (f := fun d => { d with isDeleted := true })
      (fun _ => rfl) hd'
    have hbefore : s.counts d' = d.parentCommentId.isNone := by
      rw [Engagement.counts, hmoment, hlive, hparent]
      simp
    have hafter : s.counts { d' with isDeleted := true } = false := by
      simp [Engagement.counts]
    rw [hbefore, hafter] at hgap
    rw [hexec, hnext, Cmd.effect, hgap, Phase.after, due_of_none hnone, hd, Option.any_some]
    cases hp : d.parentCommentId.isNone with
    | true =>
      rw [if_pos rfl, due_owe]
      simp
    | false =>
      simp [due_of_none hnone]
  | incComments n =>
    obtain ⟨hexec, hnext⟩ := hok hsound
    rw [hexec, hnext, Phase.after, due_settle, due_of_some hA, Cmd.effect, gap_commentsCount]
    split <;> ring
  | clampComments =>
    have hzero : s.commentsCount = 0 := hsound
    apply hidle _ hA hA
    have hgap := gap_commentsCount s k 0 s.engagementScore
    rw [hzero, sub_zero, ite_self, add_zero] at hgap
    exact hgap
  | createCommentLike commentId userId =>
    obtain ⟨hexec, hnext⟩ := hok hsound
    by_cases hmem : (commentId, userId) ∈ s.commentLikes
    · apply hidle _ hA.1
      · rw [Phase.after, if_pos hmem]
        exact hA.1
      · rw [Cmd.effect, Finset.insert_eq_of_mem hmem]
    · rw [hexec, hnext, Phase.after, if_neg hmem, due_owe, due_of_none hA.1, sub_zero]
      exact gap_createCommentLike s k hmem
  | deleteCommentLike commentId userId =>
    obtain ⟨hexec, hnext⟩ := hok hsound
    by_cases hmem : (commentId, userId) ∈ s.commentLikes
    · rw [hexec, hnext, Phase.after, if_pos hmem, due_owe, due_of_none hA.1, sub_zero]
      exact gap_deleteCommentLike s k hmem
    · apply hidle _ hA.1
      · rw [Phase.after, if_neg hmem]
        exact hA.1
      · rw [Cmd.effect, Finset.erase_eq_of_notMem hmem]
  | incCommentLikes commentId n =>
    obtain ⟨hexec, hnext⟩ := hok hsound
    obtain ⟨d, d', -, hd', -, -⟩ := hknows.stored hA.2
    have hgap := gap_updateComment s k
      (f := fun d => { d with likesCount := d.likesCount + n }) (fun _ => rfl) hd'
    have hcounts : s.counts { d' with likesCount := d'.likesCount + n } = s.counts d' := rfl
    rw [hcounts, sub_self, ite_self, zero_add] at hgap
    rw [hexec, hnext, Cmd.effect, hgap, Phase.after, due_settle, due_of_some hA.1]
    split <;> ring
  | clampCommentLikes commentId =>
    have hzero : s.commentLikesCount commentId = 0 := hsound
    apply hidle _ hA hA
    cases hget : s.comments.get commentId with
    | none =>
      have hsame : s.comments.update commentId (fun d => { d with likesCount := 0 }) =
          s.comments := by rw [Unique.update, hget]
      rw [Cmd.effect, Engagement.updateComment, hsame]
    | some d =>
      have hgap := gap_updateComment s k (f := fun d => { d with likesCount := 0 })
        (fun _ => rfl) hget
      have hcounts : s.counts { d with likesCount := 0 } = s.counts d := rfl
      have hd : d.likesCount = 0 := by
        simpa [Engagement.commentLikesCount, hget] using hzero
      rw [hcounts, sub_self, ite_self, zero_add, hd, sub_self, ite_self, add_zero] at hgap
      exact hgap
  | findMoment | engagementAccess | findLike | findComment | ownsMoment | vipActive
  | resolveAuthors | findCommentLike => exact hidle rfl hA hA

def Engagement.scoreGap (s : Engagement) : ℤ :=
  s.engagementScore -
    (s.likesCount * engagementLikeWeight + s.commentsCount * engagementCommentWeight)

theorem scoreGap_step (hsound : Sound ⟨s, c, r, c.exec r s⟩) :
    (c.exec r s).scoreGap = s.scoreGap := by
  have heffect : (c.effect r s).scoreGap = s.scoreGap := by
    cases c with
    | incLikes n =>
      show s.engagementScore + n * engagementLikeWeight -
        ((s.likesCount + n) * engagementLikeWeight + s.commentsCount * engagementCommentWeight) = _
      rw [Engagement.scoreGap]
      ring
    | incComments n =>
      show s.engagementScore + n * engagementCommentWeight -
        (s.likesCount * engagementLikeWeight + (s.commentsCount + n) * engagementCommentWeight) = _
      rw [Engagement.scoreGap]
      ring
    | clampLikes =>
      have hzero : s.likesCount = 0 := hsound
      rw [Engagement.scoreGap, Engagement.scoreGap, hzero]
      rfl
    | clampComments =>
      have hzero : s.commentsCount = 0 := hsound
      rw [Engagement.scoreGap, Engagement.scoreGap, hzero]
      rfl
    | _ => rfl
  rw [Cmd.exec]
  split
  · exact heffect
  · rfl

/-! ### Runs -/

/-- Counters are behind by what is owed, and the requests know their comments. -/
structure Owing (φs : List Phase) (s : Engagement) : Prop where
  gap : ∀ k, s.gap k = due Phase.owes φs k
  knows : ∀ φ ∈ φs, Knows φ s
  score : s.scoreGap = 0

theorem Owing.start (h : s.Counted) : Owing [] s := by
  refine ⟨?_, fun φ hφ => absurd hφ List.not_mem_nil, ?_⟩
  · intro k
    show s.gap k = 0
    cases k with
    | likes => exact sub_eq_zero.2 h.likes.symm
    | comments => exact sub_eq_zero.2 h.comments.symm
    | commentLikes id =>
      apply sub_eq_zero.2
      rw [Engagement.commentLikesCount]
      cases hget : s.comments.get id with
      | some d =>
        obtain ⟨hmem, rfl⟩ := Unique.mem_of_get hget
        exact (h.commentLikes d hmem).symm
      | none =>
        have hempty : s.likesOf id = ∅ := by
          apply Finset.filter_eq_empty_iff.2
          rintro row hrow rfl
          have hsome := h.ofComments row hrow
          simp [hget] at hsome
        rw [hempty]
        rfl
  · rw [Engagement.scoreGap, h.score, sub_self]

theorem Owing.spawn {φs : List Phase} (h : Owing φs s) : Owing (φs ++ [.start]) s := by
  refine ⟨?_, ?_, h.score⟩
  · intro k
    rw [h.gap k, due_append]
    rfl
  · apply forall_snoc h.knows
    intro d hd
    cases hd

theorem Owing.step {φs : List Phase} {i : ℕ} (h : Owing φs s) (hi : φs[i]? = some φ)
    (hA : Permits φ c) (hsound : Sound ⟨s, c, r, c.exec r s⟩) :
    Owing (φs.set i (φ.next c r s)) (c.exec r s) := by
  have hknows := h.knows φ (List.mem_of_getElem? hi)
  have hkeeps := exec_keeps c r s
  refine ⟨?_, ?_, ?_⟩
  · intro k
    rw [gap_step hA hknows hsound k, due_set hi, h.gap k]
  · apply forall_set
    · exact fun φ' hφ' => (h.knows φ' hφ').keeps hkeeps
    · exact (hknows.next c r).keeps hkeeps
  · rw [scoreGap_step hsound, h.score]

def engagementRun (s : Engagement) (ms : List (Move Request Reply)) : Pool Cmd Reply Engagement :=
  (start s).play Cmd.exec program ms

def returned : Prog Cmd Reply Engagement Unit → Bool
  | .ret _ => true
  | .act .. => false

def Completed (w : Pool Cmd Reply Engagement) : Prop := ∀ p ∈ w.procs, returned p = true

instance : DecidablePred Completed := fun _ => inferInstanceAs (Decidable (∀ p ∈ _, _ = true))

theorem owing_run (h : s.Counted) (ms : List (Move Request Reply))
    (hsound : ∀ e ∈ (engagementRun s ms).log, Sound e) :
    ∃ φs, InPhases (guarded Permits Phase.next) (fun φ => φ.owes = none) φs
        (engagementRun s ms).procs ∧ Owing φs (engagementRun s ms).store := by
  have hprog : ∀ q, (program q).Follows (guarded Permits Phase.next)
      ((fun _ : Request => Phase.start) q) fun _ φ => φ.owes = none := program_pays
  apply play_protocol (fun φs _ s => Owing φs s) Sound hprog
    (Owing.start h) (fun _ _ _ _ h => h.spawn) _ ms hsound
  intro φs l t i φ c r φ' hJ hi hδ hG
  obtain ⟨hA, rfl⟩ := guarded_eq_some hδ
  exact hJ.step hi hA hG

theorem owes_returned {p : Prog Cmd Reply Engagement Unit} (h : returned p = true)
    (hp : p.Follows (guarded Permits Phase.next) φ fun _ φ => φ.owes = none) : φ.owes = none := by
  cases p with
  | ret _ => exact hp
  | act _ _ => cases h

structure Settled (s : Engagement) : Prop where
  counted : s.Counted
  likes_nonneg : 0 ≤ s.likesCount
  comments_nonneg : 0 ≤ s.commentsCount
  commentLikes_nonneg : ∀ d ∈ s.comments.rows, 0 ≤ d.likesCount
  score_nonneg : 0 ≤ s.engagementScore

theorem settled_of_gap (h : ∀ k, s.gap k = 0) (hscore : s.scoreGap = 0) : Settled s := by
  have hlikes : s.likesCount = s.likes.card := (sub_eq_zero.1 (h .likes)).symm
  have hcomments : s.commentsCount = s.liveTopLevel := (sub_eq_zero.1 (h .comments)).symm
  have hscore' := sub_eq_zero.1 hscore
  have hcommentLikes : ∀ d ∈ s.comments.rows, d.likesCount = (s.likesOf d.id).card := by
    intro d hd
    have hgap : ((s.likesOf d.id).card : ℤ) = s.commentLikesCount d.id :=
      sub_eq_zero.1 (h (.commentLikes d.id))
    rw [hgap, Engagement.commentLikesCount, Unique.get_of_mem hd]
    rfl
  have hof : ∀ row ∈ s.commentLikes, (s.comments.get row.1).isSome := by
    intro row hrow
    cases hget : s.comments.get row.1 with
    | some d => rfl
    | none =>
      have hgap : ((s.likesOf row.1).card : ℤ) = s.commentLikesCount row.1 :=
        sub_eq_zero.1 (h (.commentLikes row.1))
      have hmem : row ∈ s.likesOf row.1 := Finset.mem_filter.2 ⟨hrow, rfl⟩
      have hpos := Finset.card_pos.2 ⟨row, hmem⟩
      rw [Engagement.commentLikesCount, hget] at hgap
      simp only [Option.map_none, Option.getD_none] at hgap
      omega
  refine ⟨⟨hlikes, hcomments, hcommentLikes, hof, hscore'⟩, ?_, ?_, ?_, ?_⟩
  · rw [hlikes]
    exact Int.natCast_nonneg _
  · simp [hcomments]
  · intro d hd
    simp [hcommentLikes d hd]
  · rw [hscore', hlikes, hcomments, engagementLikeWeight, engagementCommentWeight]
    omega

/-- **The counters are those of the rows** when all requests have completed, in every run whose
commands are sound. -/
theorem counted_run (s : Engagement) (h : s.Counted) (ms : List (Move Request Reply))
    (hsound : ∀ e ∈ (engagementRun s ms).log, Sound e) (hdone : Completed (engagementRun s ms)) :
    Settled (engagementRun s ms).store := by
  obtain ⟨φs, hphases, howing⟩ := owing_run h ms hsound
  apply settled_of_gap
  · intro k
    rw [howing.gap k]
    exact hphases.due_eq_zero (fun p hp φ => owes_returned (hdone p hp)) k
  · exact howing.score

def twoComments : Engagement where
  momentId := 9
  isDeleted := false
  likesCount := 1
  commentsCount := 2
  engagementScore := 5
  likes := {7}
  comments :=
    { rows :=
        [{ id := 1, momentId := 9, authorUserId := 5, text := ['h', 'i'], createdAt := 0 },
          { id := 2, momentId := 9, authorUserId := 6, text := ['y', 'o'], likesCount := 1,
            createdAt := 1 }]
      nodup := by decide +kernel }
  commentLikes := {(2, 5)}

theorem twoComments_counted : twoComments.Counted where
  likes := by decide +kernel
  comments := by decide +kernel
  commentLikes := by decide +kernel
  ofComments := by
    intro row hrow
    obtain rfl := Finset.mem_singleton.1 hrow
    decide +kernel
  score := by decide +kernel

def answered (id : ObjectId) : Reply := ⟨true, false, true, id, 2⟩

/-- User 6 likes the moment while user 7 takes the like back, and user 5 removes the own comment
while user 7 likes the other one. -/
def busyMoves : List (Move Request Reply) :=
  [.spawn (.like 6), .spawn (.unlike 7), .spawn (.deleteComment 5 1), .spawn (.likeComment 7 2)] ++
  [0, 1, 2, 3, 0, 1, 2, 3, 0, 1, 2, 3, 0, 2, 3, 0, 2, 3, 2, 3].map fun i => .step i (answered 3)

theorem counted_busy : Settled (engagementRun twoComments busyMoves).store :=
  counted_run twoComments twoComments_counted busyMoves (by decide +kernel) (by decide +kernel)

/-- The author removes the first comment twice at a time: both requests find it. -/
def twoRemovals : List (Move Request Reply) :=
  [.spawn (.deleteComment 5 1), .spawn (.deleteComment 5 1)] ++
  [0, 1, 0, 1, 0, 1, 0, 1, 0, 1, 0, 1].map fun i => .step i (answered 3)

theorem comment_deleted_twice :
    ¬ ∀ s, s.Counted → ∀ ms, Completed (engagementRun s ms) → Settled (engagementRun s ms).store := by
  intro h
  have hdone : Completed (engagementRun twoComments twoRemovals) := by decide +kernel
  have hcount := (h twoComments twoComments_counted twoRemovals hdone).counted.comments
  exact absurd hcount (by decide +kernel)

end VibemeetBackend.Moments
