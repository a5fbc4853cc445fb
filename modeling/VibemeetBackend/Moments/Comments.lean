import VibemeetBackend.Paging.Keyset
import VibemeetBackend.Moments.Store

/-!
# The comments of a moment

`listMomentComments` of `moment-engagement.service.ts`.  The first page pins the highlighted
comments; the others are listed from the newest on, a page being cut at the time of the last
comment shown.  The replies that are shown under the comments of a page come from one query for
all of them, of at most three replies for each comment on average.
-/

namespace VibemeetBackend.Moments

open Mongo Paging

/-! ### Collections -/

/-- A top-level comment has no parent; `createdAt` is in milliseconds. -/
structure MomentComment where
  id : ObjectId
  momentId : ObjectId
  authorUserId : ObjectId
  text : Text
  parentCommentId : Option ObjectId := none
  likesCount : ℤ := 0
  isVipHighlighted : Bool := false
  isDeleted : Bool := false
  createdAt : ℤ

/-- `commentLikes` are pairs of a comment and a user; `allows` is the answer of
`assertMomentEngagementAccess` for a user and a moment. -/
structure CommentStore extends Store where
  comments : Unique MomentComment.id
  commentLikes : List (ObjectId × ObjectId)
  allows : ObjectId → ObjectId → Bool

/-! ### Authors -/

structure AuthorMeta where
  name : Text
  avatarUrl : Option Text
  isCreator : Bool

def userName : Text := ['U', 's', 'e', 'r']

def displayNameForUser (user : User) : Text :=
  (trimmed user.username <|> trimmed user.email <|> trimmed user.phone).getD userName

/-- `resolveCommentAuthors`, for one author of a comment on a moment of this creator. -/
def resolveCommentAuthor (s : Store) (momentCreatorId authorId : ObjectId) : Option AuthorMeta :=
  (s.users authorId).map fun user =>
    let creator := s.creators momentCreatorId
    let isCreator := decide (creator.bind (·.userId) = some authorId)
    let creatorName := if isCreator then trimmed (creator.bind (·.name)) else none
    { name := (trimmed user.displayName <|> creatorName).getD (displayNameForUser user)
      avatarUrl := user.avatarUrl
      isCreator }

/-! ### What is sent -/

/-- A comment, with its replies in the form `ρ`. -/
structure CommentDTO (ρ : Type) where
  id : ObjectId
  authorUserId : ObjectId
  authorName : Text
  authorAvatarUrl : Option Text
  isCreator : Bool
  isVipHighlighted : Bool
  text : Text
  likesCount : ℤ
  isLiked : Bool
  parentCommentId : Option ObjectId
  replies : List ρ
  createdAt : ℤ

abbrev ReplyDTO := CommentDTO Empty

abbrev MomentCommentDTO := CommentDTO ReplyDTO

/-- The cursor is the ISO text of a time, which stands for its millisecond. -/
structure MomentCommentsPageDTO where
  pinnedHighlightedComments : Option (List MomentCommentDTO)
  items : List MomentCommentDTO
  nextCursor : Option ℤ
  hasMore : Bool

def toCommentDTO {ρ : Type} (s : CommentStore) (userId momentCreatorId : ObjectId)
    (comment : MomentComment) (replies : List ρ) : CommentDTO ρ :=
  let author :=
    (resolveCommentAuthor s.toStore momentCreatorId comment.authorUserId).getD
      ⟨userName, none, false⟩
  { id := comment.id
    authorUserId := comment.authorUserId
    authorName := author.name
    authorAvatarUrl := author.avatarUrl
    isCreator := author.isCreator
    isVipHighlighted := comment.isVipHighlighted
    text := comment.text
    likesCount := comment.likesCount
    isLiked := s.commentLikes.contains (comment.id, userId)
    parentCommentId := comment.parentCommentId
    replies
    createdAt := comment.createdAt }

def maxRepliesPreview : ℕ := 3

/-- `.sort({ createdAt: 1 })`.  Comments of one time stay as they are stored here and below, an order
that the database leaves open. -/
def sortOldest (comments : List MomentComment) : List MomentComment :=
  sortDown (fun c => OrderDual.toDual c.createdAt) comments

/-- `.sort({ createdAt: -1 })`. -/
def sortNewest (comments : List MomentComment) : List MomentComment :=
  sortDown MomentComment.createdAt comments

def findReplies (s : CommentStore) (momentId : ObjectId) (topIds : List ObjectId) :
    List MomentComment :=
  sortOldest (s.comments.rows.filter fun c =>
    c.momentId == momentId && c.parentCommentId.any topIds.contains && !c.isDeleted)

def groupReplies (replies : List MomentComment) : ObjectId → List MomentComment :=
  replies.foldl (fun byParent reply parentId =>
    let list := byParent parentId
    if reply.parentCommentId = some parentId ∧ list.length < maxRepliesPreview then list ++ [reply]
    else list) fun _ => []

def buildTopLevelCommentDTOs (s : CommentStore) (moment : CreatorMoment) (userId : ObjectId)
    (page : List MomentComment) : List MomentCommentDTO :=
  let topIds := page.map (·.id)
  let replies := (findReplies s moment.id topIds).take (topIds.length * maxRepliesPreview)
  let repliesByParent := groupReplies replies
  page.map fun comment =>
    toCommentDTO s userId moment.creatorId comment
      ((repliesByParent comment.id).map fun r => toCommentDTO s userId moment.creatorId r [])

def findTopLevel (s : CommentStore) (momentId : ObjectId) (highlighted : Bool) :
    List MomentComment :=
  sortNewest (s.comments.rows.filter fun c =>
    c.momentId == momentId && c.parentCommentId.isNone && c.isVipHighlighted == highlighted &&
      !c.isDeleted)

def pageLimit (limit : Option ℤ) : ℕ := (min (max (limit.getD 20) 1) 50).toNat

def commentsPage (s : CommentStore) (moment : CreatorMoment) (userId : ObjectId)
    (limit : Option ℤ) (cursor : Option ℤ) : MomentCommentsPageDTO :=
  let limit := pageLimit limit
  let pinned :=
    if cursor.isNone then
      let highlighted := findTopLevel s moment.id true
      if 0 < highlighted.length then some (buildTopLevelCommentDTOs s moment userId highlighted)
      else none
    else none
  let topLevel :=
    ((findTopLevel s moment.id false).filter fun c => cursor.all (c.createdAt < ·)).take (limit + 1)
  let hasMore := decide (limit < topLevel.length)
  let page := if hasMore then topLevel.take limit else topLevel
  { pinnedHighlightedComments := pinned
    items := buildTopLevelCommentDTOs s moment userId page
    nextCursor := if hasMore then page.getLast?.map (·.createdAt) else none
    hasMore }

def listMomentComments (s : CommentStore) (userId momentId : ObjectId) (limit cursor : Option ℤ) :
    Except String MomentCommentsPageDTO :=
  match s.moments.get momentId with
  | none => .error "NOT_FOUND"
  | some moment =>
    if moment.isDeleted then .error "NOT_FOUND"
    else if !s.allows userId momentId then .error "FORBIDDEN"
    else .ok (commentsPage s moment userId limit cursor)

structure Reader (s : CommentStore) where
  userId : ObjectId
  moment : CreatorMoment
  found : s.moments.get moment.id = some moment
  live : moment.isDeleted = false
  allowed : s.allows userId moment.id = true

theorem listMomentComments_eq {s : CommentStore} (r : Reader s) (limit cursor : Option ℤ) :
    listMomentComments s r.userId r.moment.id limit cursor =
      .ok (commentsPage s r.moment r.userId limit cursor) := by
  rw [listMomentComments, r.found]
  show (if r.moment.isDeleted = true then _ else _) = _
  rw [r.live, r.allowed]
  rfl

/-! ### Replies -/

theorem groupReplies_append (replies : List MomentComment) (reply : MomentComment)
    (parentId : ObjectId) :
    groupReplies (replies ++ [reply]) parentId =
      if reply.parentCommentId = some parentId ∧
          (groupReplies replies parentId).length < maxRepliesPreview then
        groupReplies replies parentId ++ [reply]
      else groupReplies replies parentId := by
  rw [groupReplies, List.foldl_append]
  rfl

theorem groupReplies_eq (replies : List MomentComment) (parentId : ObjectId) :
    groupReplies replies parentId =
      (replies.filter fun r => r.parentCommentId == some parentId).take maxRepliesPreview := by
  induction replies using List.reverseRecOn with
  | nil => rfl
  | append_singleton replies reply ih =>
    rw [groupReplies_append, ih, List.filter_append]
    by_cases hparent : reply.parentCommentId = some parentId
    · have hkept : [reply].filter (fun r => r.parentCommentId == some parentId) = [reply] := by
        simp [hparent]
      rw [hkept, List.length_take, List.take_append]
      by_cases hroom : (replies.filter fun r => r.parentCommentId == some parentId).length <
          maxRepliesPreview
      · rw [if_pos ⟨hparent, by omega⟩,
          List.take_of_length_le (l := [reply]) (by simp; omega)]
      simp_all
    · have hdropped : [reply].filter (fun r => r.parentCommentId == some parentId) = [] := by
        simp [hparent]
      rw [hdropped, List.append_nil, if_neg fun h => hparent h.1]

section Listing

variable (s : CommentStore) (momentId : ObjectId)

def repliesOf (id : ObjectId) : List MomentComment := findReplies s momentId [id]

def loadedReplies (page : List MomentComment) : List MomentComment :=
  (findReplies s momentId (page.map (·.id))).take (page.length * maxRepliesPreview)

/-- Each comment has its first three replies, or all that it has, among those loaded. -/
def Enough (page : List MomentComment) : Prop :=
  ∀ c ∈ page, min maxRepliesPreview (repliesOf s momentId c.id).length ≤
    (loadedReplies s momentId page).countP fun r => r.parentCommentId == some c.id

theorem filter_findReplies {topIds : List ObjectId} {id : ObjectId} (hid : id ∈ topIds) :
    (findReplies s momentId topIds).filter (fun r => r.parentCommentId == some id) =
      repliesOf s momentId id := by
  rw [repliesOf, findReplies, findReplies, sortOldest, sortOldest, filter_sortDown,
    List.filter_filter]
  congr 2
  funext c
  cases hparent : c.parentCommentId with
  | none => simp
  | some parentId =>
    by_cases heq : parentId = id
    · subst heq
      simp [hid]
    · simp [heq]

theorem filter_take {α : Type} (p : α → Bool) (n : ℕ) (l : List α) :
    (l.take n).filter p = (l.filter p).take ((l.take n).countP p) := by
  have hsplit : l.filter p = (l.take n).filter p ++ (l.drop n).filter p := by
    rw [← List.filter_append, List.take_append_drop]
  rw [hsplit, List.countP_eq_length_filter, List.take_left]

def shownReplies (page : List MomentComment) (id : ObjectId) : List MomentComment :=
  groupReplies (loadedReplies s momentId page) id

theorem shownReplies_eq {page : List MomentComment} {c : MomentComment} (hc : c ∈ page) :
    shownReplies s momentId page c.id =
      (repliesOf s momentId c.id).take (min maxRepliesPreview
        ((loadedReplies s momentId page).countP fun r => r.parentCommentId == some c.id)) := by
  rw [shownReplies, groupReplies_eq, loadedReplies, filter_take,
    filter_findReplies s momentId (List.mem_map_of_mem hc), List.take_take]

theorem shownReplies_first_iff {page : List MomentComment} {c : MomentComment} (hc : c ∈ page) :
    (shownReplies s momentId page c.id).map (·.id) =
        ((repliesOf s momentId c.id).take maxRepliesPreview).map (·.id) ↔
      min maxRepliesPreview (repliesOf s momentId c.id).length ≤
        (loadedReplies s momentId page).countP fun r => r.parentCommentId == some c.id := by
  rw [shownReplies_eq s momentId hc]
  generalize (loadedReplies s momentId page).countP _ = n
  constructor
  · intro h
    have hlength := congrArg List.length h
    rw [List.length_map, List.length_map, List.length_take, List.length_take] at hlength
    omega
  · intro h
    congr 1
    rcases Nat.lt_or_ge n maxRepliesPreview with hn | hn
    · rw [List.take_of_length_le (by omega), List.take_of_length_le (by omega)]
    · rw [min_eq_left hn]

end Listing

/-! ### Pages -/

section Pages

variable {s : CommentStore} (r : Reader s) (limit : Option ℤ)

def Reader.pinned : List MomentComment := findTopLevel s r.moment.id true

def Reader.rows : List MomentComment := findTopLevel s r.moment.id false

def Reader.topLevel : List MomentComment :=
  s.comments.rows.filter fun c =>
    c.momentId == r.moment.id && c.parentCommentId.isNone && !c.isDeleted

def Reader.serve (cursor : Option ℤ) : MomentCommentsPageDTO :=
  commentsPage s r.moment r.userId limit cursor

def Reader.shown (page : List MomentComment) : List MomentCommentDTO :=
  buildTopLevelCommentDTOs s r.moment r.userId page

def nextCursorOf (page : MomentCommentsPageDTO) : Option (Option ℤ) := page.nextCursor.map some

theorem pageLimit_pos : 0 < pageLimit limit := by
  rw [pageLimit]
  omega

theorem Reader.rows_descending : Descending MomentComment.createdAt r.rows := sortDown_descending _ _

theorem slice_found (n : ℕ) (found : List MomentComment) :
    (if decide (n < (found.take (n + 1)).length) = true then (found.take (n + 1)).take n
      else found.take (n + 1)) = found.take n ∧
    (if decide (n < (found.take (n + 1)).length) = true then
      (found.take n).getLast?.map (·.createdAt) else none) =
      cursorOf MomentComment.createdAt n found := by
  rw [List.length_take, List.take_take, min_eq_left (a := n) (by omega), cursorOf]
  by_cases h : n < found.length
  · simp [h]
  · rw [if_neg (by simpa using h), if_neg (by simpa using h), if_neg h,
      List.take_of_length_le (by omega), List.take_of_length_le (by omega)]
    exact ⟨rfl, rfl⟩

def Reader.from (cursor : Option ℤ) : List MomentComment :=
  r.rows.filter fun c => cursor.all (c.createdAt < ·)

variable (cursor : Option ℤ)

theorem serve_items :
    (r.serve limit cursor).items = r.shown ((r.from cursor).take (pageLimit limit)) := by
  rw [← (slice_found (pageLimit limit) (r.from cursor)).1]
  rfl

theorem serve_nextCursor :
    (r.serve limit cursor).nextCursor =
      cursorOf MomentComment.createdAt (pageLimit limit) (r.from cursor) := by
  obtain ⟨hpage, hcursor⟩ := slice_found (pageLimit limit) (r.from cursor)
  rw [← hcursor, ← hpage]
  rfl

theorem serve_pinned :
    ((r.serve limit cursor).pinnedHighlightedComments).getD [] =
      if cursor.isNone then r.shown r.pinned else [] := by
  show (if cursor.isNone = true then
    (if 0 < r.pinned.length then some (r.shown r.pinned) else none) else none).getD [] = _
  by_cases hfirst : cursor.isNone = true
  · rw [if_pos hfirst, if_pos hfirst]
    by_cases hsome : 0 < r.pinned.length
    · rw [if_pos hsome]
      rfl
    · have hnone : r.pinned = [] := List.eq_nil_of_length_eq_zero (by omega)
      rw [if_neg hsome, hnone]
      rfl
  · rw [if_neg hfirst, if_neg hfirst]
    rfl

def viewOf (page : MomentCommentsPageDTO) : List MomentCommentDTO × List MomentCommentDTO :=
  (page.pinnedHighlightedComments.getD [], page.items)

/-- The first page pins the highlighted comments, and the items of all pages are the chunks of
the others. -/
theorem listing :
    ∃ pages first rest, Listed (r.serve limit) nextCursorOf none pages ∧
      chunks MomentComment.createdAt (pageLimit limit) r.rows = first :: rest ∧
      pages.map viewOf =
        (r.shown r.pinned, r.shown first) :: rest.map fun chunk => ([], r.shown chunk) := by
  have hdesc := r.rows_descending
  have hfrom : r.from none = r.rows := List.filter_eq_self.2 fun c _ => rfl
  have hfirst : viewOf (r.serve limit none) =
      (r.shown r.pinned, r.shown (r.rows.take (pageLimit limit))) :=
    Prod.ext (serve_pinned r limit none) (by rw [← hfrom]; exact serve_items r limit none)
  have hlater : ∀ k, viewOf (r.serve limit (some k)) =
      ([], r.shown ((below MomentComment.createdAt k r.rows).take (pageLimit limit))) :=
    fun k => Prod.ext (serve_pinned r limit (some k)) (serve_items r limit (some k))
  have hnext : ∀ k, nextCursorOf (r.serve limit (some k)) =
      (cursorOf MomentComment.createdAt (pageLimit limit)
        (below MomentComment.createdAt k r.rows)).map some := by
    intro k
    rw [nextCursorOf, serve_nextCursor]
    rfl
  rcases Nat.lt_or_ge (pageLimit limit) r.rows.length with hmore | hlast
  · obtain ⟨a, ha, -, hcursor⟩ :=
      cursorOf_eq_some MomentComment.createdAt (pageLimit_pos limit) hmore
    obtain ⟨pages, hpages, hmap⟩ := keyset_listed (r.serve limit) nextCursorOf viewOf
      (fun chunk => ([], r.shown chunk)) some (pageLimit_pos limit) hdesc hlater hnext a.createdAt
    refine ⟨r.serve limit none :: pages, r.rows.take (pageLimit limit), _, listed_more ?_ hpages,
      chunks_more (pageLimit_pos limit) hdesc hmore ha, ?_⟩
    · rw [nextCursorOf, serve_nextCursor, hfrom, hcursor]
      rfl
    · rw [List.map_cons, hfirst, hmap, below_last (pageLimit_pos limit) hdesc ha]
  · refine ⟨[r.serve limit none], r.rows, [], listed_last ?_, chunks_last hlast, ?_⟩
    · rw [nextCursorOf, serve_nextCursor, hfrom, cursorOf_eq_none hlast]
      rfl
    · rw [List.map_singleton, hfirst, List.take_of_length_le hlast]
      rfl

/-! ### Completeness -/

def FirstReplies (d : MomentCommentDTO) : Prop :=
  d.replies.map (·.id) = ((repliesOf s r.moment.id d.id).take maxRepliesPreview).map (·.id)

def nextResult : Except String MomentCommentsPageDTO → Option (Option ℤ)
  | .ok page => nextCursorOf page
  | .error _ => none

/-- Following the cursor ends; the pages have every live top-level comment once, the items from
the newest on, and every comment with its first replies. -/
def CommentsComplete : Prop :=
  ∃ pages : List MomentCommentsPageDTO,
    Listed (fun cursor => listMomentComments s r.userId r.moment.id limit cursor) nextResult none
      (pages.map Except.ok) ∧
    ((pages.flatMap fun p => p.pinnedHighlightedComments.getD [] ++ p.items).map (·.id)).Perm
      (r.topLevel.map (·.id)) ∧
    (pages.flatMap (·.items)).Pairwise (fun a b => b.createdAt ≤ a.createdAt) ∧
    ∀ p ∈ pages, ∀ d ∈ p.pinnedHighlightedComments.getD [] ++ p.items, FirstReplies r d

/-- No two comments of one time stand on both sides of a page's end, and the comments pinned and
those of each page have their first replies among those loaded with them. -/
def WellSpread : Prop :=
  Apart MomentComment.createdAt (pageLimit limit) r.rows ∧
    Enough s r.moment.id r.pinned ∧
    ∀ n, Enough s r.moment.id ((r.rows.drop (n * pageLimit limit)).take (pageLimit limit))

variable (page : List MomentComment)

theorem shown_ids : (r.shown page).map (·.id) = page.map (·.id) := by
  rw [Reader.shown, buildTopLevelCommentDTOs, List.map_map]
  rfl

theorem shown_times : (r.shown page).map (·.createdAt) = page.map (·.createdAt) := by
  rw [Reader.shown, buildTopLevelCommentDTOs, List.map_map]
  rfl

theorem shown_first_iff : (∀ d ∈ r.shown page, FirstReplies r d) ↔ Enough s r.moment.id page := by
  rw [Reader.shown, buildTopLevelCommentDTOs, List.forall_mem_map, Enough]
  apply forall₂_congr
  intro c hc
  rw [← shownReplies_first_iff s r.moment.id hc, FirstReplies]
  show (((groupReplies _ c.id).map _).map _ = _) ↔ _
  rw [List.map_map, List.length_map]
  rfl

theorem topLevel_perm : (r.pinned ++ r.rows).Perm r.topLevel := by
  have hsplit : ∀ highlighted, (findTopLevel s r.moment.id highlighted).Perm
      (r.topLevel.filter fun c => c.isVipHighlighted == highlighted) := by
    intro highlighted
    apply (sortDown_perm _ _).trans
    rw [Reader.topLevel, List.filter_filter]
    apply List.Perm.of_eq
    congr 1
    funext c
    cases c.isVipHighlighted == highlighted <;> simp
  have hnot : (fun c : MomentComment => c.isVipHighlighted == false) =
      fun c => !(c.isVipHighlighted == true) := by
    funext c
    cases c.isVipHighlighted <;> rfl
  have h := (hsplit true).append (hsplit false)
  rw [hnot] at h
  exact h.trans (List.filter_append_perm _ _)

theorem flatMap_shown {β : Type} {f : MomentCommentDTO → β} {g : MomentComment → β}
    (h : ∀ page, (r.shown page).map f = page.map g) (pages : List (List MomentComment)) :
    (pages.flatMap r.shown).map f = pages.flatten.map g := by
  induction pages with
  | nil => rfl
  | cons page pages ih =>
    simp [h, ih]

theorem listing_spec {pages : List MomentCommentsPageDTO} {first : List MomentComment}
    {rest : List (List MomentComment)}
    (h : pages.map viewOf =
      (r.shown r.pinned, r.shown first) :: rest.map fun chunk => ([], r.shown chunk)) :
    (pages.flatMap fun p => p.pinnedHighlightedComments.getD [] ++ p.items).map (·.id) =
        r.pinned.map (·.id) ++ (first :: rest).flatten.map (·.id) ∧
      (pages.flatMap (·.items)).map (·.createdAt) =
        (first :: rest).flatten.map (·.createdAt) ∧
      ((∀ p ∈ pages, ∀ d ∈ p.pinnedHighlightedComments.getD [] ++ p.items, FirstReplies r d) ↔
        Enough s r.moment.id r.pinned ∧ ∀ chunk ∈ first :: rest, Enough s r.moment.id chunk) := by
  have hall : (pages.flatMap fun p => p.pinnedHighlightedComments.getD [] ++ p.items) =
      r.shown r.pinned ++ (first :: rest).flatMap r.shown := by
    have hviews : (pages.flatMap fun p => p.pinnedHighlightedComments.getD [] ++ p.items) =
        (pages.map viewOf).flatMap fun v => v.1 ++ v.2 := by
      rw [List.flatMap_map]
      rfl
    simp [hviews, h, List.flatMap_map]
  have hitems : pages.flatMap (·.items) = (first :: rest).flatMap r.shown := by
    have hviews : pages.flatMap (·.items) = (pages.map viewOf).flatMap fun v => v.2 := by
      rw [List.flatMap_map]
      rfl
    simp [hviews, h, List.flatMap_map]
  refine ⟨?_, ?_, ?_⟩
  · rw [hall, List.map_append, shown_ids, flatMap_shown r (shown_ids r)]
  · rw [hitems, flatMap_shown r (shown_times r)]
  · have hflat : (∀ p ∈ pages, ∀ d ∈ p.pinnedHighlightedComments.getD [] ++ p.items,
        FirstReplies r d) ↔
        ∀ d ∈ pages.flatMap fun p => p.pinnedHighlightedComments.getD [] ++ p.items,
          FirstReplies r d := by
      rw [List.forall_mem_flatMap]
    rw [hflat, hall, List.forall_mem_append, List.forall_mem_flatMap, shown_first_iff]
    simp only [shown_first_iff]

theorem comments_complete_iff : CommentsComplete r limit ↔ WellSpread r limit := by
  obtain ⟨pages, first, rest, hpages, hchunks, hview⟩ := listing r limit
  have hdesc := r.rows_descending
  have hlimit := pageLimit_pos limit
  have hresults : Listed (fun cursor => listMomentComments s r.userId r.moment.id limit cursor)
      nextResult none (pages.map Except.ok) := by
    refine Listed.map (fun cursor => listMomentComments_eq r limit cursor) ?_ hpages
    intro p
    rfl
  obtain ⟨hids, htimes, hreplies⟩ := listing_spec r hview
  rw [← hchunks] at hids htimes hreplies
  have hsub := chunks_sublist hlimit hdesc
  have hperm : ((pages.flatMap fun p => p.pinnedHighlightedComments.getD [] ++ p.items).map
      (·.id)).Perm (r.topLevel.map (·.id)) ↔
      Apart MomentComment.createdAt (pageLimit limit) r.rows := by
    rw [hids, ← chunks_complete_iff hlimit hdesc, ← List.map_append]
    constructor
    · intro h
      have hlength := h.length_eq
      have htop := (topLevel_perm r).length_eq
      rw [List.length_map, List.length_map, ← htop, List.length_append, List.length_append]
        at hlength
      exact hsub.eq_of_length (by omega)
    · intro h
      rw [h]
      exact (topLevel_perm r).map _
  have hsorted : (pages.flatMap (·.items)).Pairwise fun a b => b.createdAt ≤ a.createdAt := by
    have h : ((pages.flatMap (·.items)).map (·.createdAt)).Pairwise fun x y => y ≤ x := by
      rw [htimes]
      exact List.pairwise_map.2 (hdesc.sublist hsub)
    exact List.pairwise_map.1 h
  have hiff : CommentsComplete r limit ↔
      Apart MomentComment.createdAt (pageLimit limit) r.rows ∧ Enough s r.moment.id r.pinned ∧
        ∀ chunk ∈ chunks MomentComment.createdAt (pageLimit limit) r.rows,
          Enough s r.moment.id chunk := by
    rw [← hreplies, ← hperm]
    constructor
    · rintro ⟨pages', hpages', hperm', -, hreplies'⟩
      have hsame : pages' = pages :=
        List.map_injective_iff.2 (fun _ _ => Except.ok.inj) (hpages'.unique hresults)
      subst hsame
      exact ⟨hperm', hreplies'⟩
    · rintro ⟨hperm', hreplies'⟩
      exact ⟨pages, hresults, hperm', hsorted, hreplies'⟩
  rw [hiff, WellSpread]
  apply and_congr_right
  intro hapart
  have hnil : Enough s r.moment.id [] := fun c hc => absurd hc List.not_mem_nil
  rw [forall_chunks_iff hnil hlimit hdesc hapart]

end Pages

def busyThread : CommentStore where
  moments :=
    { rows := [{ id := 9, creatorId := 7, feedScore := 0, createdAt := 0 }]
      nodup := by decide }
  previews := Unique.empty
  creators := fun _ => none
  users := fun _ => none
  follows := []
  comments :=
    { rows :=
        [(1, none, 5), (2, none, 5), (11, some 1, 6), (12, some 1, 7), (13, some 1, 8),
          (14, some 1, 9), (15, some 1, 10), (16, some 1, 11), (21, some 2, 12)].map fun c =>
          { id := c.1, momentId := 9, authorUserId := 8, text := ['h', 'i'],
            parentCommentId := c.2.1, createdAt := c.2.2 }
      nodup := by decide +kernel }
  commentLikes := []
  allows := fun _ _ => true

def busyReader : Reader busyThread where
  userId := 8
  moment := { id := 9, creatorId := 7, feedScore := 0, createdAt := 0 }
  found := by decide +kernel
  live := rfl
  allowed := rfl

def sentIds : Except String MomentCommentsPageDTO → List (ObjectId × List ObjectId)
  | .ok page =>
    (page.pinnedHighlightedComments.getD [] ++ page.items).map fun d => (d.id, d.replies.map (·.id))
  | .error _ => []

theorem sentIds_ok (pages : List MomentCommentsPageDTO) :
    (pages.map Except.ok).flatMap sentIds =
      (pages.flatMap fun p => p.pinnedHighlightedComments.getD [] ++ p.items).map
        fun d => (d.id, d.replies.map (·.id)) := by
  rw [List.flatMap_map, List.map_flatMap]
  rfl

/-- With one comment to a page the second is never listed; with two, its reply is not shown. -/
theorem comments_lost :
    ¬ CommentsComplete busyReader (some 1) ∧ ¬ CommentsComplete busyReader (some 2) := by
  constructor
  · rintro ⟨pages, hpages, hperm, -, -⟩
    have hrun : (follow (fun cursor => listMomentComments busyThread 8 9 (some 1) cursor)
        nextResult 2 none).map (fun results => (results.flatMap sentIds)) =
          some [(1, [11, 12, 13])] := by
      decide +kernel
    obtain ⟨results, hfollow, hsent⟩ := Option.map_eq_some_iff.1 hrun
    rw [← hpages.unique ⟨2, hfollow⟩, sentIds_ok] at hsent
    have hone := congrArg List.length hsent
    have hlength := hperm.length_eq
    rw [List.length_map] at hone hlength
    rw [hone] at hlength
    exact absurd hlength (by decide +kernel)
  · rintro ⟨pages, hpages, -, -, hreplies⟩
    have hrun : (follow (fun cursor => listMomentComments busyThread 8 9 (some 2) cursor)
        nextResult 1 none).map (fun results => (results.flatMap sentIds)) =
          some [(1, [11, 12, 13]), (2, [])] := by
      decide +kernel
    obtain ⟨results, hfollow, hsent⟩ := Option.map_eq_some_iff.1 hrun
    rw [← hpages.unique ⟨1, hfollow⟩, sentIds_ok] at hsent
    have hmem : ((2, []) : ObjectId × List ObjectId) ∈
        (pages.flatMap fun p => p.pinnedHighlightedComments.getD [] ++ p.items).map
          fun d => (d.id, d.replies.map (·.id)) := by
      rw [hsent]
      decide
    obtain ⟨d, hd, heq⟩ := List.mem_map.1 hmem
    obtain ⟨p, hp, hdp⟩ := List.mem_flatMap.1 hd
    have hfirst := hreplies p hp d hdp
    have hid : d.id = 2 := congrArg Prod.fst heq
    have hnone : d.replies.map (·.id) = [] := congrArg Prod.snd heq
    rw [FirstReplies, hnone, hid] at hfirst
    exact absurd hfirst (by decide +kernel)

end VibemeetBackend.Moments
