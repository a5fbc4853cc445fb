import VibemeetBackend.Async.Watch
import VibemeetBackend.Moments.Comments

/-!
# Likes and comments of a moment

`likeMoment`, `unlikeMoment`, `createMomentComment`, `deleteMomentComment`, `likeMomentComment`
and `unlikeMomentComment` of `moment-engagement.service.ts`, as programs on the rows and the
counters of one moment.  A row and its counter are written by two commands; where a counter is
found below zero, a third one sets it to zero.
-/

namespace VibemeetBackend.Moments

open Async Mongo

/-! ### The text of a comment -/

def isNumberDigit (c : Char) : Bool :=
  (48 ≤ c.toNat && c.toNat ≤ 57) || (0xFF10 ≤ c.toNat && c.toNat ≤ 0xFF19)

def isWordChar (c : Char) : Bool := c.isAlphanum || c == '_'

def numberWords : List String :=
  ["zero", "one", "two", "three", "four", "five", "six", "seven", "eight", "nine", "ten", "eleven",
    "twelve", "thirteen", "fourteen", "fifteen", "sixteen", "seventeen", "eighteen", "nineteen",
    "twenty", "thirty", "forty", "fifty", "sixty", "seventy", "eighty", "ninety", "hundred",
    "thousand", "million", "billion"]

def momentCommentContainsNumbers (text : Text) : Bool :=
  text.any isNumberDigit ||
    (text.splitOnP fun c => !isWordChar c).any fun word =>
      numberWords.any fun number => number.toList == word.map Char.toLower

/-! ### Rows and counters -/

/-- One moment; `likes` are the users with a `MomentLike` row, `commentLikes` the pairs of a comment
and a user with a `MomentCommentLike` row. -/
structure Engagement where
  momentId : ObjectId
  isDeleted : Bool
  likesCount : ℤ
  commentsCount : ℤ
  engagementScore : ℤ
  likes : Finset ObjectId
  comments : Unique MomentComment.id
  commentLikes : Finset (ObjectId × ObjectId)

namespace Engagement

/-- `MomentComment.findOne` of a comment on this moment that is not deleted. -/
def liveComment (s : Engagement) (commentId : ObjectId) : Option MomentComment :=
  (s.comments.get commentId).filter fun d => d.momentId == s.momentId && !d.isDeleted

/-- `MomentComment.findByIdAndUpdate`. -/
def updateComment (s : Engagement) (commentId : ObjectId) (f : MomentComment → MomentComment) :
    Engagement :=
  { s with comments := s.comments.update commentId f }

end Engagement

def engagementLikeWeight : ℤ := 1

def engagementCommentWeight : ℤ := 2

/-! ### Commands -/

inductive Cmd
  | findMoment
  /-- The reads of `assertMomentEngagementAccess`. -/
  | engagementAccess (userId : ObjectId)
  | findLike (userId : ObjectId)
  | createLike (userId : ObjectId)
  | deleteLike (userId : ObjectId)
  | incLikes (n : ℤ)
  | clampLikes
  | findComment (commentId : ObjectId)
  /-- `Creator.findOne` of this user and the moment's creator. -/
  | ownsMoment (userId : ObjectId)
  | vipActive (userId : ObjectId)
  | createComment (authorUserId : ObjectId) (text : Text) (parentCommentId : Option ObjectId)
      (isVipHighlighted : Bool)
  | deleteComment (commentId : ObjectId)
  | incComments (n : ℤ)
  | clampComments
  | resolveAuthors
  | findCommentLike (commentId userId : ObjectId)
  | createCommentLike (commentId userId : ObjectId)
  | deleteCommentLike (commentId userId : ObjectId)
  | incCommentLikes (commentId : ObjectId) (n : ℤ)
  | clampCommentLikes (commentId : ObjectId)

/-- `ok` when the command is answered; one that is not may have been executed all the same.  `yes`
is the answer to a question, `id` and `now` are those of a new comment. -/
structure Reply where
  ok : Bool
  executed : Bool
  yes : Bool
  id : ObjectId
  now : ℤ

def newComment (s : Engagement) (r : Reply) (authorUserId : ObjectId) (text : Text)
    (parentCommentId : Option ObjectId) (isVipHighlighted : Bool) : MomentComment where
  id := r.id
  momentId := s.momentId
  authorUserId
  text
  parentCommentId
  isVipHighlighted
  createdAt := r.now

/-- The command, executed; a row of a taken key is not inserted. -/
def Cmd.effect (c : Cmd) (r : Reply) (s : Engagement) : Engagement :=
  match c with
  | .createLike userId => { s with likes := insert userId s.likes }
  | .deleteLike userId => { s with likes := s.likes.erase userId }
  | .incLikes n =>
    { s with
      likesCount := s.likesCount + n
      engagementScore := s.engagementScore + n * engagementLikeWeight }
  | .clampLikes => { s with likesCount := 0 }
  | .createComment authorUserId text parentCommentId isVipHighlighted =>
    { s with
      comments :=
        s.comments.insert (newComment s r authorUserId text parentCommentId isVipHighlighted) }
  | .deleteComment commentId => s.updateComment commentId fun d => { d with isDeleted := true }
  | .incComments n =>
    { s with
      commentsCount := s.commentsCount + n
      engagementScore := s.engagementScore + n * engagementCommentWeight }
  | .clampComments => { s with commentsCount := 0 }
  | .createCommentLike commentId userId =>
    { s with commentLikes := insert (commentId, userId) s.commentLikes }
  | .deleteCommentLike commentId userId =>
    { s with commentLikes := s.commentLikes.erase (commentId, userId) }
  | .incCommentLikes commentId n =>
    s.updateComment commentId fun d => { d with likesCount := d.likesCount + n }
  | .clampCommentLikes commentId => s.updateComment commentId fun d => { d with likesCount := 0 }
  | _ => s

def Cmd.exec (c : Cmd) (r : Reply) (s : Engagement) : Engagement :=
  if r.ok || r.executed then c.effect r s else s

/-! ### The functions -/

abbrev EngagementFlow (α : Type) : Type := Flow Cmd Reply Engagement α

def run (c : Cmd) : EngagementFlow (Reply × Engagement) := Flow.call Reply.ok "MongoError" c

structure MomentLikeResultDTO where
  likesCount : ℤ
  isLiked : Bool

def likeMoment (userId : ObjectId) : EngagementFlow MomentLikeResultDTO := do
  let (_, moment) ← run .findMoment
  if moment.isDeleted then throw "NOT_FOUND"
  let (access, _) ← run (.engagementAccess userId)
  if !access.yes then throw "FORBIDDEN"
  let (_, s) ← run (.findLike userId)
  if userId ∈ s.likes then return ⟨moment.likesCount, true⟩
  let (_, s) ← run (.createLike userId)
  if userId ∈ s.likes then throw "E11000"
  let (_, s) ← run (.incLikes 1)
  return ⟨s.likesCount + 1, true⟩

def unlikeMoment (userId : ObjectId) : EngagementFlow MomentLikeResultDTO := do
  let (_, moment) ← run .findMoment
  if moment.isDeleted then throw "NOT_FOUND"
  let (_, s) ← run (.deleteLike userId)
  if userId ∉ s.likes then return ⟨moment.likesCount, false⟩
  let (_, s) ← run (.incLikes (-1))
  let updated := s.likesCount - 1
  if updated < 0 then
    let _ ← run .clampLikes
  return ⟨max 0 updated, false⟩

def findParent (parentCommentId : Option ObjectId) : EngagementFlow (Option ObjectId) :=
  match parentCommentId with
  | none => return none
  | some parentCommentId => do
    let (_, s) ← run (.findComment parentCommentId)
    match s.liveComment parentCommentId with
    | none => throw "PARENT_NOT_FOUND"
    | some parent => return some parent.id

def highlights (userId : ObjectId) (asked : Bool) (parentId : Option ObjectId) :
    EngagementFlow Bool :=
  if asked && parentId.isNone then do
    let (vipActive, _) ← run (.vipActive userId)
    if !vipActive.yes then throw "VIP_REQUIRED"
    return true
  else return false

/-- `createMomentComment`, once the text is found to be in order. -/
def postComment (userId : ObjectId) (trimmed : Text) (parentCommentId : Option ObjectId)
    (isVipHighlighted : Bool) : EngagementFlow MomentComment := do
  let (_, moment) ← run .findMoment
  if moment.isDeleted then throw "NOT_FOUND"
  let (access, _) ← run (.engagementAccess userId)
  if !access.yes then throw "FORBIDDEN"
  let parentId ← findParent parentCommentId
  let highlighted ← highlights userId isVipHighlighted parentId
  let (r, s) ← run (.createComment userId trimmed parentId highlighted)
  if (s.comments.get r.id).isSome then throw "E11000"
  if parentId.isNone then
    let _ ← run (.incComments 1)
  let _ ← run .resolveAuthors
  return newComment s r userId trimmed parentId highlighted

def createMomentComment (userId : ObjectId) (text : Text) (parentCommentId : Option ObjectId)
    (isVipHighlighted : Bool) : EngagementFlow MomentComment :=
  let trimmed := trim text
  if trimmed = [] ∨ 500 < utf16Length trimmed then throw "INVALID_TEXT"
  else if momentCommentContainsNumbers trimmed then throw "NUMBERS_NOT_ALLOWED"
  else postComment userId trimmed parentCommentId isVipHighlighted

def deleteMomentComment (userId commentId : ObjectId) : EngagementFlow Unit := do
  let (_, moment) ← run .findMoment
  if moment.isDeleted then throw "NOT_FOUND"
  let (_, s) ← run (.findComment commentId)
  match s.liveComment commentId with
  | none => throw "NOT_FOUND"
  | some comment => do
    let (isOwner, _) ← run (.ownsMoment userId)
    if comment.authorUserId ≠ userId ∧ isOwner.yes = false then throw "FORBIDDEN"
    let _ ← run (.deleteComment commentId)
    if comment.parentCommentId.isNone then
      let _ ← run (.incComments (-1))
      let (_, updated) ← run .findMoment
      if updated.commentsCount < 0 then
        let _ ← run .clampComments

def likeMomentComment (userId commentId : ObjectId) : EngagementFlow MomentLikeResultDTO := do
  let (_, moment) ← run .findMoment
  if moment.isDeleted then throw "NOT_FOUND"
  let (access, _) ← run (.engagementAccess userId)
  if !access.yes then throw "FORBIDDEN"
  let (_, s) ← run (.findComment commentId)
  match s.liveComment commentId with
  | none => throw "NOT_FOUND"
  | some comment => do
    let (_, s) ← run (.findCommentLike commentId userId)
    if (commentId, userId) ∈ s.commentLikes then return ⟨comment.likesCount, true⟩
    let (_, s) ← run (.createCommentLike commentId userId)
    if (commentId, userId) ∈ s.commentLikes then throw "E11000"
    let (_, s) ← run (.incCommentLikes commentId 1)
    let updated := (s.comments.get commentId).map fun d => d.likesCount + 1
    return ⟨updated.getD (comment.likesCount + 1), true⟩

def unlikeMomentComment (userId commentId : ObjectId) : EngagementFlow MomentLikeResultDTO := do
  let (_, s) ← run (.findComment commentId)
  match s.liveComment commentId with
  | none => throw "NOT_FOUND"
  | some comment => do
    let (_, s) ← run (.deleteCommentLike commentId userId)
    if (commentId, userId) ∉ s.commentLikes then return ⟨comment.likesCount, false⟩
    let (_, s) ← run (.incCommentLikes commentId (-1))
    let updated := (s.comments.get commentId).map fun d => d.likesCount - 1
    if updated.any (· < 0) then
      let _ ← run (.clampCommentLikes commentId)
    return ⟨max 0 (updated.getD 0), false⟩

inductive Request
  | like (userId : ObjectId)
  | unlike (userId : ObjectId)
  | comment (userId : ObjectId) (text : Text) (parentCommentId : Option ObjectId)
      (isVipHighlighted : Bool)
  | deleteComment (userId commentId : ObjectId)
  | likeComment (userId commentId : ObjectId)
  | unlikeComment (userId commentId : ObjectId)

def program (q : Request) : Prog Cmd Reply Engagement Unit :=
  match q with
  | .like userId => (likeMoment userId).run >>= fun _ => .ret ()
  | .unlike userId => (unlikeMoment userId).run >>= fun _ => .ret ()
  | .comment userId text parentCommentId isVipHighlighted =>
    (createMomentComment userId text parentCommentId isVipHighlighted).run >>= fun _ => .ret ()
  | .deleteComment userId commentId =>
    (deleteMomentComment userId commentId).run >>= fun _ => .ret ()
  | .likeComment userId commentId =>
    (likeMomentComment userId commentId).run >>= fun _ => .ret ()
  | .unlikeComment userId commentId =>
    (unlikeMomentComment userId commentId).run >>= fun _ => .ret ()

end VibemeetBackend.Moments
