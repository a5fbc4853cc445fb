import VibemeetBackend.Moments.FollowingFeed
import VibemeetBackend.Moments.PopularFeed
import VibemeetBackend.Referral.Apply

/-!
# Access to moments

`resolveMomentAccess` of `entitlement.service.ts` and its two callers: the presentation of a feed's
moments (`moment-presentation.service.ts`, after `feed-audience.service.ts`), and
`assertMomentEngagementAccess` of `moment-engagement.service.ts`.

A feed is presented as it is built; the caches of whole pages are left out, and so are the images,
the counters and the creator's name of a presented moment.
-/

namespace VibemeetBackend.Moments

open Referral (UserRole)

/-! ### Entitlements -/

inductive MomentVisibilityTier
  | everyone | vip
  deriving DecidableEq

inductive MomentAccessReason
  | owner | creator | vip | premium | free | preview | admin | vipOnly | denied
  deriving DecidableEq

structure MomentAccessResult where
  allowed : Bool
  reason : MomentAccessReason

structure MomentAccessContext where
  isCreatorOwner : Bool := false
  isPreviewMoment : Bool := false
  isStaffAdmin : Bool := false
  isCreatorRole : Bool := false
  visibilityTier : MomentVisibilityTier := .everyone

/-- The collections at one instant, with what the feeds do not read: the tiers of the moments, the
roles of the users, and what `isVipActive` and `isMomentsPremiumActive` answer. -/
structure Instant where
  store : Store
  now : ℤ
  cache : PreviewCache store now
  freeAccessMode : Bool
  visibilityTier : ObjectId → Option MomentVisibilityTier
  role : ObjectId → Option UserRole
  vipActive : ObjectId → Bool
  premiumActive : ObjectId → Bool

variable (w : Instant)

def isCreatorOrAdminRole (role : UserRole) : Bool := role == .creator || role == .admin

def resolveMomentAccess (userId : Option ObjectId) (context : MomentAccessContext) :
    MomentAccessResult :=
  if context.isCreatorOwner then ⟨true, .owner⟩
  else if context.isStaffAdmin then ⟨true, .admin⟩
  else if context.isCreatorRole then ⟨true, .creator⟩
  else
    match userId with
    | none => ⟨false, .denied⟩
    | some uid =>
      if w.freeAccessMode then ⟨true, .free⟩
      else if context.visibilityTier = .vip then
        if w.vipActive uid then ⟨true, .vip⟩ else ⟨false, .vipOnly⟩
      else if w.vipActive uid then ⟨true, .vip⟩
      else if w.premiumActive uid then ⟨true, .premium⟩
      else if context.isPreviewMoment then ⟨true, .preview⟩
      else ⟨false, .denied⟩

def Instant.tier (m : CreatorMoment) : MomentVisibilityTier :=
  (w.visibilityTier m.id).getD .everyone

/-! ### Feeds -/

/-- A page that is asked for; `cachedIds` is the list that Redis has for it. -/
inductive FeedRequest
  | popular (limit : ℕ) (cursor : Option Text)
  | following (limit offset : ℕ) (cachedIds : Option (List ObjectId))

def buildFeedOrdering (userId : ObjectId) : FeedRequest → FeedOrderingResult
  | .popular limit cursor => buildPopularFeedOrdering w.store w.now w.cache limit cursor
  | .following limit offset cachedIds =>
    buildFollowingFeedOrdering w.store w.now w.cache userId limit offset cachedIds

/-- Audiences without a rail of previews get these as moments of the feed. -/
def applyAudienceToFeedOrdering (ordering : FeedOrderingResult) (isPremium : Bool) :
    FeedOrderingResult :=
  if isPremium || w.freeAccessMode then
    { ordering with
      moments := ordering.moments.map fun m =>
        if m.section = .preview then { m with «section» := .feed } else m
      previewEndIndex := 0 }
  else ordering

def resolvePremiumFeedTier (userId : ObjectId) (role : UserRole) : Bool :=
  isCreatorOrAdminRole role || w.premiumActive userId

structure ViewerContext where
  userId : Option ObjectId
  isCreatorOwner : Option Bool := none
  isStaffAdmin : Option Bool := none
  isCreatorRole : Option Bool := none

def buildMomentsViewer (user : Option (ObjectId × UserRole)) (isCreatorOwner : Option Bool) :
    ViewerContext where
  userId := user.map Prod.fst
  isCreatorOwner
  isCreatorRole := some ((user.map Prod.snd).any isCreatorOrAdminRole)

structure PresentationDTO where
  id : ObjectId
  creatorId : ObjectId
  locked : Bool
  isPreview : Bool
  accessReason : MomentAccessReason
  processingStatus : ProcessingStatus

def canViewDeletedMoment (userId : Option ObjectId) (m : CreatorMoment) : Bool :=
  userId.isSome && !m.isDeleted

def presentedAccess (m : CreatorMoment) (viewer : ViewerContext) (isPreviewMoment : Bool) :
    MomentAccessResult :=
  if w.freeAccessMode then
    if viewer.userId.isSome || viewer.isCreatorOwner = some true then ⟨true, .free⟩
    else ⟨false, .denied⟩
  else
    resolveMomentAccess w viewer.userId
      { isCreatorOwner := viewer.isCreatorOwner.getD false
        isPreviewMoment
        isStaffAdmin := viewer.isStaffAdmin.getD false
        isCreatorRole := viewer.isCreatorRole.getD false
        visibilityTier := w.tier m }

def toMomentPresentationDTO (m : CreatorMoment) (viewer : ViewerContext) (isPreviewMoment : Bool) :
    Option PresentationDTO :=
  if (m.processingStatus ≠ .ready ∨ m.moderationStatus ≠ .approved) ∧
      viewer.isCreatorOwner ≠ some true then none
  else if m.isDeleted && !canViewDeletedMoment viewer.userId m then none
  else
    let access := presentedAccess w m viewer isPreviewMoment
    some
      { id := m.id
        creatorId := m.creatorId
        locked := !access.allowed
        isPreview := access.reason = .preview
        accessReason := access.reason
        processingStatus := m.processingStatus }

def presentationFromFeedOrderingItem (item : FeedOrderingItem) (viewer : ViewerContext) :
    Option PresentationDTO :=
  toMomentPresentationDTO w item.moment viewer (item.section = .preview)

def feedPage (userId : ObjectId) (role : UserRole) (req : FeedRequest) : List FeedOrderingItem :=
  (applyAudienceToFeedOrdering w (buildFeedOrdering w userId req)
    (resolvePremiumFeedTier w userId role)).moments

def presentItem (userId : ObjectId) (role : UserRole) (item : FeedOrderingItem) :
    Option PresentationDTO :=
  presentationFromFeedOrderingItem w item (buildMomentsViewer (some (userId, role)) none)

/-! ### Engagement -/

def isPreviewMoment (momentId : ObjectId) : Bool :=
  (getActivePreviewMoments w.store w.now w.cache).any fun p => p.moment.id == momentId

/-- `Creator.findOne({ userId, _id: moment.creatorId })`. -/
def isOwner (userId : ObjectId) (m : CreatorMoment) : Bool :=
  (w.store.creators m.creatorId).any fun c => c.userId == some userId

/-- `allowed` of the result. -/
def assertMomentEngagementAccess (userId : ObjectId) (m : CreatorMoment) : Bool :=
  let isCreatorOwner := isOwner w userId m
  if w.freeAccessMode then true
  else
    let preview := if !isCreatorOwner then isPreviewMoment w m.id else false
    (resolveMomentAccess w (some userId)
      { isPreviewMoment := preview
        isCreatorOwner
        isCreatorRole := (w.role userId).any isCreatorOrAdminRole
        visibilityTier := w.tier m }).allowed

end VibemeetBackend.Moments
