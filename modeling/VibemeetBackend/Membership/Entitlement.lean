import VibemeetBackend.Membership.Purchase

/-!
# Whether a membership is active

`vip-entitlement.service.ts` and `moments-premium-entitlement.service.ts`: the checks of a membership,
which mark it as expired when they find it past its expiry, and the cache of a positive answer.
-/

namespace VibemeetBackend.Membership

open Async

structure Flags where
  vipEnabled : Bool
  /-- `isMomentsEnabled()`. -/
  momentsEnabled : Bool

/-! ### The cache -/

/-- The lifetime of the key: up to the expiry, in whole seconds, and at least a minute. -/
def ttlSec (expiresAt now : ℤ) : ℤ := max 60 ⌈((expiresAt - now : ℤ) : ℚ) / 1000⌉

def cacheActive (active : Bool) (expiresAt : Option ℤ) : MemberFlow Unit :=
  match active, expiresAt with
  | true, some expiresAt => do
    let now ← clock .ttl
    tell (.setCache (ttlSec expiresAt now))
  | _, _ => tell .delCache

/-! ### VIP -/

def markExpired (lapsed : Bool) : MemberFlow Unit :=
  if lapsed = true then do
    let _ ← run .expireMembership
    let _ ← run .clearExpiry
    pure ()
  else pure ()

/-- The check of `isVipActive` behind its cache. -/
def vipActiveUncached : MemberFlow Bool := do
  let (_, s) ← run .findMembership
  match s.membership with
  | none => do
    cacheActive false none
    pure false
  | some membership => do
    let now ← clock .active
    markExpired (membership.lapsedAt now)
    let active := membership.activeAt now
    cacheActive active (if active = true then some membership.expiresAt else none)
    pure active

def isVipActive (flags : Flags) : MemberFlow Bool :=
  if flags.vipEnabled = false then pure false
  else do
    let (_, s) ← run .getCache
    if s.cached = true then pure true else vipActiveUncached

def getRemainingFreeMoments (flags : Flags) : MemberFlow ℕ := do
  let active ← isVipActive flags
  if active = false then pure 0
  else do
    let (p, _) ← run .getPerks
    let (u, _) ← run .getUsage
    pure (p.perks.freeMomentsPerDay - u.redeemed)

/-- `freeMomentsRemainingToday`. -/
def freeMomentsToday (flags : Flags) (active : Bool) : MemberFlow ℕ :=
  if active = true then getRemainingFreeMoments flags else pure 0

/-- `VipStatusDTO`. -/
structure VipStatus where
  active : Bool
  expiresAt : Option ℤ
  daysRemaining : ℤ
  planId : Option String
  freeMomentsRemainingToday : ℕ
  freeMomentsDailyLimit : ℕ
  rechargeDiscountPercent : ℚ
  momentDiscountPercent : ℚ

def daysRemaining (expiresAt now : ℤ) : ℤ := max 0 ⌈((expiresAt - now : ℤ) : ℚ) / dayMs⌉

/-- What `getVipStatus` returns of the membership that it found. -/
def vipStatus (perks : Perks) (membership : Option MembershipDoc) (active : Bool) (now : ℤ)
    (freeMoments : ℕ) : VipStatus where
  active := active
  expiresAt := membership.map MembershipDoc.expiresAt
  daysRemaining :=
    if active = true then (membership.map fun m => daysRemaining m.expiresAt now).getD 0 else 0
  planId := membership.map MembershipDoc.planId
  freeMomentsRemainingToday := freeMoments
  freeMomentsDailyLimit := perks.freeMomentsPerDay
  rechargeDiscountPercent := perks.rechargeDiscountBps / 100
  momentDiscountPercent := perks.momentDiscountBps / 100

def getVipStatus (flags : Flags) : MemberFlow VipStatus := do
  let (r, _) ← run .getPerks
  let (_, s) ← run .findMembership
  let now ← clock .active
  markExpired (s.membership.any fun m => m.lapsedAt now)
  let active := s.membership.any (fun m => m.activeAt now) && flags.vipEnabled
  let freeMoments ← freeMomentsToday flags active
  pure (vipStatus r.perks s.membership active now freeMoments)

/-! ### Moments premium -/

def normalizeExpiredMembership : MemberFlow Unit := do
  let _ ← run .expireMembership
  let _ ← run .clearExpiry
  tell .delCache

def loadMembershipWithExpiryNormalization : MemberFlow (Option MembershipDoc) := do
  let (_, s) ← run .findMembership
  match s.membership with
  | none => pure none
  | some membership => do
    let now ← clock .expiry
    if membership.lapsedAt now = true then do
      normalizeExpiredMembership
      pure (some { membership with status := .expired })
    else pure (some membership)

def isMomentsPremiumActive (flags : Flags) : MemberFlow Bool :=
  if flags.momentsEnabled = false then pure false
  else do
    let (_, s) ← run .getCache
    if s.cached = true then pure true
    else do
      let membership ← loadMembershipWithExpiryNormalization
      match membership with
      | none => do
        cacheActive false none
        pure false
      | some membership => do
        let now ← clock .active
        let active := membership.activeAt now
        cacheActive active (if active = true then some membership.expiresAt else none)
        pure active

/-- `MomentsPremiumStatusDTO`. -/
structure MomentsPremiumStatus where
  active : Bool
  expiresAt : Option ℤ
  daysRemaining : ℤ
  planId : Option String

def MomentsPremiumStatus.inactive : MomentsPremiumStatus := ⟨false, none, 0, none⟩

def getMomentsPremiumStatus (flags : Flags) : MemberFlow MomentsPremiumStatus :=
  if flags.momentsEnabled = false then pure .inactive
  else do
    let membership ← loadMembershipWithExpiryNormalization
    match membership with
    | none => pure .inactive
    | some membership => do
      let now ← clock .active
      if membership.activeAt now = true then
        pure ⟨true, some membership.expiresAt, daysRemaining membership.expiresAt now,
          some membership.planId⟩
      else pure .inactive

/-! ### Requests -/

/-- What may happen to the memberships of a user. -/
inductive Request where
  | finalize (input : FinalizeInput) (attempts : ℕ)
  | createPending (orderId : String) (priceInr : ℕ) (planId : String)
  | isActive
  | getStatus
  | pass (ms : ℕ)

/-- A request whose result nobody waits for. -/
def ended {α : Type} (p : MemberFlow α) : Prog Cmd Reply Store Unit := p.run >>= fun _ => .ret ()

def program (p : Product) (flags : Flags) : Request → Prog Cmd Reply Store Unit
  | .finalize input attempts => ended (finalizePurchaseAtomically p input attempts)
  | .createPending orderId priceInr planId =>
    ended (createPendingTransaction p orderId priceInr planId)
  | .isActive =>
    match p with
    | .vip => ended (isVipActive flags)
    | .momentsPremium => ended (isMomentsPremiumActive flags)
  | .getStatus =>
    match p with
    | .vip => ended (getVipStatus flags)
    | .momentsPremium => ended (getMomentsPremiumStatus flags)
  | .pass ms => .act (.pass ms) fun _ _ => .ret ()

end VibemeetBackend.Membership
