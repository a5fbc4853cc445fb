import VibemeetBackend.Ledger.CoinTransaction
import VibemeetBackend.Mongo.Retried
import VibemeetBackend.Numbers

/-!
# Regrants and refunds of moment purchases

`regrantMomentEntitlement` and `refundMomentPurchase` of `moment-purchase-admin.service.ts`.  Both
load their documents first, and assign to them inside a transaction that may run more than once.

The log lines are left out.  The ids that MongoDB and `randomUUID` make are inputs, and so is the
clock of each attempt.
-/

namespace VibemeetBackend.MomentPurchases

open Ledger Mongo

/-! ### Documents -/

structure MomentPurchase where
  id : String
  userId : String
  mediaId : String
  amountCoins : ℕ
  transactionId : String
  ledgerEntryId : String
  creatorLedgerEntryId : Option String
  entitlementVersion : ℕ
  revenueRecordId : String
  refundedAt : Option ℤ

structure MomentRevenue where
  id : String
  purchaseId : String
  momentId : String
  creatorId : String
  buyerUserId : String
  grossCoins : ℕ
  creatorShareCoins : ℕ
  platformShareCoins : ℕ

structure CreatorMoment where
  creatorId : String
  isDeleted : Bool

structure Creator where
  userId : String
  earningsCoins : ℕ

structure Store where
  purchases : List MomentPurchase
  revenues : List MomentRevenue
  moments : String → Option CreatorMoment
  creators : String → Option Creator
  /-- `User.coins`. -/
  coins : String → Option ℕ
  rows : List CoinTransaction

structure MomentsConfig where
  creatorRevenueShare : ℚ
  entitlementVersion : ℕ

def MomentsConfig.share (cfg : MomentsConfig) (gross : ℕ) : ℤ :=
  ⌊toDouble (gross * cfg.creatorRevenueShare)⌋

/-! ### Writes -/

namespace Store

variable (s : Store)

/-- `user.save()`: a balance below zero is invalid. -/
def saveCoins (userId : String) (f : DocField ℤ) : Except String Store :=
  if f.modified ∧ f.value < 0 then .error "ValidationError"
  else .ok { s with
    coins := fun id =>
      if id = userId then (s.coins id).map fun c => (f.write c).toNat else s.coins id }

/-- `creator.save()`. -/
def saveEarnings (creatorId : String) (f : DocField ℤ) : Except String Store :=
  if f.modified ∧ f.value < 0 then .error "ValidationError"
  else .ok { s with
    creators := fun id =>
      if id = creatorId then
        (s.creators id).map fun c => { c with earningsCoins := (f.write c.earningsCoins).toNat }
      else s.creators id }

def createRow (transactionId userId : String) (type : TxType) (coins : ℤ)
    (source description : String) : Except String Store :=
  (create s.rows transactionId userId type coins source description).map fun rows =>
    { s with rows }

/-- `MomentRevenue.create`. -/
def createRevenue (id purchaseId momentId creatorId buyerUserId : String) (gross : ℕ)
    (creatorShare : ℤ) : Except String Store :=
  if creatorShare < 0 ∨ gross - creatorShare < 0 then .error "ValidationError"
  else if s.revenues.any (·.id == id) then .error "E11000 duplicate key"
  else .ok { s with
    revenues := s.revenues ++ [⟨id, purchaseId, momentId, creatorId, buyerUserId, gross,
      creatorShare.toNat, (gross - creatorShare).toNat⟩] }

/-- `MomentPurchase.create`. -/
def createPurchase (p : MomentPurchase) : Except String Store :=
  if s.purchases.any fun q => q.userId == p.userId && q.mediaId == p.mediaId then
    .error "E11000 duplicate key"
  else .ok { s with purchases := s.purchases ++ [p] }

end Store

structure PurchaseDoc where
  id : String
  amountCoins : DocField ℕ
  transactionId : DocField String
  ledgerEntryId : DocField String
  creatorLedgerEntryId : DocField (Option String)
  revenueRecordId : DocField String
  refundedAt : DocField (Option ℤ)

namespace PurchaseDoc

def load (p : MomentPurchase) : PurchaseDoc where
  id := p.id
  amountCoins := .load p.amountCoins
  transactionId := .load p.transactionId
  ledgerEntryId := .load p.ledgerEntryId
  creatorLedgerEntryId := .load p.creatorLedgerEntryId
  revenueRecordId := .load p.revenueRecordId
  refundedAt := .load p.refundedAt

variable (d : PurchaseDoc)

def saved : PurchaseDoc where
  id := d.id
  amountCoins := d.amountCoins.saved
  transactionId := d.transactionId.saved
  ledgerEntryId := d.ledgerEntryId.saved
  creatorLedgerEntryId := d.creatorLedgerEntryId.saved
  revenueRecordId := d.revenueRecordId.saved
  refundedAt := d.refundedAt.saved

/-- What `save` makes of the stored row. -/
def write (p : MomentPurchase) : MomentPurchase :=
  { p with
    amountCoins := d.amountCoins.write p.amountCoins
    transactionId := d.transactionId.write p.transactionId
    ledgerEntryId := d.ledgerEntryId.write p.ledgerEntryId
    creatorLedgerEntryId := d.creatorLedgerEntryId.write p.creatorLedgerEntryId
    revenueRecordId := d.revenueRecordId.write p.revenueRecordId
    refundedAt := d.refundedAt.write p.refundedAt }

end PurchaseDoc

/-- `purchase.save()`. -/
def Store.savePurchase (s : Store) (d : PurchaseDoc) : Store :=
  { s with purchases := s.purchases.map fun p => if p.id = d.id then d.write p else p }

/-! ### The steps of a callback -/

structure Memory where
  buyer : DocField ℤ
  creatorUser : DocField ℤ
  earnings : DocField ℤ
  purchase : Option PurchaseDoc

abbrev AdminStep : Type := Step Memory Store

structure Parties where
  buyerId : String
  creatorId : String
  creatorUserId : String

variable (ids : Parties)

def saveBuyer (f : ℤ → ℤ) : AdminStep where
  assign m := { m with buyer := m.buyer.set (f m.buyer.value) }
  command m s := s.saveCoins ids.buyerId m.buyer
  settle m := { m with buyer := m.buyer.saved }

def saveCreatorUser (f : ℤ → ℤ) : AdminStep where
  assign m :=
    { m with
      creatorUser := m.creatorUser.set (f m.creatorUser.value)
      earnings := m.earnings.set (f m.earnings.value) }
  command m s := s.saveCoins ids.creatorUserId m.creatorUser
  settle m := { m with creatorUser := m.creatorUser.saved }

def saveCreator : AdminStep where
  assign := id
  command m s := s.saveEarnings ids.creatorId m.earnings
  settle m := { m with earnings := m.earnings.saved }

def write (command : Store → Except String Store) : AdminStep where
  assign := id
  command _ s := command s
  settle := id

def savePurchase (f : PurchaseDoc → PurchaseDoc) : AdminStep where
  assign m := { m with purchase := m.purchase.map f }
  command m s := .ok (m.purchase.elim s s.savePurchase)
  settle m := { m with purchase := m.purchase.map PurchaseDoc.saved }

/-! ### Regrants -/

structure RegrantInput where
  userId : String
  momentId : String
  reason : String
  ticketId : String
  forceRepair : Bool
  skipLedger : Bool
  dryRun : Bool

structure AttemptIds where
  debitTx : String
  creditTx : String
  purchase : String
  revenue : String

structure RegrantResult where
  created : Bool
  purchaseId : Option String

def Store.purchaseOf (s : Store) (userId momentId : String) : Option MomentPurchase :=
  s.purchases.find? fun p => p.userId == userId && p.mediaId == momentId

structure Regrant extends RegrantInput where
  cfg : MomentsConfig
  ids : Parties
  txnId : String
  gross : ℕ

namespace Regrant

variable (g : Regrant)

def creatorShare : ℤ := g.cfg.share g.gross

def walletSteps : List AdminStep :=
  [saveBuyer g.ids fun coins => coins - g.gross,
    saveCreatorUser g.ids fun coins => coins + g.creatorShare, saveCreator g.ids]

def ledgerSteps (purchaseId revenueId : String) : List AdminStep :=
  [write fun s => s.createRow g.txnId g.ids.buyerId .debit g.gross "moment_purchase"
      ("ADMIN REGRANT " ++ g.ticketId ++ ": " ++ g.reason),
    write fun s => s.createRow (g.txnId ++ "_creator") g.ids.creatorUserId .credit g.creatorShare
      "moment_earnings" ("ADMIN REGRANT earnings " ++ g.ticketId),
    write fun s => s.createRevenue revenueId purchaseId g.momentId g.ids.creatorId g.ids.buyerId
      g.gross g.creatorShare]

def reopen (debitTx : String) (creditTx : Option String) (revenueId : String) (d : PurchaseDoc) :
    PurchaseDoc :=
  { d with
    refundedAt := d.refundedAt.set none
    transactionId := d.transactionId.set g.txnId
    ledgerEntryId := d.ledgerEntryId.set debitTx
    creatorLedgerEntryId := d.creatorLedgerEntryId.set creditTx
    revenueRecordId := d.revenueRecordId.set revenueId
    amountCoins := d.amountCoins.set g.gross }

def body (made : AttemptIds) (m : Memory) : List AdminStep :=
  match m.purchase with
  | none =>
    if g.skipLedger then
      [write fun _ => .error "skipLedger requires existing ledgerEntryId on purchase row"]
    else
      g.walletSteps ++ g.ledgerSteps made.purchase made.revenue ++
        [write fun s => s.createPurchase
          ⟨made.purchase, g.userId, g.momentId, g.gross, g.txnId, made.debitTx, some made.creditTx,
            g.cfg.entitlementVersion, made.revenue, none⟩]
  | some d =>
    if g.skipLedger then
      -- `MomentRevenue.findById`, which leaves the record that the purchase has
      [write .ok, savePurchase (g.reopen d.ledgerEntryId.value d.creatorLedgerEntryId.value
        d.revenueRecordId.value)]
    else
      (if d.refundedAt.value.isSome then g.walletSteps else []) ++
        g.ledgerSteps d.id d.revenueRecordId.value ++
        [savePurchase (g.reopen made.debitTx (some made.creditTx) d.revenueRecordId.value)]

end Regrant

def required {α : Type} (message : String) : Option α → Except String α
  | some a => .ok a
  | none => .error message

def Store.creatorOf (s : Store) (creatorId : String) : Except String (Creator × ℕ) := do
  let creator ← required "Creator not found" (s.creators creatorId)
  let coins ← required "Creator user not found" (s.coins creator.userId)
  return (creator, coins)

def RegrantInput.regrant (inp : RegrantInput) (cfg : MomentsConfig)
    (existing : Option MomentPurchase) (creatorId creatorUserId uuid : String) : Regrant :=
  { inp with
    cfg
    ids := ⟨inp.userId, creatorId, creatorUserId⟩
    txnId := "admin_regrant_" ++ inp.momentId ++ "_" ++ inp.userId ++ "_" ++ uuid
    gross := (existing.map (·.amountCoins)).getD 0 }

def regrantMomentEntitlement (cfg : MomentsConfig) (inp : RegrantInput) (uuid : String)
    (aborted : List (AttemptIds × ℕ)) (last : AttemptIds) (s : Store) :
    Except String (RegrantResult × Store) := do
  let existing := s.purchaseOf inp.userId inp.momentId
  if existing.any (fun p => p.refundedAt.isNone) && !inp.forceRepair && !inp.skipLedger then
    return (⟨false, existing.map (·.id)⟩, s)
  let moment ← required "Moment not found" ((s.moments inp.momentId).filter fun m => !m.isDeleted)
  let buyer ← required "User not found" (s.coins inp.userId)
  let (creator, creatorUser) ← s.creatorOf moment.creatorId
  if inp.dryRun then return (⟨true, none⟩, s)
  let (_, s') ← withTransaction
    (inp.regrant cfg existing moment.creatorId creator.userId uuid).body aborted last
    ⟨.load buyer, .load creatorUser, .load creator.earningsCoins, existing.map .load⟩ s
  return (⟨true, some ((existing.map (·.id)).getD last.purchase)⟩, s')

/-! ### Refunds -/

structure RefundInput where
  purchaseId : Option String
  userId : Option String
  momentId : Option String
  reason : String
  ticketId : String
  dryRun : Bool

structure RefundResult where
  refunded : Bool
  purchaseId : String

def RefundInput.names (inp : RefundInput) (p : MomentPurchase) : Bool :=
  match inp.purchaseId with
  | some id => p.id == id
  | none => inp.userId == some p.userId && inp.momentId == some p.mediaId

structure Refund where
  ids : Parties
  ticketId : String
  reason : String
  txnId : String
  gross : ℕ
  creatorShare : ℤ

def Refund.body (g : Refund) (now : ℤ) (_ : Memory) : List AdminStep :=
  [saveBuyer g.ids fun coins => coins + g.gross,
    saveCreatorUser g.ids fun coins => max 0 (coins - g.creatorShare),
    saveCreator g.ids,
    write fun s => s.createRow g.txnId g.ids.buyerId .credit g.gross "admin"
      ("MOMENT REFUND " ++ g.ticketId ++ ": " ++ g.reason),
    write fun s => s.createRow (g.txnId ++ "_creator") g.ids.creatorUserId .debit g.creatorShare
      "admin" ("MOMENT REFUND clawback " ++ g.ticketId),
    savePurchase fun d => { d with refundedAt := d.refundedAt.set (some now) }]

def Store.creatorShareOf (s : Store) (cfg : MomentsConfig) (p : MomentPurchase) : ℤ :=
  match s.revenues.find? fun r => r.id == p.revenueRecordId with
  | some revenue => revenue.creatorShareCoins
  | none => cfg.share p.amountCoins

def RefundInput.refund (inp : RefundInput) (purchase : MomentPurchase)
    (creatorId creatorUserId : String) (creatorShare : ℤ) (uuid : String) : Refund where
  ids := ⟨purchase.userId, creatorId, creatorUserId⟩
  ticketId := inp.ticketId
  reason := inp.reason
  txnId := "admin_refund_" ++ purchase.id ++ "_" ++ uuid
  gross := purchase.amountCoins
  creatorShare

def refundMomentPurchase (cfg : MomentsConfig) (inp : RefundInput) (uuid : String)
    (aborted : List (ℤ × ℕ)) (last : ℤ) (s : Store) : Except String (RefundResult × Store) := do
  let purchase ← required "Purchase not found" (s.purchases.find? inp.names)
  if purchase.refundedAt.isSome then return (⟨false, purchase.id⟩, s)
  let moment ← required "Moment not found" (s.moments purchase.mediaId)
  let buyer ← required "Buyer not found" (s.coins purchase.userId)
  let (creator, creatorUser) ← s.creatorOf moment.creatorId
  if inp.dryRun then return (⟨true, purchase.id⟩, s)
  let (_, s') ← withTransaction
    (inp.refund purchase moment.creatorId creator.userId (s.creatorShareOf cfg purchase) uuid).body
    aborted last
    ⟨.load buyer, .load creatorUser, .load creator.earningsCoins, some (.load purchase)⟩ s
  return (⟨true, purchase.id⟩, s')

end VibemeetBackend.MomentPurchases
