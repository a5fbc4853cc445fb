import VibemeetBackend.Async.Watch
import VibemeetBackend.Billing.Session

/-!
# Withdrawals

`creator/withdrawal-processing.service.ts`: the approval, the rejection and the payment of one
withdrawal, and atomic credits to the wallets.  Each request loads its documents, checks them and
saves them one after the other; a save writes the changed fields with the values that were computed
from the loaded document.

Dates, action logs, caches and sockets are left out.
-/

namespace VibemeetBackend.Creator

open Async Flow
open Billing (trim)

/-! ### Documents -/

inductive WithdrawalStatus where
  | pending
  | approved
  | rejected
  | paid
  deriving DecidableEq, Repr

def WithdrawalStatus.text : WithdrawalStatus → String
  | .pending => "pending"
  | .approved => "approved"
  | .rejected => "rejected"
  | .paid => "paid"

structure Withdrawal where
  creatorUserId : Option String
  creatorFirebaseUid : Option String
  staffUserId : Option String
  amount : ℤ
  status : WithdrawalStatus
  transactionId : Option String
  notes : Option String

/-- A `User` with its wallets. -/
structure WalletUser where
  id : String
  firebaseUid : String
  coins : ℤ
  staffCoinsBalance : ℤ

structure CreatorDoc where
  userId : String
  earningsCoins : ℤ

/-- A debit `CoinTransaction` of the withdrawal. -/
structure DebitRow where
  transactionId : String
  userId : String
  coins : ℤ

/-- `StaffWalletLedger`, whose idempotency key is unique. -/
structure StaffLedgerEntry where
  staffUserId : String
  amountCoins : ℤ
  balanceAfter : ℤ
  idempotencyKey : String

structure WithdrawalStore where
  withdrawal : Option Withdrawal
  users : List WalletUser
  creators : List CreatorDoc
  debits : List DebitRow
  staffLedger : List StaffLedgerEntry

inductive UserKey where
  | byId (id : String)
  | byFirebaseUid (uid : String)

def UserKey.selects : UserKey → WalletUser → Bool
  | .byId id, u => u.id == id
  | .byFirebaseUid uid, u => u.firebaseUid == uid

def WithdrawalStore.user (s : WithdrawalStore) (k : UserKey) : Option WalletUser :=
  s.users.find? k.selects

inductive WalletField where
  | coins
  | staffCoinsBalance
  deriving DecidableEq

def WalletUser.wallet (u : WalletUser) : WalletField → ℤ
  | .coins => u.coins
  | .staffCoinsBalance => u.staffCoinsBalance

def WalletUser.setWallet (u : WalletUser) (v : ℤ) : WalletField → WalletUser
  | .coins => { u with coins := v }
  | .staffCoinsBalance => { u with staffCoinsBalance := v }

/-! ### Commands -/

/-- The fields of a withdrawal that a save has to write; `none` is a field that was not changed. -/
structure WithdrawalUpdate where
  status : WithdrawalStatus
  notes : Option (Option String)
  transactionId : Option String
  creatorUserId : Option String

def WithdrawalUpdate.apply (u : WithdrawalUpdate) (w : Withdrawal) : Withdrawal :=
  { w with
    status := u.status
    notes := u.notes.getD w.notes
    transactionId := u.transactionId <|> w.transactionId
    creatorUserId := u.creatorUserId <|> w.creatorUserId }

structure WithdrawalReply where
  delivered : Bool
  answered : Bool

def WithdrawalReply.ok (r : WithdrawalReply) : Bool := r.delivered && r.answered

inductive WithdrawalCmd where
  | findWithdrawal
  | findUser (k : UserKey)
  | findCreator (userId : String)
  | createDebit (row : DebitRow)
  | saveWallet (field : WalletField) (userId : String) (balance : ℤ)
  | saveEarnings (userId : String) (earningsCoins : ℤ)
  | createStaffLedger (entry : StaffLedgerEntry)
  | saveWithdrawal (update : WithdrawalUpdate)
  /-- `$inc` of a wallet by somebody else. -/
  | credit (field : WalletField) (userId : String) (amount : ℤ)

def WithdrawalStore.updateUser (s : WithdrawalStore) (userId : String)
    (f : WalletUser → WalletUser) : WithdrawalStore :=
  { s with users := s.users.map fun u => if u.id = userId then f u else u }

def WithdrawalCmd.exec (c : WithdrawalCmd) (r : WithdrawalReply) (s : WithdrawalStore) :
    WithdrawalStore :=
  if r.delivered = false then s
  else
    match c with
    | .findWithdrawal | .findUser _ | .findCreator _ => s
    | .createDebit row => { s with debits := s.debits ++ [row] }
    | .saveWallet field userId balance => s.updateUser userId fun u => u.setWallet balance field
    | .saveEarnings userId earningsCoins =>
      { s with creators :=
          s.creators.map fun c => if c.userId = userId then { c with earningsCoins } else c }
    | .createStaffLedger entry =>
      if s.staffLedger.any fun e => e.idempotencyKey == entry.idempotencyKey then s
      else { s with staffLedger := s.staffLedger ++ [entry] }
    | .saveWithdrawal update => { s with withdrawal := s.withdrawal.map update.apply }
    | .credit field userId amount =>
      s.updateUser userId fun u => u.setWallet (u.wallet field + amount) field

abbrev WithdrawalFlow (α : Type) : Type := Flow WithdrawalCmd WithdrawalReply WithdrawalStore α

def run (c : WithdrawalCmd) : WithdrawalFlow (WithdrawalReply × WithdrawalStore) :=
  call WithdrawalReply.ok "MongoServerError" c

/-! ### Requests -/

inductive WithdrawalActionResult where
  | ok (status : WithdrawalStatus) (amount : ℤ) (transactionId : Option String)
  | error (status : ℕ) (error : String)

structure StaffAction where
  isAdmin : Bool
  isSuperAdmin : Bool
  notes : Option String

/-- `options.notes?.trim()`, when it is not empty. -/
def StaffAction.trimmed (q : StaffAction) : Option String :=
  (q.notes.map trim).filter fun n => n ≠ ""

def resolveWithdrawalCreatorUser (w : Withdrawal) : WithdrawalFlow (Option WalletUser) :=
  match w.creatorUserId, w.creatorFirebaseUid with
  | some id, _ => do
    let (_, s) ← run (.findUser (.byId id))
    pure (s.user (.byId id))
  | none, some uid => do
    let (_, s) ← run (.findUser (.byFirebaseUid uid))
    pure (s.user (.byFirebaseUid uid))
  | none, none => pure none

def cannotApprove (status : WithdrawalStatus) : WithdrawalActionResult :=
  .error 400 ("Cannot approve withdrawal with status '" ++ status.text ++
    "'. Only pending withdrawals can be approved.")

def staffBalanceTooLow (balance amount : ℤ) : WithdrawalActionResult :=
  .error 400 ("Staff wallet balance (" ++ toString balance ++
    ") is less than withdrawal amount (" ++ toString amount ++ ").")

def creatorBalanceTooLow (balance amount : ℤ) (what : String) : WithdrawalActionResult :=
  .error 400 ("Creator balance (" ++ toString balance ++
    ") is less than withdrawal amount (" ++ toString amount ++ "). Cannot " ++ what ++ ".")

/-- `withdrawal.notes = notes`: a document saves the field only if its value has changed. -/
def changedNotes (w : Withdrawal) (notes : Option String) : Option (Option String) :=
  if notes = w.notes then none else some notes

def approve (q : StaffAction) (w : Withdrawal) (creatorUserId : Option String) :
    WithdrawalFlow WithdrawalActionResult := do
  let _ ← run (.saveWithdrawal ⟨.approved, changedNotes w q.trimmed, none, creatorUserId⟩)
  pure (.ok .approved w.amount none)

def processWithdrawalApproval (q : StaffAction) : WithdrawalFlow WithdrawalActionResult := do
  let (_, s) ← run .findWithdrawal
  match s.withdrawal with
  | none => pure (.error 404 "Withdrawal not found")
  | some w =>
    match w.staffUserId with
    | some staffUserId =>
      if ¬ (q.isAdmin = true ∧ q.isSuperAdmin = true) then
        pure (.error 403 "Staff withdrawals require super admin approval")
      else if w.status ≠ .pending then pure (cannotApprove w.status)
      else do
        let (_, s) ← run (.findUser (.byId staffUserId))
        match s.user (.byId staffUserId) with
        | none => pure (.error 404 "Staff user not found")
        | some u =>
          if u.staffCoinsBalance < w.amount then pure (staffBalanceTooLow u.staffCoinsBalance w.amount)
          else approve q w none
    | none =>
      if q.isAdmin = false then
        pure (.error 403 "Creator withdrawal actions require super admin")
      else if w.status ≠ .pending then pure (cannotApprove w.status)
      else
        match ← resolveWithdrawalCreatorUser w with
        | none => pure (.error 404 "Creator user not found")
        | some u =>
          if u.coins < w.amount then pure (creatorBalanceTooLow u.coins w.amount "approve")
          else approve q w (if w.creatorUserId.isNone then some u.id else none)

def processWithdrawalRejection (q : StaffAction) : WithdrawalFlow WithdrawalActionResult :=
  let notes := trim (q.notes.getD "")
  if notes.length < 3 then pure (.error 400 "Notes/reason is required (min 3 characters)")
  else do
    let (_, s) ← run .findWithdrawal
    match s.withdrawal with
    | none => pure (.error 404 "Withdrawal not found")
    | some w =>
      if w.staffUserId.isSome = true ∧ ¬ (q.isAdmin = true ∧ q.isSuperAdmin = true) then
        pure (.error 403 "Staff withdrawals require super admin")
      else if w.staffUserId.isSome = false ∧ q.isAdmin = false then
        pure (.error 403 "Creator withdrawal actions require super admin")
      else if w.status ≠ .pending ∧ w.status ≠ .approved then
        pure (.error 400 ("Cannot reject withdrawal with status '" ++ w.status.text ++
          "'. Only pending or approved withdrawals can be rejected."))
      else do
        let _ ← run (.saveWithdrawal ⟨.rejected, changedNotes w (some notes), none, none⟩)
        pure (.ok .rejected w.amount none)

def paidNotes (q : StaffAction) (w : Withdrawal) : Option (Option String) :=
  q.trimmed.map fun n => some ((match w.notes with
    | some old => if old = "" then "" else old ++ " | "
    | none => "") ++ "Paid: " ++ n)

def savePaid (q : StaffAction) (w : Withdrawal) (txId : String) (isNew : Bool)
    (creatorUserId : Option String) : WithdrawalFlow WithdrawalActionResult := do
  let _ ← run (.saveWithdrawal
    ⟨.paid, paidNotes q w, if isNew then some txId else none, creatorUserId⟩)
  pure (.ok .paid w.amount (some txId))

/-- The payment of a staff withdrawal.  `uuid` is fresh. -/
def payStaff (withdrawalId uuid : String) (q : StaffAction) (w : Withdrawal) (staffUserId : String) :
    WithdrawalFlow WithdrawalActionResult :=
  if ¬ (q.isAdmin = true ∧ q.isSuperAdmin = true) then
    pure (.error 403 "Staff withdrawals require super admin")
  else
    match w.transactionId with
    | some txId => savePaid q w txId false none
    | none => do
      let (_, s) ← run (.findUser (.byId staffUserId))
      match s.user (.byId staffUserId) with
      | none => pure (.error 404 "Staff user not found")
      | some u =>
        if u.staffCoinsBalance < w.amount then
          pure (staffBalanceTooLow u.staffCoinsBalance w.amount)
        else do
          let txId := "staff_withdrawal_" ++ withdrawalId ++ "_" ++ uuid
          let _ ← run (.createDebit ⟨txId, u.id, w.amount⟩)
          let balance := max 0 (u.staffCoinsBalance - w.amount)
          let _ ← run (.saveWallet .staffCoinsBalance u.id balance)
          let key := "staff_ledger_withdrawal_" ++ withdrawalId ++ "_paid_debit"
          let (_, s) ← run (.createStaffLedger ⟨u.id, w.amount, balance, key⟩)
          if s.staffLedger.any fun e => e.idempotencyKey == key then throw "E11000"
          else savePaid q w txId true none

def payCreator (withdrawalId uuid : String) (q : StaffAction) (w : Withdrawal) :
    WithdrawalFlow WithdrawalActionResult := do
  match ← resolveWithdrawalCreatorUser w with
  | none => pure (.error 404 "Creator user not found")
  | some u => do
    let (_, s) ← run (.findCreator u.id)
    let creatorDoc := s.creators.find? fun c => c.userId == u.id
    match w.transactionId with
    | some txId => savePaid q w txId false none
    | none =>
      if u.coins < w.amount then pure (creatorBalanceTooLow u.coins w.amount "mark as paid")
      else do
        let txId := "withdrawal_" ++ withdrawalId ++ "_" ++ uuid
        let _ ← run (.createDebit ⟨txId, u.id, w.amount⟩)
        let _ ← run (.saveWallet .coins u.id (u.coins - w.amount))
        match creatorDoc with
        | some c =>
          let _ ← run (.saveEarnings u.id (max 0 (c.earningsCoins - w.amount)))
        | none => pure ()
        savePaid q w txId true (if w.creatorUserId.isNone then some u.id else none)

def processWithdrawalMarkPaid (withdrawalId uuid : String) (q : StaffAction) :
    WithdrawalFlow WithdrawalActionResult := do
  let (_, s) ← run .findWithdrawal
  match s.withdrawal with
  | none => pure (.error 404 "Withdrawal not found")
  | some w =>
    if q.isAdmin = false then
      pure (.error 403 "Creator withdrawal actions require super admin")
    else if w.status ≠ .approved then
      pure (.error 400 ("Cannot mark as paid. Withdrawal status is '" ++ w.status.text ++
        "', expected 'approved'."))
    else
      match w.staffUserId with
      | some staffUserId => payStaff withdrawalId uuid q w staffUserId
      | none => payCreator withdrawalId uuid q w

inductive WithdrawalRequest where
  | approve (q : StaffAction)
  | reject (q : StaffAction)
  | markPaid (uuid : String) (q : StaffAction)
  | credit (field : WalletField) (userId : String) (amount : ℤ)

def withdrawalProgram (withdrawalId : String) :
    WithdrawalRequest → Prog WithdrawalCmd WithdrawalReply WithdrawalStore Unit
  | .approve q => (processWithdrawalApproval q).run >>= fun _ => .ret ()
  | .reject q => (processWithdrawalRejection q).run >>= fun _ => .ret ()
  | .markPaid uuid q => (processWithdrawalMarkPaid withdrawalId uuid q).run >>= fun _ => .ret ()
  | .credit field userId amount => .act (.credit field userId amount) fun _ _ => .ret ()

/-! ### What a request goes by -/

/-- How far a payment is. -/
inductive Paying where
  | notStarted
  | debited
  | decremented
  deriving DecidableEq

/-- What a request has loaded, and how far its payment is. -/
structure WithdrawalPhase where
  loaded : Option Withdrawal
  user : Option WalletUser
  paying : Paying

def WithdrawalPhase.start : WithdrawalPhase := ⟨none, none, .notStarted⟩

def WithdrawalPhase.next (φ : WithdrawalPhase) (c : WithdrawalCmd) (r : WithdrawalReply)
    (s : WithdrawalStore) : WithdrawalPhase :=
  if r.delivered = false then φ
  else
    match c with
    | .findWithdrawal => { φ with loaded := s.withdrawal }
    | .findUser k => { φ with user := s.user k }
    | .createDebit _ => { φ with paying := .debited }
    | .saveWallet .. => { φ with paying := .decremented }
    | _ => φ

def Withdrawal.Owned (w : Withdrawal) : Prop :=
  w.creatorUserId.isSome = true ∨ w.staffUserId.isSome = true

/-- A request writes what follows from the documents that it has loaded. -/
def WithdrawalAllows (φ : WithdrawalPhase) : WithdrawalCmd → Prop
  | .createDebit row => φ.paying = .notStarted ∧
      ∃ w, φ.loaded = some w ∧ w.status = .approved ∧ row.coins = w.amount
  | .saveWallet field userId balance => φ.paying = .debited ∧
      ∃ w u, φ.loaded = some w ∧ φ.user = some u ∧ u.id = userId ∧
        balance = u.wallet field - w.amount
  | .saveWithdrawal update => ∃ w, φ.loaded = some w ∧
      (update.transactionId.isSome = true → φ.paying = .decremented) ∧
      (update.status = .paid → w.transactionId.isSome = true ∨ φ.paying = .decremented) ∧
      update.status ≠ .pending ∧ (update.status = .approved → w.status = .pending) ∧
      (w.Owned → update.creatorUserId = none)
  | _ => True

abbrev WithdrawalFollows (φ : WithdrawalPhase) {α : Type} (p : WithdrawalFlow α) : Prop :=
  Follows (guarded WithdrawalAllows WithdrawalPhase.next) φ p (fun _ _ => True)
    fun _ _ => True

section protocol

variable {φ : WithdrawalPhase} {α : Type} {w : Withdrawal}

theorem next_findCreator (id : String) (r : WithdrawalReply) (s : WithdrawalStore) :
    φ.next (.findCreator id) r s = φ := by
  unfold WithdrawalPhase.next
  split <;> rfl

theorem next_saveEarnings (id : String) (v : ℤ) (r : WithdrawalReply) (s : WithdrawalStore) :
    φ.next (.saveEarnings id v) r s = φ := by
  unfold WithdrawalPhase.next
  split <;> rfl

theorem next_createStaffLedger (e : StaffLedgerEntry) (r : WithdrawalReply) (s : WithdrawalStore) :
    φ.next (.createStaffLedger e) r s = φ := by
  unfold WithdrawalPhase.next
  split <;> rfl

theorem delivered_of_ok {r : WithdrawalReply} (h : r.ok = true) : ¬ r.delivered = false := by
  rw [WithdrawalReply.ok, Bool.and_eq_true] at h
  rw [h.1]
  nofun

theorem follows_run {c : WithdrawalCmd} {f : WithdrawalReply × WithdrawalStore → WithdrawalFlow α}
    {Q : α → WithdrawalPhase → Prop} (hc : WithdrawalAllows φ c)
    (h : ∀ r s, r.delivered = true → Follows
      (guarded WithdrawalAllows WithdrawalPhase.next) (φ.next c r s) (f (r, s)) Q
        fun _ _ => True) :
    Follows (guarded WithdrawalAllows WithdrawalPhase.next) φ (run c >>= f) Q
      fun _ _ => True := by
  apply follows_guarded_bind hc
  · intro r s
    trivial
  · intro r s hr
    exact h r s (Bool.eq_true_of_not_eq_false (delivered_of_ok hr))

theorem follows_last {c : WithdrawalCmd} (hc : WithdrawalAllows φ c) (a : α) :
    WithdrawalFollows φ (do let _ ← run c; pure a) :=
  follows_run hc fun _ _ _ => trivial

theorem resolve_follows {f : Option WalletUser → WithdrawalFlow α}
    (h : ∀ u, WithdrawalFollows { φ with user := u } (f u)) (hnone : WithdrawalFollows φ (f none)) :
    WithdrawalFollows φ (resolveWithdrawalCreatorUser w >>= f) := by
  apply follows_bind
  rw [resolveWithdrawalCreatorUser]
  split
  · refine follows_run trivial fun r s hr => ?_
    simp [WithdrawalPhase.next, hr, h]
  · refine follows_run trivial fun r s hr => ?_
    simp [WithdrawalPhase.next, hr, h]
  · exact hnone

theorem Withdrawal.Owned.notWritten (h : w.Owned) (hstaff : w.staffUserId = none) (id : String) :
    (if w.creatorUserId.isNone then some id else none) = none := by
  have hsome : w.creatorUserId.isSome = true := by
    rcases h with h | h
    · exact h
    · simp [hstaff] at h
  rw [if_neg]
  rw [Option.isNone_iff_eq_none]
  exact Option.isSome_iff_ne_none.1 hsome

variable (q : StaffAction)

theorem approve_follows (hw : φ.loaded = some w) (hstatus : w.status = .pending)
    {creatorUserId : Option String} (howner : w.Owned → creatorUserId = none) :
    WithdrawalFollows φ (approve q w creatorUserId) := by
  apply follows_last
  exact ⟨w, hw, nofun, nofun, nofun, fun _ => hstatus, howner⟩

theorem approval_follows : WithdrawalFollows .start (processWithdrawalApproval q) := by
  refine follows_run trivial fun r s hr => ?_
  rw [WithdrawalPhase.next, if_neg (by rw [hr]; nofun)]
  dsimp only
  split
  · trivial
  · rename_i w hw
    split
    · split
      · trivial
      split
      · trivial
      · rename_i hstatus
        rw [not_not] at hstatus
        refine follows_run trivial fun r s hr => ?_
        rw [WithdrawalPhase.next, if_neg (by rw [hr]; nofun)]
        split
        · trivial
        split
        · trivial
        · exact approve_follows q hw hstatus fun _ => rfl
    · rename_i hstaff
      split
      · trivial
      split
      · trivial
      rename_i hstatus
      rw [not_not] at hstatus
      have hbody : ∀ (φ : WithdrawalPhase) (u : Option WalletUser), φ.loaded = some w →
          WithdrawalFollows φ (match u with
            | none => pure (.error 404 "Creator user not found")
            | some u =>
              if u.coins < w.amount then pure (creatorBalanceTooLow u.coins w.amount "approve")
              else approve q w (if w.creatorUserId.isNone then some u.id else none)) := by
        intro φ u hφ
        split
        · trivial
        · split
          · trivial
          · exact approve_follows q hφ hstatus fun howned => howned.notWritten hstaff _
      apply resolve_follows
      · intro u
        exact hbody _ u hw
      · exact hbody _ none hw

theorem rejection_follows : WithdrawalFollows .start (processWithdrawalRejection q) := by
  rw [processWithdrawalRejection]
  -- Which commands are issued does not depend on the trimmed notes.
  generalize trim (q.notes.getD "") = notes
  dsimp only
  split
  · trivial
  refine follows_run trivial fun r s hr => ?_
  rw [WithdrawalPhase.next, if_neg (by rw [hr]; nofun)]
  dsimp only
  split
  · trivial
  · rename_i w hw
    split
    · trivial
    split
    · trivial
    split
    · trivial
    · apply follows_last
      exact ⟨w, hw, nofun, nofun, nofun, nofun, fun _ => rfl⟩

theorem savePaid_follows (txId : String) (isNew : Bool) {creatorUserId : Option String}
    (hw : φ.loaded = some w) (howner : w.Owned → creatorUserId = none)
    (hnew : isNew = true → φ.paying = .decremented)
    (hold : isNew = false → w.transactionId.isSome = true) :
    WithdrawalFollows φ (savePaid q w txId isNew creatorUserId) := by
  apply follows_last
  refine ⟨w, hw, ?_, ?_, nofun, nofun, howner⟩
  · intro hsome
    cases isNew with
    | true => exact hnew rfl
    | false => cases hsome
  · intro _
    cases isNew with
    | true => exact .inr (hnew rfl)
    | false => exact .inl (hold rfl)

theorem payStaff_follows (withdrawalId uuid : String) (q : StaffAction) (staffUserId : String)
    (hw : φ.loaded = some w) (hstatus : w.status = .approved) (hpaying : φ.paying = .notStarted) :
    WithdrawalFollows φ (payStaff withdrawalId uuid q w staffUserId) := by
  rw [payStaff]
  split
  · trivial
  split
  · rename_i txId htx
    simp [htx, WithdrawalAllows, run, savePaid, hw]
  · refine follows_run trivial fun r s hr => ?_
    rw [WithdrawalPhase.next, if_neg (by rw [hr]; nofun)]
    dsimp only
    split
    · trivial
    · rename_i u hu
      split
      · trivial
      · rename_i hbalance
        refine follows_run ⟨hpaying, w, hw, hstatus, rfl⟩ fun r s hr => ?_
        rw [WithdrawalPhase.next, if_neg (by rw [hr]; nofun)]
        have hmax : max 0 (u.staffCoinsBalance - w.amount) = u.staffCoinsBalance - w.amount := by
          apply max_eq_right
          omega
        refine follows_run ⟨rfl, w, u, hw, hu, rfl, hmax⟩ fun r s hr => ?_
        rw [WithdrawalPhase.next, if_neg (by rw [hr]; nofun)]
        refine follows_run trivial fun r s hr => ?_
        rw [next_createStaffLedger]
        split
        · trivial
        · exact savePaid_follows q _ true hw (fun _ => rfl) (fun _ => rfl) nofun

theorem payCreator_follows (withdrawalId uuid : String) (q : StaffAction)
    (hw : φ.loaded = some w) (hstaff : w.staffUserId = none) (hstatus : w.status = .approved)
    (hpaying : φ.paying = .notStarted) :
    WithdrawalFollows φ (payCreator withdrawalId uuid q w) := by
  apply resolve_follows
  · intro u
    cases u with
    | none => trivial
    | some u =>
      refine follows_run trivial fun r s hr => ?_
      rw [next_findCreator]
      dsimp only
      split
      · rename_i txId htx
        apply savePaid_follows (φ := { φ with user := some u }) q txId false hw (fun _ => rfl) nofun
        intro _
        rw [htx]
        rfl
      split
      · trivial
      · refine follows_run ⟨hpaying, w, hw, hstatus, rfl⟩ fun r s hr => ?_
        rw [WithdrawalPhase.next, if_neg (by rw [hr]; nofun)]
        refine follows_run ⟨rfl, w, u, hw, rfl, rfl, rfl⟩ fun r s hr => ?_
        rw [WithdrawalPhase.next, if_neg (by rw [hr]; nofun)]
        split
        · refine follows_run trivial fun r s hr => ?_
          rw [next_saveEarnings]
          exact savePaid_follows q _ true hw (fun howned => howned.notWritten hstaff _)
            (fun _ => rfl) nofun
        · exact savePaid_follows q _ true hw (fun howned => howned.notWritten hstaff _)
            (fun _ => rfl) nofun
  · trivial

theorem markPaid_follows (withdrawalId uuid : String) (q : StaffAction) :
    WithdrawalFollows .start (processWithdrawalMarkPaid withdrawalId uuid q) := by
  refine follows_run trivial fun r s hr => ?_
  rw [WithdrawalPhase.next, if_neg (by rw [hr]; nofun)]
  dsimp only
  split
  · trivial
  · rename_i w hw
    split
    · trivial
    split
    · trivial
    · rename_i hstatus
      rw [not_not] at hstatus
      split
      · exact payStaff_follows withdrawalId uuid q _ hw hstatus rfl
      · exact payCreator_follows withdrawalId uuid q hw ‹_› hstatus rfl

attribute [local irreducible] processWithdrawalRejection processWithdrawalMarkPaid

theorem withdrawalProgram_follows (withdrawalId : String) (q : WithdrawalRequest) :
    (withdrawalProgram withdrawalId q).Follows
      (guarded WithdrawalAllows WithdrawalPhase.next) .start fun _ _ => True := by
  cases q with
  | approve q => exact Follows.run (approval_follows q)
  | reject q => exact Follows.run (rejection_follows q)
  | markPaid uuid q => exact Follows.run (markPaid_follows withdrawalId uuid q)
  | credit field userId amount => exact fun r s => ⟨_, guarded_of trivial, trivial⟩

end protocol

end VibemeetBackend.Creator
