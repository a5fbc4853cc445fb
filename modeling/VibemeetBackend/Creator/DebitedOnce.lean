import VibemeetBackend.Creator.Withdrawals
import VibemeetBackend.Mongo.Collection

/-!
# One debit for a withdrawal

What the requests on one withdrawal may do to it and to the wallets, over whole runs: any requests,
credits by others between any two of their writes, and requests that stop for good anywhere.
-/

namespace VibemeetBackend.Creator

open Async Pool

/-! ### What is counted -/

section events

variable (e : Event WithdrawalCmd WithdrawalReply WithdrawalStore)

def isDebit : Bool :=
  match e.cmd with
  | .createDebit _ => e.ans.delivered
  | _ => false

def isDecrement : Bool :=
  match e.cmd with
  | .saveWallet .. => e.ans.delivered
  | _ => false

def decrements (field : WalletField) (userId : String) : Bool :=
  match e.cmd with
  | .saveWallet f id _ => e.ans.delivered && f == field && id == userId
  | _ => false

def credited (field : WalletField) (userId : String) : ℤ :=
  match e.cmd with
  | .credit f id amount =>
    if e.ans.delivered = true ∧ f = field ∧ id = userId then amount else 0
  | _ => 0

def writesStatus (status : WithdrawalStatus) : Bool :=
  match e.cmd with
  | .saveWithdrawal update => e.ans.delivered && update.status == status
  | _ => false

end events

def WithdrawalStore.balance (s : WithdrawalStore) (field : WalletField) (userId : String) :
    Option ℤ :=
  (s.user (.byId userId)).map fun u => u.wallet field

/-- A debit finds none recorded, the save of a wallet finds the balance that its request has loaded,
and the save of a withdrawal finds it open, or in the status that it writes. -/
def Undisturbed (x : WithdrawalPhase × Event WithdrawalCmd WithdrawalReply WithdrawalStore) : Prop :=
  match x.2.cmd with
  | .createDebit _ => x.2.ans.delivered = true → x.2.before.debits = []
  | .saveWallet field userId _ => x.2.ans.delivered = true →
      x.2.before.balance field userId = x.1.user.map fun u => u.wallet field
  | .saveWithdrawal update => x.2.ans.delivered = true → ∀ w ∈ x.2.before.withdrawal,
      w.status = .rejected ∨ w.status = .paid → w.status = update.status
  | _ => True

instance : DecidablePred Undisturbed := fun x => by
  unfold Undisturbed
  split <;> infer_instance

/-! ### The payments in progress -/

def WithdrawalPhase.hasDebited (φ : WithdrawalPhase) : Bool := φ.paying != .notStarted

def WithdrawalPhase.hasDecremented (φ : WithdrawalPhase) : Bool := φ.paying == .decremented

/-- The debits and the decrements are those of the payments in progress. -/
structure Counted (φs : List WithdrawalPhase)
    (l : List (Event WithdrawalCmd WithdrawalReply WithdrawalStore)) (t : WithdrawalStore) :
    Prop where
  rows : t.debits.length = l.countP isDebit
  once : l.countP isDebit ≤ 1
  debited : φs.countP WithdrawalPhase.hasDebited = l.countP isDebit
  decremented : φs.countP WithdrawalPhase.hasDecremented = l.countP isDecrement

variable {w : Withdrawal} {φ : WithdrawalPhase} {φs : List WithdrawalPhase} {i : ℕ}
  {l : List (Event WithdrawalCmd WithdrawalReply WithdrawalStore)} {s t : WithdrawalStore}
  {c : WithdrawalCmd} {r : WithdrawalReply}

theorem next_of_not_delivered (hr : r.delivered = false) : φ.next c r t = φ := if_pos hr

theorem exec_of_not_delivered (hr : r.delivered = false) : c.exec r t = t := if_pos hr

theorem hasDebited_of_hasDecremented (h : φ.hasDecremented = true) : φ.hasDebited = true := by
  rw [WithdrawalPhase.hasDecremented, beq_iff_eq] at h
  rw [WithdrawalPhase.hasDebited, h]
  rfl

theorem Counted.decremented_le (h : Counted φs l t) : l.countP isDecrement ≤ l.countP isDebit := by
  rw [← h.debited, ← h.decremented]
  apply List.countP_mono_left
  intro φ _ hφ
  exact hasDebited_of_hasDecremented hφ

theorem Counted.together (h : Counted φs l t) (hnone : ∀ φ ∈ φs, φ.paying ≠ .debited) :
    l.countP isDebit = l.countP isDecrement := by
  rw [← h.debited, ← h.decremented]
  apply List.countP_congr
  intro φ hφ
  have hstands := hnone φ hφ
  unfold WithdrawalPhase.hasDebited WithdrawalPhase.hasDecremented
  cases hpaying : φ.paying with
  | debited => exact absurd hpaying hstands
  | notStarted => decide
  | decremented => decide

variable {e : Event WithdrawalCmd WithdrawalReply WithdrawalStore} {t' : WithdrawalStore}

theorem Counted.other (h : Counted φs l t) (hi : φs[i]? = some φ) {φ' : WithdrawalPhase}
    (hφ : φ'.paying = φ.paying) (ht : t'.debits = t.debits) (hdebit : isDebit e = false)
    (hdecrement : isDecrement e = false) : Counted (φs.set i φ') (l ++ [e]) t' := by
  have hfirst := countP_phases_set (ψ := φ') hi WithdrawalPhase.hasDebited
  have hsecond := countP_phases_set (ψ := φ') hi WithdrawalPhase.hasDecremented
  rw [WithdrawalPhase.hasDebited, WithdrawalPhase.hasDebited, hφ] at hfirst
  rw [WithdrawalPhase.hasDecremented, WithdrawalPhase.hasDecremented, hφ] at hsecond
  have hl : (l ++ [e]).countP isDebit = l.countP isDebit := by
    rw [countP_snoc, hdebit]
    rfl
  have hl' : (l ++ [e]).countP isDecrement = l.countP isDecrement := by
    rw [countP_snoc, hdecrement]
    rfl
  constructor
  · rw [ht, hl]
    exact h.rows
  · rw [hl]
    exact h.once
  · rw [hl, ← h.debited]
    exact Nat.add_right_cancel hfirst
  · rw [hl', ← h.decremented]
    exact Nat.add_right_cancel hsecond

theorem Counted.debit (h : Counted φs l t) (hi : φs[i]? = some φ) (hφ : φ.paying = .notStarted)
    (hnone : t.debits = []) (ht : t'.debits.length = 1) (hdebit : isDebit e = true)
    (hdecrement : isDecrement e = false) :
    Counted (φs.set i { φ with paying := .debited }) (l ++ [e]) t' := by
  have hfirst := countP_phases_set (ψ := { φ with paying := .debited }) hi
    WithdrawalPhase.hasDebited
  have hsecond := countP_phases_set (ψ := { φ with paying := .debited }) hi
    WithdrawalPhase.hasDecremented
  rw [h.debited, WithdrawalPhase.hasDebited, hφ] at hfirst
  rw [h.decremented, WithdrawalPhase.hasDecremented, hφ] at hsecond
  have hrows := h.rows
  rw [hnone, List.length_nil] at hrows
  have hl : (l ++ [e]).countP isDebit = 1 := by
    rw [countP_snoc, hdebit, ← hrows]
    rfl
  constructor
  · rw [ht, hl]
  · rw [hl]
  · rw [hl]
    rw [← hrows] at hfirst
    exact hfirst
  · rw [countP_snoc, hdecrement]
    exact hsecond

theorem Counted.decrement (h : Counted φs l t) (hi : φs[i]? = some φ) (hφ : φ.paying = .debited)
    (ht : t'.debits = t.debits) (hdebit : isDebit e = false) (hdecrement : isDecrement e = true) :
    Counted (φs.set i { φ with paying := .decremented }) (l ++ [e]) t' := by
  have hfirst := countP_phases_set (ψ := { φ with paying := .decremented }) hi
    WithdrawalPhase.hasDebited
  have hsecond := countP_phases_set (ψ := { φ with paying := .decremented }) hi
    WithdrawalPhase.hasDecremented
  rw [h.debited, WithdrawalPhase.hasDebited, hφ] at hfirst
  rw [h.decremented, WithdrawalPhase.hasDecremented, hφ] at hsecond
  have hl : (l ++ [e]).countP isDebit = l.countP isDebit := by
    rw [countP_snoc, hdebit]
    rfl
  constructor
  · rw [ht, hl]
    exact h.rows
  · rw [hl]
    exact h.once
  · rw [hl]
    exact Nat.add_right_cancel hfirst
  · rw [countP_snoc, hdecrement]
    exact hsecond

theorem Counted.step (h : Counted φs l t) (hi : φs[i]? = some φ) (hA : WithdrawalAllows φ c)
    (hG : Undisturbed (φ, ⟨t, c, r, c.exec r t⟩)) :
    Counted (φs.set i (φ.next c r t)) (l ++ [⟨t, c, r, c.exec r t⟩]) (c.exec r t) := by
  by_cases hr : r.delivered = false
  · apply h.other hi
    · rw [next_of_not_delivered hr]
    · rw [exec_of_not_delivered hr]
    · unfold isDebit
      split
      · exact hr
      · rfl
    · unfold isDecrement
      split
      · exact hr
      · rfl
  have hnext : φ.next c r t = _ := if_neg hr
  have hexec : c.exec r t = _ := if_neg hr
  rw [Bool.not_eq_false] at hr
  cases c with
  | createDebit row =>
    have hnone : t.debits = [] := hG hr
    rw [hnext]
    apply h.debit hi hA.1 hnone
    · rw [hexec, hnone]
      rfl
    · exact hr
    · rfl
  | saveWallet field userId balance =>
    rw [hnext]
    apply h.decrement hi hA.1
    · rw [hexec]
      rfl
    · rfl
    · exact hr
  | createStaffLedger entry =>
    apply h.other hi _ _ rfl rfl
    · rw [hnext]
    · rw [hexec]
      dsimp only
      split <;> rfl
  | _ =>
    apply h.other hi _ _ rfl rfl
    · rw [hnext]
    · have hdebits := congrArg WithdrawalStore.debits hexec
      exact hdebits

/-! ### What the requests have loaded -/

/-- A copy of the withdrawal `w`: where it says that the debit was made, it was. -/
structure Booked (w : Withdrawal)
    (l : List (Event WithdrawalCmd WithdrawalReply WithdrawalStore)) (x : Withdrawal) : Prop where
  amount : x.amount = w.amount
  made : x.transactionId.isSome = true ∨ x.status = .paid → l.countP isDecrement = 1

theorem Booked.snoc {x : Withdrawal} (h : Booked w l x) (hle : (l ++ [e]).countP isDecrement ≤ 1) :
    Booked w (l ++ [e]) x := by
  refine ⟨h.amount, fun hx => ?_⟩
  have hmade := h.made hx
  rw [countP_snoc] at hle ⊢
  omega

structure Copies (w : Withdrawal) (φs : List WithdrawalPhase)
    (l : List (Event WithdrawalCmd WithdrawalReply WithdrawalStore)) (t : WithdrawalStore) :
    Prop where
  stored : ∃ x, t.withdrawal = some x ∧ Booked w l x
  loaded : ∀ (j : ℕ) (φ : WithdrawalPhase) (x : Withdrawal), φs[j]? = some φ →
    φ.loaded = some x → Booked w l x

theorem next_loaded (φ : WithdrawalPhase) (c : WithdrawalCmd) (r : WithdrawalReply)
    (t : WithdrawalStore) :
    (φ.next c r t).loaded = φ.loaded ∨ (φ.next c r t).loaded = t.withdrawal := by
  unfold WithdrawalPhase.next
  split
  · exact .inl rfl
  cases c with
  | findWithdrawal => exact .inr rfl
  | _ => exact .inl rfl

theorem exec_withdrawal (c : WithdrawalCmd) (r : WithdrawalReply) (t : WithdrawalStore) :
    ((c.exec r t).withdrawal = t.withdrawal ∧
        ∀ status, writesStatus ⟨t, c, r, c.exec r t⟩ status = false) ∨
      ∃ update, c = .saveWithdrawal update ∧ r.delivered = true ∧
        (c.exec r t).withdrawal = t.withdrawal.map update.apply := by
  by_cases hr : r.delivered = false
  · refine .inl ⟨by rw [exec_of_not_delivered hr], fun status => ?_⟩
    unfold writesStatus
    split
    · rw [hr]
      rfl
    · rfl
  have hexec : c.exec r t = _ := if_neg hr
  have hexec := congrArg WithdrawalStore.withdrawal hexec
  rw [Bool.not_eq_false] at hr
  cases c with
  | saveWithdrawal update => exact .inr ⟨update, rfl, hr, hexec⟩
  | createStaffLedger entry =>
    refine .inl ⟨?_, fun _ => rfl⟩
    rw [hexec]
    dsimp only
    split <;> rfl
  | _ => exact .inl ⟨hexec, fun _ => rfl⟩

theorem Counted.of_decremented (h : Counted φs l t) (hi : φs[i]? = some φ)
    (hφ : φ.paying = .decremented) : l.countP isDecrement = 1 := by
  have hle := h.decremented_le
  have honce := h.once
  have hpos : 0 < φs.countP WithdrawalPhase.hasDecremented := by
    rw [List.countP_pos_iff]
    refine ⟨φ, List.mem_of_getElem? hi, ?_⟩
    rw [WithdrawalPhase.hasDecremented, hφ]
    rfl
  rw [h.decremented] at hpos
  omega

theorem Copies.step (h : Copies w φs l t) (hcount : Counted φs l t) (hi : φs[i]? = some φ)
    (hA : WithdrawalAllows φ c) (hle : (l ++ [e]).countP isDecrement ≤ 1) :
    Copies w (φs.set i (φ.next c r t)) (l ++ [e]) (c.exec r t) := by
  obtain ⟨x, hx, hbooked⟩ := h.stored
  constructor
  · obtain ⟨hsame, -⟩ | ⟨update, rfl, -, hsaved⟩ := exec_withdrawal c r t
    · rw [hsame]
      exact ⟨x, hx, hbooked.snoc hle⟩
    · rw [hsaved, hx]
      refine ⟨_, rfl, Booked.snoc ?_ hle⟩
      obtain ⟨y, hy, hnew, hpaid, -⟩ := hA
      refine ⟨hbooked.amount, ?_⟩
      rintro (htx | hstatus)
      · have htx : (update.transactionId <|> x.transactionId).isSome = true := htx
        cases hu : update.transactionId with
        | none =>
          rw [hu] at htx
          exact hbooked.made (.inl htx)
        | some id => exact hcount.of_decremented hi (hnew (by rw [hu]; rfl))
      · rcases hpaid hstatus with htx | hφ
        · exact (h.loaded i φ y hi hy).made (.inl htx)
        · exact hcount.of_decremented hi hφ
  · intro j ψ y hj hy
    rcases getElem?_set_cases hj with ⟨-, rfl⟩ | ⟨-, hj⟩
    · rcases next_loaded φ c r t with hsame | hload
      · rw [hsame] at hy
        exact (h.loaded i φ y hi hy).snoc hle
      · rw [hload, hx] at hy
        cases hy
        exact hbooked.snoc hle
    · exact (h.loaded j ψ y hj hy).snoc hle

/-! ### The status -/

def WithdrawalStatus.IsFinal (status : WithdrawalStatus) : Prop :=
  status = .rejected ∨ status = .paid

structure Settled (l : List (Event WithdrawalCmd WithdrawalReply WithdrawalStore))
    (t : WithdrawalStore) : Prop where
  stored : ∀ status : WithdrawalStatus, status.IsFinal →
    (∃ e ∈ l, writesStatus e status = true) → ∀ x, t.withdrawal = some x → x.status = status
  after : ∀ a b : WithdrawalStatus, a.IsFinal → a ≠ b →
    After (fun e => writesStatus e a = true) (fun e => writesStatus e b = false) l

theorem Settled.step (h : Settled l t) (hG : Undisturbed (φ, ⟨t, c, r, c.exec r t⟩))
    (hstored : ∃ x, t.withdrawal = some x) :
    Settled (l ++ [⟨t, c, r, c.exec r t⟩]) (c.exec r t) := by
  obtain ⟨x, hx⟩ := hstored
  obtain ⟨hsame, hwrites⟩ | ⟨update, rfl, hr, hsaved⟩ := exec_withdrawal c r t
  · constructor
    · rintro status hfinal ⟨e, he, hstatus⟩
      rw [hsame]
      apply h.stored status hfinal
      rcases mem_snoc.1 he with he | rfl
      · exact ⟨e, he, hstatus⟩
      · simp [hwrites] at hstatus
    · intro a b ha hab
      rw [after_snoc]
      exact ⟨h.after a b ha hab, fun _ => hwrites b⟩
  · -- what was written before is what is stored, and so what is written now
    have heq : ∀ a : WithdrawalStatus, a.IsFinal → (∃ e ∈ l, writesStatus e a = true) →
        update.status = a := by
      intro a ha hwritten
      have hstatus := h.stored a ha hwritten x hx
      rw [← hG hr x hx (by rw [hstatus]; exact ha)]
      exact hstatus
    have hlast : ∀ (a : WithdrawalStatus) (t' : WithdrawalStore),
        writesStatus ⟨t, .saveWithdrawal update, r, t'⟩ a = (update.status == a) := by
      intro a t'
      rw [writesStatus, hr]
      rfl
    constructor
    · rintro status hfinal ⟨e, he, hstatus⟩ y hy
      rw [hsaved, hx] at hy
      cases hy
      show update.status = status
      rcases mem_snoc.1 he with he | rfl
      · exact heq status hfinal ⟨e, he, hstatus⟩
      · simpa [hlast] using hstatus
    · intro a b ha hab
      rw [after_snoc]
      refine ⟨h.after a b ha hab, fun hwritten => ?_⟩
      rw [hlast, heq a ha hwritten, beq_eq_false_iff_ne]
      exact hab

/-! ### The wallets -/

theorem wallet_setWallet (u : WalletUser) (v : ℤ) (field field' : WalletField) :
    (u.setWallet v field).wallet field' = if field = field' then v else u.wallet field' := by
  cases field <;> cases field' <;> rfl

theorem user_updateUser {f : WalletUser → WalletUser} (hf : ∀ u, (f u).id = u.id)
    (id userId : String) :
    (t.updateUser id f).user (.byId userId) =
      if id = userId then (t.user (.byId userId)).map f else t.user (.byId userId) :=
  Mongo.find?_update hf id userId t.users

theorem balance_setWallet (g : WalletUser → ℤ) (field field' : WalletField) (id userId : String) :
    (t.updateUser id fun u => u.setWallet (g u) field).balance field' userId =
      if field = field' ∧ id = userId then (t.user (.byId userId)).map g
      else t.balance field' userId := by
  rw [WithdrawalStore.balance, user_updateUser fun u => by cases field <;> rfl]
  by_cases hid : id = userId
  · rw [if_pos hid, Option.map_map]
    by_cases hfield : field = field'
    · rw [if_pos ⟨hfield, hid⟩]
      congr 1
      funext u
      show (u.setWallet (g u) field).wallet field' = g u
      rw [wallet_setWallet, if_pos hfield]
    · rw [if_neg fun h => hfield h.1, WithdrawalStore.balance]
      congr 1
      funext u
      show (u.setWallet (g u) field).wallet field' = u.wallet field'
      rw [wallet_setWallet, if_neg hfield]
  · rw [if_neg hid, if_neg fun h => hid h.2]
    rfl

/-- Every wallet holds what it held, with the credits and without the decrements. -/
def WalletsKept (w : Withdrawal) (s : WithdrawalStore)
    (l : List (Event WithdrawalCmd WithdrawalReply WithdrawalStore)) (t : WithdrawalStore) : Prop :=
  ∀ field userId, t.balance field userId =
    (s.balance field userId).map fun v =>
      v + (l.map fun e => credited e field userId).sum -
        w.amount * l.countP fun e => decrements e field userId

theorem WalletsKept.snoc (h : WalletsKept w s l t)
    (he : ∀ field userId, t'.balance field userId = (t.balance field userId).map fun v =>
      v + credited e field userId - w.amount * (decrements e field userId).toNat) :
    WalletsKept w s (l ++ [e]) t' := by
  intro field userId
  rw [he, h field userId, Option.map_map, countP_snoc, List.map_append, List.sum_append,
    List.map_singleton, List.sum_singleton]
  congr 1
  funext v
  show v + _ - _ + _ - _ = _
  push_cast
  ring

theorem WalletsKept.same (h : WalletsKept w s l t) (husers : t'.users = t.users)
    (hcredit : ∀ field userId, credited e field userId = 0)
    (hdecrement : ∀ field userId, decrements e field userId = false) :
    WalletsKept w s (l ++ [e]) t' := by
  apply h.snoc
  intro field userId
  have hbalance : t'.balance field userId = t.balance field userId := by
    rw [WithdrawalStore.balance, WithdrawalStore.user, husers]
    rfl
  rw [hbalance, hcredit, hdecrement]
  cases t.balance field userId with
  | none => rfl
  | some v =>
    show some v = some (v + 0 - w.amount * 0)
    rw [mul_zero, sub_zero, add_zero]

theorem WalletsKept.step (h : WalletsKept w s l t) (hA : WithdrawalAllows φ c)
    (hloaded : ∀ x, φ.loaded = some x → x.amount = w.amount)
    (hG : Undisturbed (φ, ⟨t, c, r, c.exec r t⟩)) :
    WalletsKept w s (l ++ [⟨t, c, r, c.exec r t⟩]) (c.exec r t) := by
  by_cases hr : r.delivered = false
  · apply h.same
    · rw [exec_of_not_delivered hr]
    · grind [credited]
    grind [decrements]
  have hexec : c.exec r t = _ := if_neg hr
  rw [Bool.not_eq_false] at hr
  cases c with
  | saveWallet field userId balance =>
    obtain ⟨-, x, u, hx, hu, rfl, rfl⟩ := hA
    have hfound : t.balance field u.id = some (u.wallet field) := by
      rw [hG hr]
      exact congrArg (Option.map fun u => u.wallet field) hu
    apply h.snoc
    intro field' userId'
    rw [hexec, balance_setWallet fun _ => u.wallet field - x.amount]
    by_cases hwallet : field = field' ∧ u.id = userId'
    · obtain ⟨rfl, rfl⟩ := hwallet
      have huser : ∃ v, t.user (.byId u.id) = some v := by
        rw [WithdrawalStore.balance, Option.map_eq_some_iff] at hfound
        obtain ⟨v, hv, -⟩ := hfound
        exact ⟨v, hv⟩
      obtain ⟨v, hv⟩ := huser
      have hdec : ∀ t', decrements ⟨t, .saveWallet field u.id (u.wallet field - x.amount), r, t'⟩
          field u.id = true := by
        intro t'
        show (r.delivered && field == field && u.id == u.id) = true
        simp [hr]
      rw [if_pos ⟨rfl, rfl⟩, hfound, hv, hdec, ← hloaded x hx]
      show some (u.wallet field - x.amount) = some (u.wallet field + 0 - x.amount * 1)
      rw [add_zero, mul_one]
    · have hdec : ∀ t', decrements ⟨t, .saveWallet field u.id (u.wallet field - x.amount), r, t'⟩
          field' userId' = false := by
        intro t'
        rw [Bool.eq_false_iff]
        intro hd
        have hd : (r.delivered && field == field' && u.id == userId') = true := hd
        rw [Bool.and_eq_true, Bool.and_eq_true, beq_iff_eq, beq_iff_eq] at hd
        exact hwallet ⟨hd.1.2, hd.2⟩
      rw [if_neg hwallet, hdec]
      cases t.balance field' userId' with
      | none => rfl
      | some v =>
        show some v = some (v + 0 - w.amount * 0)
        rw [mul_zero, sub_zero, add_zero]
  | credit field userId amount =>
    apply h.snoc
    intro field' userId'
    rw [hexec, balance_setWallet fun u => u.wallet field + amount]
    by_cases hwallet : field = field' ∧ userId = userId'
    · obtain ⟨rfl, rfl⟩ := hwallet
      have hcredit : ∀ t', credited ⟨t, .credit field userId amount, r, t'⟩ field userId = amount :=
        fun _ => if_pos ⟨hr, rfl, rfl⟩
      rw [if_pos ⟨rfl, rfl⟩, hcredit, WithdrawalStore.balance, Option.map_map]
      congr 1
      funext v
      show v.wallet field + amount = v.wallet field + amount - w.amount * 0
      rw [mul_zero, sub_zero]
    · have hcredit : ∀ t', credited ⟨t, .credit field userId amount, r, t'⟩ field' userId' = 0 :=
        fun _ => if_neg fun h => hwallet h.2
      rw [if_neg hwallet, hcredit]
      cases t.balance field' userId' with
      | none => rfl
      | some v =>
        show some v = some (v + 0 - w.amount * 0)
        rw [mul_zero, sub_zero, add_zero]
  | createStaffLedger entry =>
    apply h.same
    · rw [hexec]
      dsimp only
      split <;> rfl
    · intro _ _
      rfl
    · intro _ _
      rfl
  | _ =>
    apply h.same
    · have husers := congrArg WithdrawalStore.users hexec
      exact husers
    · intro _ _
      rfl
    · intro _ _
      rfl

/-! ### Whole runs -/

structure Debiting (w : Withdrawal) (s : WithdrawalStore) (φs : List WithdrawalPhase)
    (l : List (WithdrawalPhase × Event WithdrawalCmd WithdrawalReply WithdrawalStore))
    (t : WithdrawalStore) : Prop where
  counted : Counted φs (l.map Prod.snd) t
  copies : Copies w φs (l.map Prod.snd) t
  settled : Settled (l.map Prod.snd) t
  wallets : WalletsKept w s (l.map Prod.snd) t

theorem Debiting.spawn
    {l : List (WithdrawalPhase × Event WithdrawalCmd WithdrawalReply WithdrawalStore)}
    (h : Debiting w s φs l t) : Debiting w s (φs ++ [.start]) l t := by
  refine ⟨⟨h.counted.rows, h.counted.once, ?_, ?_⟩, ⟨h.copies.stored, ?_⟩, h.settled, h.wallets⟩
  · rw [countP_snoc]
    exact h.counted.debited
  · rw [countP_snoc]
    exact h.counted.decremented
  · intro j φ x hj hx
    rcases getElem?_snoc_cases hj with hj | rfl
    · exact h.copies.loaded j φ x hj hx
    · cases hx

theorem Debiting.step
    {l : List (WithdrawalPhase × Event WithdrawalCmd WithdrawalReply WithdrawalStore)}
    (h : Debiting w s φs l t) (hi : φs[i]? = some φ) (hA : WithdrawalAllows φ c)
    (hG : Undisturbed (φ, ⟨t, c, r, c.exec r t⟩)) :
    Debiting w s (φs.set i (φ.next c r t)) (l ++ [(φ, ⟨t, c, r, c.exec r t⟩)]) (c.exec r t) := by
  have hcounted := h.counted.step hi hA hG
  have hle := hcounted.decremented_le.trans hcounted.once
  obtain ⟨x, hx, -⟩ := h.copies.stored
  have hsettled := h.settled.step hG ⟨x, hx⟩
  have hwallets := h.wallets.step hA (fun x hx => (h.copies.loaded i φ x hi hx).amount) hG
  constructor
  · rw [List.map_append]
    exact hcounted
  · rw [List.map_append]
    exact h.copies.step h.counted hi hA hle
  · rw [List.map_append]
    exact hsettled
  · rw [List.map_append]
    exact hwallets

def sampleWithdrawal : Withdrawal :=
  { creatorUserId := some "u", creatorFirebaseUid := none, staffUserId := none, amount := 40
    status := .pending, transactionId := none, notes := none }

def superAdmin : StaffAction := ⟨true, true, none⟩

def answered : WithdrawalReply := ⟨true, true⟩

end VibemeetBackend.Creator
