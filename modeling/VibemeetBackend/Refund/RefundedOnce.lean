import VibemeetBackend.Async.Debt
import VibemeetBackend.Refund.RefundCall

/-!
# One refund for a call

Whole runs of refunds of one call and of movements by other features, with answers that are lost and
requests that stop for good anywhere.
-/

namespace VibemeetBackend.Refund

open Async Flow Pool

/-! ### What a run keeps to -/

def Store.refundsOf (s : Store) (type : TxType) : List CoinTransaction :=
  s.refunds.filter fun row => row.type == type

def Store.net (s : Store) (userId : String) : ℤ :=
  ((s.rows.filter fun row => row.userId == userId).map (·.signed)).sum

def Store.walletCoinsDeducted (s : Store) : ℕ :=
  (s.userCall.bind fun call => call.walletCoinsDeducted).getD 0

/-- From the call as it was settled, in `s`. -/
structure RefundedOnce (s t : Store) : Prop where
  refunded : ((t.refundsOf .credit).map (·.coins)).sum ≤ s.walletCoinsDeducted
  once : (t.refundsOf .credit).length ≤ 1
  payer : ∀ row ∈ t.refundsOf .credit, some row.userId = s.userCall.map (·.ownerUserId)
  clawedBack : (t.refundsOf .debit).length ≤ 1
  earned : ∀ row ∈ t.refundsOf .debit,
    ∃ call ∈ s.creatorCall, row.userId = call.ownerUserId ∧ row.coins ≤ call.coinsEarned

def WalletsKept (s t : Store) : Prop :=
  ∀ userId, (t.coins userId).map (fun coins : ℕ => (coins : ℤ)) =
    (s.coins userId).map fun coins : ℕ => (coins : ℤ) + (t.net userId - s.net userId)

/-- The payer's row finds no refund of the call, and a call that was paid from the wallet; the
creator's row finds no clawback. -/
def Timely (type : TxType) (s : Store) : Prop :=
  match type with
  | .credit => s.refunds = [] ∧ ∀ call ∈ s.userCall, call.coinsDeducted ≤ s.walletCoinsDeducted
  | .debit => s.refundsOf .debit = []

instance (type : TxType) : DecidablePred (Timely type) := fun s =>
  match type with
  | .credit => inferInstanceAs (Decidable (s.refunds = [] ∧
      ∀ call ∈ s.userCall, call.coinsDeducted ≤ s.walletCoinsDeducted))
  | .debit => inferInstanceAs (Decidable (s.refundsOf .debit = []))

/-- Rows and wallets are written and answered, rows are timely, and a wallet that is saved holds the
coins that it was loaded with. -/
def Sound (e : Event Cmd Reply Store) : Prop :=
  match e.cmd with
  | .insertTransaction row => e.ans.ok = true ∧ Timely row.type e.before
  | .saveCoins userId loaded _ => e.ans.ok = true ∧ e.before.coins userId = some loaded
  | _ => True

instance : DecidablePred Sound := fun e => by
  unfold Sound
  cases e.cmd <;> infer_instance

/-! ### What a request may do -/

/-- The rows of the call that the request has read, and the wallet that it has to save. -/
structure Phase where
  userCall : Option CallHistory
  creatorCall : Option CallHistory
  owes : Debt String

namespace Phase

def start : Phase := ⟨none, none, none⟩

def after (φ : Phase) (c : Cmd) (s : Store) : Phase :=
  match c with
  | .findUserCall => { φ with userCall := s.userCall }
  | .findCreatorCall => { φ with creatorCall := s.creatorCall }
  | .insertTransaction row => { φ with owes := some (row.userId, row.signed) }
  | .saveCoins .. => { φ with owes := none }
  | _ => φ

/-- A request whose command is not answered gives up. -/
def next (φ : Phase) (c : Cmd) (r : Reply) (s : Store) : Phase :=
  if r.ok then φ.after c s else { φ with owes := none }

end Phase

def Permits (φ : Phase) : Cmd → Prop
  | .insertTransaction row =>
    φ.owes = none ∧
      match row.type with
      | .credit => ∃ call, φ.userCall = some call ∧ row.userId = call.ownerUserId ∧
          row.coins = call.coinsDeducted
      | .debit => ∃ call, φ.creatorCall = some call ∧ row.userId = call.ownerUserId ∧
          row.coins ≤ call.coinsEarned
  | .saveCoins userId loaded coins => φ.owes = some (userId, (coins : ℤ) - loaded)
  | _ => φ.owes = none

/-! ### The controller follows the protocol -/

section protocol

variable {φ : Phase} {α : Type}

/-- The program ends with nothing owed. -/
abbrev Pays (φ : Phase) (p : RefundFlow α) (Q : α → Phase → Prop) : Prop :=
  Follows (guarded Permits Phase.next) φ p Q fun _ φ' => φ'.owes = none

theorem pays_run {c : Cmd} {f : Reply × Store → RefundFlow α} {Q : α → Phase → Prop}
    (hc : Permits φ c) (h : ∀ r s, Pays (φ.after c s) (f (r, s)) Q) : Pays φ (run c >>= f) Q := by
  apply follows_call_bind
  intro r s
  refine ⟨_, guarded_of hc, ?_, ?_⟩
  · intro hr
    rw [Phase.next, if_pos hr]
    exact h r s
  · intro hr
    rw [Phase.next, if_neg (by simp [hr])]

theorem creditUser_pays {call : CallHistory} (callId : String) (description : Moments.Text)
    (hcall : φ.userCall = some call) (hφ : φ.owes = none) :
    Pays φ (creditUser callId call description) fun _ φ' =>
      φ'.creatorCall = φ.creatorCall ∧ φ'.owes = none := by
  apply pays_run (c := .findUser call.ownerUserId)
  · exact hφ
  intro _ s
  dsimp only
  cases s.coins call.ownerUserId with
  | none => exact ⟨rfl, hφ⟩
  | some coins =>
    apply pays_run
    · exact ⟨hφ, call, hcall, rfl, rfl⟩
    intro _ _
    apply pays_run
    · show some (call.ownerUserId, (call.coinsDeducted : ℤ)) =
        some (call.ownerUserId, ((coins + call.coinsDeducted : ℕ) : ℤ) - coins)
      congr 2
      omega
    intro _ _
    exact ⟨rfl, rfl⟩

theorem debitCreator_pays {creatorCall : Option CallHistory} (callId : String)
    (description : Moments.Text) (hcall : φ.creatorCall = creatorCall) (hφ : φ.owes = none) :
    Pays φ (debitCreator callId creatorCall description) fun _ φ' => φ'.owes = none := by
  unfold debitCreator
  cases creatorCall with
  | none => exact hφ
  | some call =>
    dsimp only
    split
    · exact hφ
    apply pays_run (c := .findUser call.ownerUserId)
    · exact hφ
    intro _ s
    cases s.coins call.ownerUserId with
    | none => exact hφ
    | some coins =>
      dsimp only
      split
      · exact hφ
      apply pays_run
      · exact ⟨hφ, call, hcall, rfl, min_le_left _ _⟩
      intro _ _
      apply pays_run
      · have hle : min call.coinsEarned coins ≤ coins := min_le_right _ _
        show some (call.ownerUserId, -((min call.coinsEarned coins : ℕ) : ℤ)) =
          some (call.ownerUserId, ((coins - min call.coinsEarned coins : ℕ) : ℤ) - coins)
        congr 2
        omega
      intro _ _
      rfl

theorem executeRefund_pays {call : CallHistory} (callId : String) (reason : Moments.Text)
    (hcall : φ.userCall = some call) (hφ : φ.owes = none) :
    Pays φ (executeRefund callId call reason) fun _ φ' => φ'.owes = none := by
  apply pays_run (c := .getAdminUser)
  · exact hφ
  intro adminUser _
  apply pays_run (c := .findCreatorCall)
  · exact hφ
  intro _ s
  apply follows_bind
  apply (creditUser_pays (φ := { φ with creatorCall := s.creatorCall }) callId _ hcall hφ).mono _
    fun _ _ h => h
  rintro user φ' ⟨hcreator, howes⟩
  apply follows_bind
  apply (debitCreator_pays callId _ hcreator howes).mono _ fun _ _ h => h
  intro creator φ'' howes'
  exact howes'

theorem guardedRefund_pays (reason : Moments.Text) (hφ : φ.owes = none) :
    Pays φ (guardedRefund reason) fun _ φ' => φ'.owes = none := by
  apply pays_run (c := .findUserCall)
  · exact hφ
  intro r s
  dsimp only
  cases hread : s.userCall with
  | none => exact hφ
  | some call =>
    dsimp only
    split
    · exact hφ
    split
    · exact hφ
    apply pays_run (c := .findRefund)
    · exact hφ
    intro _ t
    split
    · exact hφ
    exact executeRefund_pays s.callId reason hread hφ

theorem refundCall_pays (reason : Option Moments.Text) :
    Pays Phase.start (refundCall reason) fun _ φ => φ.owes = none := by
  have htry : Pays Phase.start (tryRefund reason) fun _ φ => φ.owes = none := by
    apply pays_run (c := .assertAdmin)
    · rfl
    intro admin _
    dsimp only
    split
    · rfl
    cases reason with
    | none => rfl
    | some reason =>
      dsimp only
      split
      · rfl
      exact guardedRefund_pays reason rfl
  simp_all [refundCall]

theorem program_pays (q : Request) :
    (program q).Follows (guarded Permits Phase.next) .start fun _ φ => φ.owes = none := by
  cases q with
  | refund reason => exact (refundCall_pays reason).run_of
  | movement userId type coins =>
    intro r s
    refine ⟨_, guarded_of rfl, ?_⟩
    show (Phase.start.next (.movement userId type coins) r s).owes = none
    rw [Phase.next]
    split
    · rfl
    · rfl

end protocol

/-! ### Steps -/

theorem net_append (s : Store) (row : CoinTransaction) (userId : String) :
    (s.insert row).net userId =
      s.net userId + if row.userId = userId then row.signed else 0 := by
  show (((s.rows ++ [row]).filter fun row => row.userId == userId).map _).sum = _
  rw [List.filter_append, List.map_append, List.sum_append, List.filter_singleton]
  by_cases h : row.userId = userId
  · simp [h, Store.net]
  · simp [h, beq_eq_false_iff_ne.2 h, Store.net]

theorem refundsOf_append (s : Store) (row : CoinTransaction) (type : TxType) :
    (s.insert row).refundsOf type =
      s.refundsOf type ++ if row.isRefund s.callId = true ∧ row.type = type then [row] else [] := by
  show ((s.rows ++ [row]).filter fun row => row.isRefund s.callId).filter (fun row => row.type == type) = _
  rw [List.filter_append, List.filter_append, List.filter_singleton]
  by_cases h : row.isRefund s.callId = true
  · rw [h]
    by_cases ht : row.type = type
    · simp [ht, Store.refundsOf, Store.refunds]
    · simp [ht, Store.refundsOf, Store.refunds]
  · simp [h, Store.refundsOf, Store.refunds]

variable {s t : Store}

theorem RefundedOnce.congr {t' : Store} (h : RefundedOnce s t)
    (hsame : ∀ type, t'.refundsOf type = t.refundsOf type) : RefundedOnce s t' := by
  constructor
  · rw [hsame]
    exact h.refunded
  · rw [hsame]
    exact h.once
  · rw [hsame]
    exact h.payer
  · rw [hsame]
    exact h.clawedBack
  · rw [hsame]
    exact h.earned

theorem exec_call (c : Cmd) (r : Reply) (s : Store) :
    (c.exec r s).callId = s.callId ∧ (c.exec r s).userCall = s.userCall ∧
      (c.exec r s).creatorCall = s.creatorCall := by
  rw [Cmd.exec]
  split
  · cases c with
    | movement userId type coins =>
      rw [Cmd.effect]
      cases (s.coins userId).bind (moved type coins) with
      | _ => exact ⟨rfl, rfl, rfl⟩
    | _ => exact ⟨rfl, rfl, rfl⟩
  · exact ⟨rfl, rfl, rfl⟩

theorem movement_refundsOf (userId : String) (txType : TxType) (coins : ℕ) (s : Store)
    (type : TxType) : ((Cmd.movement userId txType coins).effect s).refundsOf type =
      s.refundsOf type := by
  rw [Cmd.effect]
  cases (s.coins userId).bind (moved txType coins) with
  | none => rfl
  | some wallet =>
    have happend := refundsOf_append (s.setCoins userId wallet)
      ⟨userId, txType, coins, .feature, [], none⟩ type
    have hother : ¬ ((⟨userId, txType, coins, .feature, [], none⟩ : CoinTransaction).isRefund
        (s.setCoins userId wallet).callId = true ∧ txType = type) := by
      rintro ⟨h, -⟩
      cases h
    rw [if_neg hother, List.append_nil] at happend
    exact happend

/-- What the phase knows of the call in `s`. -/
def Knows (s : Store) (φ : Phase) : Prop :=
  (∀ call, φ.userCall = some call → s.userCall = some call) ∧
    ∀ call, φ.creatorCall = some call → s.creatorCall = some call

variable {φ : Phase}

/-- **A row of the refund.** -/
theorem refundedOnce_step {c : Cmd} {r : Reply} (h : RefundedOnce s t)
    (hcall : t.callId = s.callId ∧ t.userCall = s.userCall ∧ t.creatorCall = s.creatorCall)
    (hknows : Knows s φ) (hA : Permits φ c) (hsound : Sound ⟨t, c, r, c.exec r t⟩) :
    RefundedOnce s (c.exec r t) := by
  have hsame : (∀ type, (c.effect t).refundsOf type = t.refundsOf type) →
      RefundedOnce s (c.exec r t) := by
    intro heffect
    apply h.congr
    intro type
    rw [Cmd.exec]
    split
    · exact heffect type
    · rfl
  cases c with
  | insertTransaction row =>
    obtain ⟨hok, hrow⟩ := hsound
    obtain ⟨-, hread⟩ := hA
    have hexec : (Cmd.insertTransaction row).exec r t = t.insert row := by
      rw [Cmd.exec, hok, Bool.true_or, if_pos rfl, Cmd.effect]
    rw [hexec]
    have happend := refundsOf_append t row
    cases htype : row.type with
    | credit =>
      rw [htype] at hrow hread
      obtain ⟨hnone, hpaid⟩ := hrow
      obtain ⟨call, hφ, hpayer, hcoins⟩ := hread
      have hstored := hknows.1 call hφ
      have hempty : ∀ type, t.refundsOf type = [] := by
        intro type
        rw [Store.refundsOf, hnone, List.filter_nil]
      have hdebit : (t.insert row).refundsOf .debit = [] := by
        simp [happend, hempty, htype]
      have hcredit : ∀ row' ∈ (t.insert row).refundsOf .credit,
          row' = row := by
        simp_all
      have hlength : ((t.insert row).refundsOf .credit).length
          ≤ 1 := by
        grind
      have hle : row.coins ≤ s.walletCoinsDeducted := by
        have hwallet : t.walletCoinsDeducted = s.walletCoinsDeducted := by
          simp [Store.walletCoinsDeducted, hcall.2.1]
        rw [hcoins, ← hwallet]
        exact hpaid call (hcall.2.1.trans hstored)
      constructor
      · rw [happend, hempty, List.nil_append]
        split
        · show row.coins + 0 ≤ _
          omega
        · exact Nat.zero_le _
      · exact hlength
      · intro row' hrow'
        rw [hcredit row' hrow', hstored, hpayer]
        rfl
      · rw [hdebit]
        exact Nat.zero_le 1
      · rw [hdebit]
        nofun
    | debit =>
      rw [htype] at hrow hread
      obtain ⟨call, hφ, howner, hearned⟩ := hread
      have hcredit : (t.insert row).refundsOf .credit =
          t.refundsOf .credit := by
        simp [happend, htype]
      constructor
      · rw [hcredit]
        exact h.refunded
      · rw [hcredit]
        exact h.once
      · rw [hcredit]
        exact h.payer
      · rw [happend, hrow, List.nil_append]
        split
        · exact le_refl 1
        · exact Nat.zero_le 1
      · rw [happend, hrow, List.nil_append]
        intro row' hrow'
        split at hrow'
        · obtain rfl := List.mem_singleton.1 hrow'
          exact ⟨call, hknows.2 call hφ, howner, hearned⟩
        · cases hrow'
  | movement userId type coins => exact hsame (movement_refundsOf userId type coins t)
  | saveCoins userId loaded coins => exact hsame fun _ => rfl
  | assertAdmin | findUserCall | findRefund | getAdminUser | findCreatorCall | findUser =>
    exact hsame fun _ => rfl

/-- A wallet with what is still to be saved to it, less the rows of its user. -/
def books (t : Store) (due : ℤ) (userId : String) : Option ℤ :=
  (t.coins userId).map fun coins : ℕ => (coins : ℤ) + due - t.net userId

theorem setCoins_coins (s : Store) (userId : String) (coins : ℕ) (id : String) :
    (s.setCoins userId coins).coins id =
      if id = userId then (s.coins id).map fun _ => coins else s.coins id := rfl

theorem books_movement (t : Store) (userId : String) (type : TxType) (coins : ℕ) (due : ℤ)
    (id : String) : books ((Cmd.movement userId type coins).effect t) due id = books t due id := by
  rw [Cmd.effect]
  cases hmoved : (t.coins userId).bind (moved type coins) with
  | none => rfl
  | some wallet =>
    obtain ⟨coins₀, hcoins₀, hwallet⟩ := Option.bind_eq_some_iff.1 hmoved
    generalize hrow : (⟨userId, type, coins, .feature, [], none⟩ : CoinTransaction) = row
    have huser : row.userId = userId := by rw [← hrow]
    have hsigned : (wallet : ℤ) = coins₀ + row.signed := by
      cases type with
      | credit =>
        cases hwallet
        rw [← hrow]
        show ((coins₀ + coins : ℕ) : ℤ) = coins₀ + (coins : ℤ)
        omega
      | debit =>
        rw [moved] at hwallet
        split at hwallet
        · cases hwallet
          rw [← hrow]
          show ((coins₀ - coins : ℕ) : ℤ) = coins₀ + -(coins : ℤ)
          omega
        · cases hwallet
    show books ((t.setCoins userId wallet).insert row) due id = _
    have hnet : ((t.setCoins userId wallet).insert row).net id =
        t.net id + if row.userId = id then row.signed else 0 := net_append _ row id
    have hcoins : ((t.setCoins userId wallet).insert row).coins id =
        if id = userId then (t.coins id).map fun _ => wallet else t.coins id := rfl
    rw [books, books, hnet, hcoins, huser]
    by_cases hid : userId = id
    · subst hid
      rw [if_pos rfl, if_pos rfl, hcoins₀, Option.map_some, Option.map_some, Option.map_some,
        hsigned]
      congr 1
      ring
    · rw [if_neg (Ne.symm hid), if_neg hid, add_zero]

/-- **A wallet and its rows.**  What a command changes in a wallet, beyond the rows that it writes,
is what its request owes the wallet less. -/
theorem books_step {c : Cmd} {r : Reply} (hA : Permits φ c) (hsound : Sound ⟨t, c, r, c.exec r t⟩)
    (due : ℤ) (userId : String) :
    books (c.exec r t) (due + ((φ.next c r t).owes.due userId - φ.owes.due userId)) userId =
      books t due userId := by
  have hok : r.ok = true → c.exec r t = c.effect t ∧ φ.next c r t = φ.after c t := by
    intro hr
    constructor
    · rw [Cmd.exec, hr, Bool.true_or, if_pos rfl]
    · rw [Phase.next, if_pos hr]
  -- a command of a request that owes nothing, before and after
  have hidle : φ.owes = none → (φ.after c t).owes = none →
      (∀ due, books (c.effect t) due userId = books t due userId) →
      books (c.exec r t) (due + ((φ.next c r t).owes.due userId - φ.owes.due userId)) userId =
        books t due userId := by
    intro hnone hafter heffect
    have hnext : (φ.next c r t).owes = none := by
      rw [Phase.next]
      split
      · exact hafter
      · rfl
    rw [hnone, hnext, Debt.due_paid, sub_zero, add_zero, Cmd.exec]
    split
    · exact heffect due
    · rfl
  cases c with
  | insertTransaction row =>
    obtain ⟨hexec, hnext⟩ := hok hsound.1
    have hnet : (t.insert row).net userId =
        t.net userId + if row.userId = userId then row.signed else 0 := net_append t row userId
    have hdue : (φ.after (.insertTransaction row) t).owes.due userId =
        if row.userId = userId then row.signed else 0 := rfl
    rw [hexec, hnext, hA.1, Debt.due_paid, sub_zero, hdue, Cmd.effect, books, books, hnet]
    show (t.coins userId).map _ = _
    congr 1
    funext coins
    ring
  | saveCoins owner loaded coins =>
    obtain ⟨hr, hstored⟩ := hsound
    obtain ⟨hexec, hnext⟩ := hok hr
    have howes : φ.owes = some (owner, (coins : ℤ) - loaded) := hA
    have hdue : (φ.after (.saveCoins owner loaded coins) t).owes.due userId = 0 := rfl
    have hnet : (t.setCoins owner coins).net userId = t.net userId := rfl
    rw [hexec, hnext, howes, hdue, Debt.due_owe, Cmd.effect, books, books, hnet, setCoins_coins]
    by_cases hid : owner = userId
    · subst hid
      have hloaded : t.coins owner = some loaded := hstored
      rw [if_pos rfl, if_pos rfl, hloaded, Option.map_some, Option.map_some, Option.map_some]
      congr 1
      ring
    · rw [if_neg hid, if_neg (Ne.symm hid), sub_zero, add_zero]
  | movement owner type coins =>
    exact hidle hA hA fun due => books_movement t owner type coins due userId
  | assertAdmin | findUserCall | findRefund | getAdminUser | findCreatorCall | findUser =>
    exact hidle hA hA fun _ => rfl

/-! ### Runs -/

/-- The call is that of `s`, and so are the wallets, up to the rows and what is still owed. -/
structure Keeping (s : Store) (φs : List Phase) (t : Store) : Prop where
  call : t.callId = s.callId ∧ t.userCall = s.userCall ∧ t.creatorCall = s.creatorCall
  knows : ∀ φ ∈ φs, Knows s φ
  rows : RefundedOnce s t
  books : ∀ userId, books t (due Phase.owes φs userId) userId = books s 0 userId

theorem Keeping.start (h : s.refunds = []) : Keeping s [] s := by
  have hempty : ∀ type, s.refundsOf type = [] := by
    intro type
    rw [Store.refundsOf, h, List.filter_nil]
  refine ⟨⟨rfl, rfl, rfl⟩, fun φ hφ => absurd hφ List.not_mem_nil, ?_, fun _ => rfl⟩
  constructor
  · rw [hempty]
    exact Nat.zero_le _
  · rw [hempty]
    exact Nat.zero_le 1
  · rw [hempty]
    nofun
  · rw [hempty]
    exact Nat.zero_le 1
  · rw [hempty]
    nofun

theorem Keeping.spawn {φs : List Phase} (h : Keeping s φs t) : Keeping s (φs ++ [.start]) t := by
  refine ⟨h.call, ?_, h.rows, ?_⟩
  · exact forall_snoc h.knows ⟨nofun, nofun⟩
  · intro userId
    rw [due_append rfl]
    exact h.books userId

theorem Knows.next (h : Knows s φ)
    (hcall : t.userCall = s.userCall ∧ t.creatorCall = s.creatorCall) (c : Cmd) (r : Reply) :
    Knows s (φ.next c r t) := by
  rw [Phase.next]
  split
  · cases c with
    | findUserCall => exact ⟨fun call hread => hcall.1.symm.trans hread, h.2⟩
    | findCreatorCall => exact ⟨h.1, fun call hread => hcall.2.symm.trans hread⟩
    | _ => exact h
  · exact h

theorem Keeping.step {φs : List Phase} {i : ℕ} {c : Cmd} {r : Reply} (h : Keeping s φs t)
    (hi : φs[i]? = some φ) (hA : Permits φ c) (hsound : Sound ⟨t, c, r, c.exec r t⟩) :
    Keeping s (φs.set i (φ.next c r t)) (c.exec r t) := by
  have hknows := h.knows φ (List.mem_of_getElem? hi)
  obtain ⟨hid, huser, hcreator⟩ := exec_call c r t
  refine ⟨⟨hid.trans h.call.1, huser.trans h.call.2.1, hcreator.trans h.call.2.2⟩, ?_, ?_, ?_⟩
  · exact forall_set h.knows (hknows.next h.call.2 c r)
  · exact refundedOnce_step h.rows h.call hknows hA hsound
  · intro userId
    rw [due_set hi, books_step hA hsound]
    exact h.books userId

def refundRun (s : Store) (ms : List (Move Request Reply)) : Pool Cmd Reply Store :=
  (start s).play Cmd.exec program ms

/-- A wallet is saved next. -/
def saving : Prog Cmd Reply Store Unit → Bool
  | .act (.saveCoins ..) _ => true
  | _ => false

/-- No request stands between a row and the save of its wallet. -/
def Resting (w : Pool Cmd Reply Store) : Prop := ∀ p ∈ w.procs, saving p = false

instance : DecidablePred Resting := fun _ => inferInstanceAs (Decidable (∀ p ∈ _, _ = false))

theorem owes_resting {p : Prog Cmd Reply Store Unit} (s : Store) (h : saving p = false)
    (hp : p.Follows (guarded Permits Phase.next) φ fun _ φ => φ.owes = none) : φ.owes = none := by
  cases p with
  | ret _ => exact hp
  | act c k =>
    obtain ⟨φ', hδ, -⟩ := hp ⟨true, true, true, none, 0⟩ s
    have hA := (guarded_eq_some hδ).1
    cases c with
    | insertTransaction row => exact hA.1
    | saveCoins userId loaded coins => cases h
    | _ => exact hA

theorem keeping_run (h : s.refunds = []) (ms : List (Move Request Reply))
    (hsound : ∀ e ∈ (refundRun s ms).log, Sound e) :
    ∃ φs, InPhases (guarded Permits Phase.next) (fun φ => φ.owes = none) φs
        (refundRun s ms).procs ∧ Keeping s φs (refundRun s ms).store := by
  have hprog : ∀ q, (program q).Follows (guarded Permits Phase.next)
      ((fun _ : Request => Phase.start) q) fun _ φ => φ.owes = none := program_pays
  apply play_protocol (fun φs _ t => Keeping s φs t) Sound hprog
    (Keeping.start h) (fun _ _ _ _ h => h.spawn) _ ms hsound
  intro φs l t i φ c r φ' hJ hi hδ hG
  obtain ⟨hA, rfl⟩ := guarded_eq_some hδ
  exact hJ.step hi hA hG

/-- **A call is refunded at most once, and for what was paid**, in every state of every run whose
commands are sound; and unless a request stands between a row and its wallet, every wallet has
changed by the rows of its user. -/
theorem refunded_once_run (s : Store) (h : s.refunds = []) (ms : List (Move Request Reply))
    (hsound : ∀ e ∈ (refundRun s ms).log, Sound e) :
    RefundedOnce s (refundRun s ms).store ∧
      (Resting (refundRun s ms) → WalletsKept s (refundRun s ms).store) := by
  obtain ⟨φs, hphases, hkeeping⟩ := keeping_run h ms hsound
  refine ⟨hkeeping.rows, fun hresting userId => ?_⟩
  have hdue : due Phase.owes φs userId = 0 :=
    hphases.due_eq_zero (fun p hp φ => owes_resting s (hresting p hp)) userId
  have hbooks := hkeeping.books userId
  rw [hdue, books, books] at hbooks
  cases hs : s.coins userId with
  | none =>
    rw [hs] at hbooks
    cases ht : (refundRun s ms).store.coins userId with
    | none => rfl
    | some coins =>
      simp [ht] at hbooks
  | some coins =>
    rw [hs] at hbooks
    obtain ⟨coins', ht, heq⟩ := Option.map_eq_some_iff.1 hbooks
    rw [ht, Option.map_some, Option.map_some]
    congr 1
    dsimp only at heq
    omega

/-! ### Calls as a settlement leaves them -/

def settledStore (db : Billing.SettleDb) (coins : String → Option ℕ) : Store where
  callId := "call"
  userCall := db.userHistory.map fun row => ⟨row, "payer", 0⟩
  creatorCall := db.creatorHistory.map fun row => ⟨row, "creator", 0⟩
  coins
  rows := []

def settledDb : Billing.SettleDb where
  payer := some ⟨10, 0, false⟩
  creator := some none
  creatorUser := some 2
  debitTxn := none
  creditTxn := none
  bdLine := none
  agencyLine := none
  bdBalance := 0
  agencyBalance := 0
  userHistory := none
  creatorHistory := none

/-- Five coins for the call, of which `intro` were promised for free, and three for the creator. -/
def fiveCoins (intro : ℤ) : Store :=
  settledStore
    (Billing.upsertHistories ⟨0 < intro, intro * 1000000, (5 - intro) * 1000000, 5000000, 3000000, 60⟩
      3 settledDb)
    fun userId => if userId = "payer" then some 10 else if userId = "creator" then some 2 else none

def answered : Reply := ⟨true, true, true, none, 0⟩

def goodReason : Moments.Text := ['n', 'o', ' ', 's', 'o', 'u', 'n', 'd']

/-- Two refunds, one after the other, and a purchase by the payer in the first one. -/
def twoRequests : List (Move Request Reply) :=
  [Move.spawn (Request.refund (some goodReason)),
    Move.spawn (Request.movement "payer" .credit 100)] ++
    [0, 0, 0, 0, 0, 1, 0, 0, 0, 0, 0, 0].map (fun i => Move.step i answered) ++
    [Move.spawn (Request.refund (some goodReason))] ++
    [2, 2, 2, 2, 2, 2].map (fun i => Move.step i answered)

theorem refunded_from_wallet : RefundedOnce (fiveCoins 0) (refundRun (fiveCoins 0) twoRequests).store ∧
    WalletsKept (fiveCoins 0) (refundRun (fiveCoins 0) twoRequests).store := by
  have h := refunded_once_run (fiveCoins 0) rfl twoRequests (by decide +kernel)
  exact ⟨h.1, h.2 (by decide +kernel)⟩

/-- One refund of a call that was free, with nobody else about. -/
def oneRequest : List (Move Request Reply) :=
  .spawn (.refund (some goodReason)) :: (List.replicate 11 (.step 0 answered))

theorem intro_refunded :
    ¬ ∀ s, s.refunds = [] → ∀ ms, Resting (refundRun s ms) →
      RefundedOnce s (refundRun s ms).store ∧ WalletsKept s (refundRun s ms).store := by
  intro h
  have hrefunded := (h (fiveCoins 5) rfl oneRequest (by decide +kernel)).1.refunded
  exact absurd hrefunded (by decide +kernel)

end VibemeetBackend.Refund
