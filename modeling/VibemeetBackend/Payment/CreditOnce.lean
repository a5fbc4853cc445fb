import VibemeetBackend.Payment.Controller

/-!
# A captured payment is credited at most once

The requests for one order run interleaved in a `Pool`.  Finalization is guarded by the status of
the rows alone, so what it has added plus what is still `uncredited` is bounded by the rows of the
order, as long as no write takes a row out of `completed`.  The update of the invalid-signature
branch is such a write.
-/

namespace VibemeetBackend.Payment

open Async

theorem pending_ne_bonus (o : String) :
    buildPendingTransactionId o ≠ buildPendingBonusTransactionId o := by
  intro h
  have hlen := congrArg String.length h
  simp only [buildPendingTransactionId, buildPendingBonusTransactionId, String.length_append,
    Nat.add_right_cancel_iff] at hlen
  exact absurd hlen (by decide)

/-- Whatever rows `o` has, they are its main row and its bonus row. -/
def RowsOf (o : String) (l : Ledger) : Prop :=
  ∀ id t, l.row id = some t → orderSelectors o t = true →
    id = buildPendingTransactionId o ∨ id = buildPendingBonusTransactionId o

/-- A run of requests for the order `o` from the store `s`. -/
abbrev payments (cfg : PaymentConfig) (o : String) (s : Store) (ms : List (Move Request Reply)) :
    Pool Cmd Reply Store :=
  (Pool.start s).play exec (program cfg o) ms

def KeepsCompleted (e : Event Cmd Reply Store) : Prop :=
  ∀ id t, e.before.ledger.row id = some t → t.status = .completed →
    ∃ t', e.after.ledger.row id = some t' ∧ t'.status = .completed

/-- An order whose main row has `c` coins is credited at most once: no wallet has gained more than
`c` and the coins of the bonus row, and no row has left `completed`. -/
def CreditedOnce (o : String) (c : ℕ) (s : Store) (w : Pool Cmd Reply Store) : Prop :=
  (∀ u, coinsOf w.store.users u - coinsOf s.users u ≤
    c + rowCoins w.store.ledger (buildPendingBonusTransactionId o)) ∧
  ∀ e ∈ w.log, KeepsCompleted e

/-- If the command is an invalid-signature update, the row it picks is not completed. -/
def SparesCompleted (e : Event Cmd Reply Store) : Prop :=
  ∀ o t, e.cmd = .markFailed o → e.ans.delivered = true →
    findOne e.ans.pick (orderSelectors o) e.before.ledger.txs = some t → t.status ≠ .completed

/-! ### The invariant -/

/-- What every reachable store satisfies: the coins added so far and the coins still to add are the
coins of the rows. -/
structure Accounted (o : String) (c : ℕ) (s t : Store) : Prop where
  rows : RowsOf o t.ledger
  main : (t.ledger.row (buildPendingTransactionId o)).isSome
  mainCoins : rowCoins t.ledger (buildPendingTransactionId o) = c
  bound : ∀ u, coinsOf t.users u - coinsOf s.users u +
      uncredited t.ledger (buildPendingTransactionId o) +
      uncredited t.ledger (buildPendingBonusTransactionId o) ≤
    c + rowCoins t.ledger (buildPendingBonusTransactionId o)

theorem Accounted.start {o : String} {s : Store} {main : CoinTx}
    (hmain : s.ledger.row (buildPendingTransactionId o) = some main) (hrows : RowsOf o s.ledger) :
    Accounted o main.coins s s := by
  have hc : rowCoins s.ledger (buildPendingTransactionId o) = main.coins := by
    simp [rowCoins, hmain]
  refine ⟨hrows, by rw [hmain]; rfl, hc, fun u => ?_⟩
  have h1 := uncredited_le_rowCoins s.ledger (buildPendingTransactionId o)
  have h2 := uncredited_le_rowCoins s.ledger (buildPendingBonusTransactionId o)
  omega

variable {o : String} {c : ℕ} {s t : Store}

theorem Accounted.finalized {t' : Store} {tx : CoinTx} {added : ℕ} (h : Accounted o c s t)
    (hf : Finalized o tx added t t') : Accounted o c s t' := by
  have htx := h.rows _ _ (Ledger.row_of_mem hf.picked.1) hf.picked.2
  refine ⟨fun id r hr hsel => ?_, (hf.completes.isSome _).trans h.main,
    (hf.completes.coins _).trans h.mainCoins, fun u => ?_⟩
  · by_cases h1 : id = tx.transactionId
    · exact h1 ▸ htx
    · by_cases h2 : id = buildPendingBonusTransactionId o
      · exact .inr h2
      · exact h.rows id r (hf.frame id h1 h2 ▸ hr) hsel
  · have hb := h.bound u
    have hw : coinsOf t'.users u ≤ coinsOf t.users u + added := by
      rw [hf.wallets u]
      split <;> omega
    have hadd := hf.added_eq
    rw [hf.left, hf.left, hf.completes.coins]
    rcases htx with hmain | hbonus
    · rw [hmain, if_neg (pending_ne_bonus o)] at hadd
      simp only [hmain, true_or, or_true, if_true]
      omega
    · rw [hbonus, if_pos rfl] at hadd
      simp only [hbonus, pending_ne_bonus o, or_self, if_true, if_false]
      omega

theorem Accounted.markFailed {pick : ℕ} (h : Accounted o c s t)
    (hspare : ∀ r, findOne pick (orderSelectors o) t.ledger.txs = some r →
      r.status ≠ .completed) :
    Accounted o c s { t with ledger := markFailed pick o t.ledger } ∧
      ∀ id r, t.ledger.row id = some r → r.status = .completed →
        (markFailed pick o t.ledger).row id = some r := by
  unfold Payment.markFailed
  cases hp : findOne pick (orderSelectors o) t.ledger.txs with
  | none => exact ⟨h, fun id r hr _ => hr⟩
  | some x =>
    have hx := hspare x hp
    obtain ⟨hmem, hsel⟩ := findOne_some hp
    have hrow := Ledger.row_of_mem hmem
    have hid := h.rows _ _ hrow hsel
    have hcoins : ∀ id, rowCoins (t.ledger.setRow x.transactionId
        (fun t => { t with status := .failed }) fun _ => rfl) id = rowCoins t.ledger id := by
      grind [rowCoins, Ledger.row_setRow]
    have hunc : ∀ id, uncredited (t.ledger.setRow x.transactionId
        (fun t => { t with status := .failed }) fun _ => rfl) id = uncredited t.ledger id := by
      intro id
      unfold uncredited
      rw [Ledger.row_setRow]
      by_cases hi : id = x.transactionId
      · rw [if_pos hi, hi, hrow]
        simp [hx]
      · rw [if_neg hi]
    refine ⟨⟨fun id r hr hs => ?_, ?_, (hcoins _).trans h.mainCoins, fun u => ?_⟩,
      fun id r hr hc => ?_⟩
    · rw [Ledger.row_setRow] at hr
      split at hr
      · rename_i hi
        exact hi ▸ hid
      · exact h.rows id r hr hs
    · rw [Ledger.row_setRow]
      split
      · rw [Option.isSome_map]
        exact h.main
      · exact h.main
    · simpa [hcoins, hunc] using h.bound u
    · rw [Ledger.row_setRow]
      split
      · rename_i hi
        rw [hi, hrow] at hr
        cases hr
        exact absurd hc hx
      · exact hr

theorem Accounted.createTransaction {r : CoinTx} (h : Accounted o c s t)
    (hr : r.transactionId = buildPendingTransactionId o ∨
      r.transactionId = buildPendingBonusTransactionId o) :
    Accounted o c s { t with ledger := t.ledger.insert r } := by
  have hmain : (t.ledger.insert r).row (buildPendingTransactionId o) =
      t.ledger.row (buildPendingTransactionId o) := by
    obtain ⟨m, hm⟩ := Option.isSome_iff_exists.1 h.main
    rw [Ledger.row_insert, hm]
  refine ⟨fun id x hx hs => ?_, ?_, ?_, fun u => ?_⟩
  · rw [Ledger.row_insert] at hx
    cases hid : t.ledger.row id with
    | some y =>
      rw [hid] at hx
      obtain rfl := Option.some.inj hx
      exact h.rows id y hid hs
    | none =>
      grind
  · rw [hmain]
    exact h.main
  · simpa [rowCoins, hmain] using h.mainCoins
  · have hb := h.bound u
    have hle := uncredited_le_rowCoins (t.ledger.insert r) (buildPendingBonusTransactionId o)
    have hu : uncredited (t.ledger.insert r) (buildPendingTransactionId o) =
        uncredited t.ledger (buildPendingTransactionId o) := by
      unfold uncredited
      rw [hmain]
    dsimp only
    rw [hu]
    cases hid : t.ledger.row (buildPendingBonusTransactionId o) with
    | some y =>
      have hrow : (t.ledger.insert r).row (buildPendingBonusTransactionId o) = some y := by
        rw [Ledger.row_insert, hid]
      simpa [uncredited, rowCoins, hid] using hb
    | none =>
      have h0 : rowCoins t.ledger (buildPendingBonusTransactionId o) = 0 := by
        simp [rowCoins, hid]
      omega

/-- One command of a request for `o`: under the condition it keeps the account and every completed
row. -/
theorem Accounted.exec {e : Cmd} {r : Reply} (h : Accounted o c s t) (ho : OfOrder o e)
    (hspare : SparesCompleted ⟨t, e, r, exec e r t⟩) :
    Accounted o c s (exec e r t) ∧ KeepsCompleted ⟨t, e, r, Payment.exec e r t⟩ := by
  have hsame : Accounted o c s t ∧ KeepsCompleted ⟨t, e, r, t⟩ :=
    ⟨h, fun id x hx hc => ⟨x, hx, hc⟩⟩
  unfold Payment.exec
  by_cases hd : r.delivered = false
  · rw [if_pos hd]
    exact hsame
  · rw [if_neg hd]
    have hd' : r.delivered = true := by simpa using hd
    cases e with
    | query => exact hsame
    | fetchProvider _ _ => exact hsame
    | recordCheckoutResult id status =>
      cases id with
      | none => exact hsame
      | some id => exact ⟨⟨h.rows, h.main, h.mainCoins, h.bound⟩, hsame.2⟩
    | markFailed o' =>
      obtain rfl : o' = o := ho
      obtain ⟨hacc, hkeep⟩ := h.markFailed fun x hx => hspare o' x rfl hd' hx
      exact ⟨hacc, fun id x hx hc => ⟨x, hkeep id x hx hc, hc⟩⟩
    | createTransaction x =>
      refine ⟨h.createTransaction ho, fun id y hy hc => ⟨y, ?_, hc⟩⟩
      show (t.ledger.insert x).row id = some y
      rw [Ledger.row_insert, hy]
    | finalize o' p ex =>
      obtain rfl : o' = o := ho
      dsimp only
      split
      · rename_i res t' hf
        obtain ⟨tx, hfin⟩ := finalize_spec hf
        exact ⟨h.finalized hfin, fun id x hx hc => hfin.completes.completed id x hx hc⟩
      · exact hsame
    | _ => exact ⟨⟨h.rows, h.main, h.mainCoins, h.bound⟩, hsame.2⟩

/-- A completed row picked by an invalid-signature update leaves `completed`. -/
theorem not_keepsCompleted {o : String} {r : Reply} {x : CoinTx} (hd : r.delivered = true)
    (hx : findOne r.pick (orderSelectors o) t.ledger.txs = some x) (hc : x.status = .completed) :
    ¬ KeepsCompleted ⟨t, .markFailed o, r, exec (.markFailed o) r t⟩ := by
  intro hkeep
  have hrow := Ledger.row_of_mem (findOne_some hx).1
  obtain ⟨y, hy, hyc⟩ := hkeep _ x hrow hc
  simp only [exec, hd, Bool.true_eq_false, if_false, markFailed, hx, Ledger.row_setRow, if_true,
    hrow, Option.map_some] at hy
  cases hy
  cases hyc

/-- **When a captured payment is credited at most once.**  A run of requests for an order, in any
number and interleaving, adds at most the coins of the order's rows to any wallet and keeps every
completed row, if and only if none of its invalid-signature updates picks a completed row. -/
theorem creditedOnce_iff (cfg : PaymentConfig) (o : String) (s : Store) (main : CoinTx)
    (hmain : s.ledger.row (buildPendingTransactionId o) = some main) (hrows : RowsOf o s.ledger)
    (hevents : EventsOf o s) (ms : List (Move Request Reply)) :
    CreditedOnce o main.coins s (payments cfg o s ms) ↔
      ∀ e ∈ (payments cfg o s ms).log, SparesCompleted e := by
  have hissued := Pool.log_issues hevents (program_issues cfg o)
    (fun c r t _ ht => exec_eventsOf c r t ht) ms
  constructor
  · intro h e he o' x hcmd hd hx hc
    have hsem := Pool.log_sem s ms e he
    obtain ⟨before, cmd, ans, after⟩ := e
    dsimp only at hcmd hd hx hsem
    subst hcmd hsem
    exact not_keepsCompleted hd hx hc (h.2 _ he)
  · intro h
    have hinv : Accounted o main.coins s (payments cfg o s ms).store ∧
        ∀ e ∈ (payments cfg o s ms).log, KeepsCompleted e := Pool.play_invariant
      (fun l t => Accounted o main.coins s t ∧ ∀ e ∈ l, KeepsCompleted e)
      (fun e => OfOrder o e.cmd ∧ SparesCompleted e)
      ⟨Accounted.start hmain hrows, by simp⟩
      (fun l t e r hJ hG => by
        obtain ⟨hacc, hkeep⟩ := hJ.1.exec hG.1 hG.2
        refine ⟨hacc, fun x hx => ?_⟩
        rcases mem_snoc.1 hx with hx | rfl
        · exact hJ.2 x hx
        · exact hkeep)
      ms (fun e he => ⟨(hissued e he).1, h e he⟩)
    refine ⟨fun u => ?_, hinv.2⟩
    have hb := hinv.1.bound u
    unfold payments at hb ⊢
    omega

/-! ### A replayed verification -/

def replayRow : CoinTx where
  transactionId := "pay_A"
  userId := "u"
  coins := 100
  source := .paymentGateway
  paymentGatewayTransactionId := some "A"
  paymentGatewayOrderId := some "A"
  status := .pending

def replayStore : Store where
  ledger := ⟨[replayRow], by decide⟩
  users := [⟨"u", "f", "user", none, none, 0⟩]
  events := []
  checkouts := []

/-- A provider that reports the payment captured, over a network that loses nothing. -/
def replayReply : Reply where
  delivered := true
  answered := true
  pick := 0
  payment := some ⟨"A", "captured", .empty, none, none⟩
  order := ⟨.empty, none, none⟩

def replayVerify (signatureOk : Bool) : Request :=
  .verify ⟨true, true, "p", some ⟨"f", "u", none⟩, some signatureOk⟩

def replayMoves : List (Move Request Reply) :=
  .spawn (replayVerify true) :: List.replicate 5 (.step 0 replayReply) ++
    .spawn (replayVerify false) :: List.replicate 3 (.step 1 replayReply) ++
    .spawn (replayVerify true) :: List.replicate 5 (.step 2 replayReply)

theorem replayStore_rows : RowsOf "A" replayStore.ledger := by
  intro id t ht _
  obtain ⟨hmem, hid⟩ := Ledger.row_some ht
  obtain rfl : t = replayRow := by simpa [replayStore] using hmem
  exact .inl hid.symm

theorem replayStore_events : EventsOf "A" replayStore := by
  intro e he
  cases he

theorem replay_credits_twice :
    ¬ ∀ (cfg : PaymentConfig) (o : String) (s : Store) (main : CoinTx),
      s.ledger.row (buildPendingTransactionId o) = some main → RowsOf o s.ledger →
      EventsOf o s → ∀ ms, CreditedOnce o main.coins s (payments cfg o s ms) := by
  intro h
  have hbound := (h {} "A" replayStore replayRow (by decide +kernel) replayStore_rows
    replayStore_events replayMoves).1 "u"
  exact absurd hbound (by decide +kernel)

theorem creditedOnce_iff_single :
    CreditedOnce "A" 100 replayStore (payments {} "A" replayStore (replayMoves.take 6)) ↔
      ∀ e ∈ (payments {} "A" replayStore (replayMoves.take 6)).log, SparesCompleted e :=
  creditedOnce_iff {} "A" replayStore replayRow (by decide +kernel) replayStore_rows
    replayStore_events (replayMoves.take 6)

end VibemeetBackend.Payment
