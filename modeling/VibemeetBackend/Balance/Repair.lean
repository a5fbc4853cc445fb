import VibemeetBackend.Async.Watch
import VibemeetBackend.Mongo.Collection
import VibemeetBackend.Payment.CoinLedger

/-!
# Ledger repair

`getCanonicalCoinsAndRepairIfNeeded` (`utils/ledger-coins.ts`) and `processBalanceMismatchRepairs`
(`billing/billing-reconciliation.ts`): both compare the wallet of a user with the ledger and set it to
what the ledger says.  Beside them run transactions that each write one completed row and change the
wallet by as much.

Metrics and logs are left out.
-/

namespace VibemeetBackend.Balance

open Async Flow Payment

/-! ### Wallets and rows -/

inductive TxType where
  | credit
  | debit
  deriving DecidableEq, Repr

structure CoinTransaction where
  userId : String
  type : TxType
  coins : ℤ
  status : TxStatus

structure Wallet where
  userId : String
  coins : ℤ

/-- `queue` is the sorted set of the users to repair, by score. -/
structure Store where
  wallets : List Wallet
  ledger : List CoinTransaction
  queue : List (String × ℤ)
  payloads : List String

def Store.coins (s : Store) (userId : String) : Option ℤ :=
  (s.wallets.find? fun w => w.userId == userId).map fun w => w.coins

def Store.total (s : Store) (type : TxType) (userId : String) : ℤ :=
  ((s.ledger.filter fun t => t.userId == userId && t.status == .completed && t.type == type).map
    fun t => t.coins).sum

def Store.net (s : Store) (userId : String) : ℤ :=
  s.total .credit userId - s.total .debit userId

/-- `Math.max(0, credits - debits)`. -/
def Store.expectedCoins (s : Store) (userId : String) : ℤ := max 0 (s.net userId)

def CoinTransaction.signed (t : CoinTransaction) : ℤ :=
  match t.type with
  | .credit => t.coins
  | .debit => -t.coins

/-! ### Commands -/

structure Reply where
  delivered : Bool
  answered : Bool
  now : ℤ

def Reply.ok (r : Reply) : Bool := r.delivered && r.answered

inductive Cmd where
  /-- `Date.now()`. -/
  | clock
  | findUser (userId : String)
  | aggregate (userId : String)
  | setCoins (userId : String) (coins : ℤ)
  /-- A transaction: a completed row, and `$inc` of the wallet. -/
  | movement (row : CoinTransaction)
  | enqueue (userId : String) (score : ℤ)
  | rangeQueue
  | removeQueued (userId : String)
  | getPayload (userId : String)
  | delPayload (userId : String)

def Store.updateCoins (s : Store) (userId : String) (f : ℤ → ℤ) : Store :=
  { s with wallets :=
      s.wallets.map fun w => if w.userId = userId then { w with coins := f w.coins } else w }

def Cmd.exec (c : Cmd) (r : Reply) (s : Store) : Store :=
  if r.delivered = false then s
  else
    match c with
    | .clock | .findUser _ | .aggregate _ | .rangeQueue | .getPayload _ => s
    | .setCoins userId coins => s.updateCoins userId fun _ => coins
    | .movement row =>
      { s.updateCoins row.userId (fun coins => coins + row.signed) with
        ledger := s.ledger ++ [{ row with status := .completed }] }
    | .enqueue userId score =>
      { s with
        queue := (s.queue.filter fun e => e.1 ≠ userId) ++ [(userId, score)]
        payloads := (s.payloads.filter fun id => id ≠ userId) ++ [userId] }
    | .removeQueued userId => { s with queue := s.queue.filter fun e => e.1 ≠ userId }
    | .delPayload userId => { s with payloads := s.payloads.filter fun id => id ≠ userId }

/-- `zrangebyscore(queue, 0, now, 'LIMIT', 0, maxItems)`. -/
def Store.due (s : Store) (now : ℤ) (maxItems : ℕ) : List String :=
  (((s.queue.filter fun e => 0 ≤ e.2 ∧ e.2 ≤ now).mergeSort fun a b => a.2 ≤ b.2).take maxItems).map
    Prod.fst

abbrev RepairFlow (α : Type) : Type := Flow Cmd Reply Store α

def run (c : Cmd) : RepairFlow (Reply × Store) := call Reply.ok "request failed" c

/-! ### The repairs -/

structure LedgerCoinsResult where
  actualCoins : ℤ
  expectedCoins : ℤ
  discrepancy : ℤ
  repaired : Bool

/-- `getCanonicalCoinsAndRepairIfNeeded`.  The read of the aggregate may throw; a failed write is
ignored. -/
def getCanonicalCoinsAndRepairIfNeeded (userId : String) (actualCoins : ℤ) (tolerance : Option ℤ) :
    RepairFlow LedgerCoinsResult :=
  tryCatch
    (do
      let (_, s) ← run (.aggregate userId)
      let expectedCoins := s.expectedCoins userId
      let discrepancy := actualCoins - expectedCoins
      if |discrepancy| ≤ max 0 (tolerance.getD 1) then
        pure ⟨actualCoins, expectedCoins, discrepancy, false⟩
      else do
        let _ ← attempt (run (.setCoins userId expectedCoins))
        pure ⟨actualCoins, expectedCoins, discrepancy, true⟩)
    fun _ => pure ⟨actualCoins, actualCoins, 0, false⟩

/-- A request that shows a balance: it loads the user and hands the loaded wallet on. -/
def canonicalCoins (userId : String) (tolerance : Option ℤ) : RepairFlow Unit := do
  let (_, s) ← run (.findUser userId)
  match s.coins userId with
  | none => pure ()
  | some actualCoins => do
    let _ ← getCanonicalCoinsAndRepairIfNeeded userId actualCoins tolerance
    pure ()

structure RepairConfig where
  /-- `BILLING_BALANCE_MISMATCH_REPAIR_BATCH_SIZE`. -/
  maxItems : ℕ
  runBudgetMs : ℤ
  billingBalanceMismatchAutoRepairEnabled : Bool

def repairUser (cfg : RepairConfig) (userId : String) : RepairFlow Unit := do
  let (_, s) ← run (.findUser userId)
  match s.coins userId with
  | none => pure ()
  | some actualBalance => do
    let (_, s) ← run (.aggregate userId)
    let expectedBalance := s.expectedCoins userId
    let discrepancy := actualBalance - expectedBalance
    if |discrepancy| ≤ 1 then pure ()
    else if cfg.billingBalanceMismatchAutoRepairEnabled = false then pure ()
    else do
      let _ ← run (.setCoins userId expectedBalance)
      pure ()

def repairUsers (cfg : RepairConfig) (startedAt : ℤ) : List String → RepairFlow Unit
  | [] => pure ()
  | userId :: rest => do
    let (r, _) ← run .clock
    if r.now - startedAt > cfg.runBudgetMs then pure ()
    else do
      let _ ← attempt (run (.removeQueued userId))
      let _ ← run (.getPayload userId)
      let _ ← attempt (run (.delPayload userId))
      let _ ← attempt (repairUser cfg userId)
      repairUsers cfg startedAt rest

def processBalanceMismatchRepairs (cfg : RepairConfig) (startedAt : ℤ) : RepairFlow Unit := do
  let (r, _) ← run .clock
  let (_, s) ← run .rangeQueue
  repairUsers cfg startedAt (s.due r.now cfg.maxItems)

inductive Request where
  | canonicalCoins (userId : String) (tolerance : Option ℤ)
  | balanceMismatchRepairs (startedAt : ℤ)
  | movement (row : CoinTransaction)
  | enqueue (userId : String) (score : ℤ)

def program (cfg : RepairConfig) : Request → Prog Cmd Reply Store Unit
  | .canonicalCoins userId tolerance =>
    (canonicalCoins userId tolerance).run >>= fun _ => .ret ()
  | .balanceMismatchRepairs startedAt =>
    (processBalanceMismatchRepairs cfg startedAt).run >>= fun _ => .ret ()
  | .movement row => .act (.movement row) fun _ _ => .ret ()
  | .enqueue userId score => .act (.enqueue userId score) fun _ _ => .ret ()

/-! ### What a repair has read -/

/-- The tolerance of a request, the wallet that it has loaded and the ledger total that it has
aggregated, with their users. -/
structure Phase where
  tolerance : ℤ
  actual : Option (String × ℤ)
  expected : Option (String × ℤ)

def Phase.start : Request → Phase
  | .canonicalCoins _ tolerance => ⟨max 0 (tolerance.getD 1), none, none⟩
  | _ => ⟨1, none, none⟩

def Phase.next (φ : Phase) (c : Cmd) (r : Reply) (s : Store) : Phase :=
  if r.delivered = false then φ
  else
    match c with
    | .findUser userId => { φ with actual := (s.coins userId).map fun coins => (userId, coins) }
    | .aggregate userId => { φ with expected := some (userId, s.expectedCoins userId) }
    | _ => φ

def Allows (φ : Phase) : Cmd → Prop
  | .setCoins userId coins => φ.expected = some (userId, coins)
  | _ => True

section protocol

variable {φ : Phase} {α : Type}

variable {f : Reply × Store → RepairFlow α}

theorem follows_run {c : Cmd} (hc : Allows φ c)
    (h : ∀ r s, r.delivered = true → Follows (guarded Allows Phase.next) (φ.next c r s)
      (f (r, s)) (fun _ _ => True) fun _ _ => True) :
    Follows (guarded Allows Phase.next) φ (run c >>= f) (fun _ _ => True)
      fun _ _ => True := by
  apply follows_guarded_bind hc
  · intro r s
    trivial
  · intro r s hr
    rw [Reply.ok, Bool.and_eq_true] at hr
    exact h r s hr.1

abbrev RepairAnytime (p : RepairFlow α) : Prop := Anytime (guarded Allows Phase.next) p

theorem anytime_run {c : Cmd} (hc : ∀ φ, Allows φ c) : RepairAnytime (run c) := by
  intro φ r s
  refine ⟨_, guarded_of (hc φ), ?_⟩
  show Prog.Follows _ _ (.ret (if r.ok = true then Except.ok (r, s) else .error _)) _
  cases r.ok <;> trivial

theorem anytime_run_bind {c : Cmd} (hc : ∀ φ, Allows φ c) (hf : ∀ r s, RepairAnytime (f (r, s))) :
    RepairAnytime (run c >>= f) := by
  apply anytime_call_bind
  · intro φ r s
    exact ⟨_, guarded_of (hc φ)⟩
  · exact hf

theorem anytime_aggregate (userId : String)
    (hf : ∀ φ r s, φ.expected = some (userId, s.expectedCoins userId) →
      Follows (guarded Allows Phase.next) φ (f (r, s)) (fun _ _ => True)
        fun _ _ => True) : RepairAnytime (run (.aggregate userId) >>= f) := by
  intro φ
  refine follows_run trivial fun r s hr => ?_
  apply hf
  rw [Phase.next, if_neg (by simp [hr])]

theorem canonical_anytime (userId : String) (actualCoins : ℤ) (tolerance : Option ℤ) :
    RepairAnytime (getCanonicalCoinsAndRepairIfNeeded userId actualCoins tolerance) := by
  apply anytime_tryCatch
  · apply anytime_aggregate
    simp_all [Allows, run]
  · intro e
    exact anytime_pure _

theorem canonicalCoins_anytime (userId : String) (tolerance : Option ℤ) :
    RepairAnytime (canonicalCoins userId tolerance) := by
  apply anytime_run_bind
  · exact fun _ => trivial
  intro r s
  dsimp only
  split
  · exact anytime_pure _
  · apply anytime_bind (canonical_anytime _ _ _)
    intro _
    exact anytime_pure _

variable (cfg : RepairConfig)

theorem repairUser_anytime (userId : String) : RepairAnytime (repairUser cfg userId) := by
  apply anytime_run_bind
  · exact fun _ => trivial
  intro r s
  dsimp only
  split
  · exact anytime_pure _
  · apply anytime_aggregate
    intro φ r s hφ
    split
    · trivial
    split
    · trivial
    · exact follows_run hφ fun _ _ _ => trivial

theorem repairUsers_anytime (startedAt : ℤ) (userIds : List String) :
    RepairAnytime (repairUsers cfg startedAt userIds) := by
  induction userIds with
  | nil => exact anytime_pure _
  | cons userId rest ih =>
    apply anytime_run_bind
    · exact fun _ => trivial
    intro r s
    dsimp only
    split
    · exact anytime_pure _
    apply anytime_bind
      (anytime_attempt (anytime_run (c := .removeQueued userId) fun _ => trivial))
    intro _
    apply anytime_run_bind
    · exact fun _ => trivial
    intro _ _
    apply anytime_bind
      (anytime_attempt (anytime_run (c := .delPayload userId) fun _ => trivial))
    intro _
    apply anytime_bind (anytime_attempt (repairUser_anytime cfg userId))
    intro _
    exact ih

theorem program_follows (q : Request) :
    (program cfg q).Follows (guarded Allows Phase.next) (.start q) fun _ _ => True := by
  cases q with
  | canonicalCoins userId tolerance =>
    exact Follows.run (canonicalCoins_anytime userId tolerance _)
  | balanceMismatchRepairs startedAt =>
    apply Follows.run
    apply anytime_run_bind
    · exact fun _ => trivial
    intro r _
    apply anytime_run_bind
    · exact fun _ => trivial
    intro _ s
    exact repairUsers_anytime cfg startedAt _
  | _ => exact fun r s => ⟨_, guarded_of trivial, trivial⟩

end protocol

/-! ### Wallets and the ledger -/

/-- The wallet of a user agrees with the ledger up to `τ`. -/
def Store.Within (τ : ℤ) (s : Store) (userId : String) : Prop :=
  ∀ coins, s.coins userId = some coins → |coins - s.expectedCoins userId| ≤ τ

/-- A wallet is set to the ledger total that it has when it is set, and no movement goes below an
empty ledger. -/
def Undisturbed (x : Phase × Event Cmd Reply Store) : Prop :=
  match x.2.cmd with
  | .setCoins userId _ => x.2.ans.delivered = true →
      x.1.expected = some (userId, x.2.before.expectedCoins userId)
  | .movement row => x.2.ans.delivered = true →
      0 ≤ x.2.before.net row.userId ∧ 0 ≤ x.2.before.net row.userId + row.signed
  | _ => True

instance : DecidablePred Undisturbed := fun x => by
  unfold Undisturbed
  split <;> infer_instance

/-- The wallet of a user is set, or it is read beside the ledger and is within a tolerance of at most
`τ`. -/
def Checks (τ : ℤ) (userId : String) (x : Phase × Event Cmd Reply Store) : Prop :=
  match x.2.cmd with
  | .setCoins id _ => x.2.ans.delivered = true ∧ id = userId
  | .aggregate id => id = userId ∧ x.1.tolerance ≤ τ ∧ ∃ coins,
      x.1.actual = some (userId, coins) ∧ x.2.before.coins userId = some coins ∧
        |coins - x.2.before.expectedCoins userId| ≤ x.1.tolerance
  | _ => False

variable {τ : ℤ} {s t : Store} {userId : String} {φ : Phase} {c : Cmd} {r : Reply}

theorem coins_updateCoins (f : ℤ → ℤ) (id userId : String) :
    (t.updateCoins id f).coins userId =
      if id = userId then (t.coins userId).map f else t.coins userId := by
  have hkeeps : ∀ w : Wallet, Wallet.userId { w with coins := f w.coins } = w.userId := fun _ => rfl
  have hfind := Mongo.find?_update hkeeps id userId t.wallets
  rw [Store.coins, Store.updateCoins, hfind, Store.coins]
  split
  · rw [Option.map_map, Option.map_map]
    rfl
  · rfl

theorem total_snoc (type : TxType) {t' : Store} {row : CoinTransaction}
    (ht : t'.ledger = t.ledger ++ [row]) :
    t'.total type userId = t.total type userId +
      if row.userId = userId ∧ row.status = .completed ∧ row.type = type then row.coins else 0 := by
  rw [Store.total, ht, List.filter_append, List.map_append, List.sum_append]
  congr 1
  by_cases h : row.userId = userId ∧ row.status = .completed ∧ row.type = type
  · obtain ⟨rfl, hstatus, rfl⟩ := h
    simp [hstatus]
  · rw [if_neg h, List.filter_singleton]
    have hfalse : (row.userId == userId && row.status == .completed && row.type == type) = false := by
      simp_all
    rw [hfalse]
    rfl

theorem net_movement {t' : Store} {row : CoinTransaction}
    (ht : t'.ledger = t.ledger ++ [{ row with status := .completed }]) :
    t'.net userId = t.net userId + if row.userId = userId then row.signed else 0 := by
  rw [Store.net, Store.net, total_snoc .credit ht, total_snoc .debit ht]
  by_cases huser : row.userId = userId
  · rw [if_pos huser, CoinTransaction.signed]
    cases row.type with
    | credit =>
      have hdebit : ¬ (row.userId = userId ∧ TxStatus.completed = .completed ∧
          TxType.credit = .debit) := fun h => nomatch h.2.2
      rw [if_pos ⟨huser, rfl, rfl⟩, if_neg hdebit]
      ring
    | debit =>
      have hcredit : ¬ (row.userId = userId ∧ TxStatus.completed = .completed ∧
          TxType.debit = .credit) := fun h => nomatch h.2.2
      rw [if_neg hcredit, if_pos ⟨huser, rfl, rfl⟩]
      ring
  · rw [if_neg huser, if_neg fun h => huser h.1, if_neg fun h => huser h.1]
    ring

/-- **One command.**  A wallet that agrees with its ledger still does, and one that is checked does. -/
theorem within_step (hA : Allows φ c) (hG : Undisturbed (φ, ⟨t, c, r, c.exec r t⟩)) (hτ : 0 ≤ τ)
    (h : t.Within τ userId ∨ Checks τ userId (φ, ⟨t, c, r, c.exec r t⟩)) :
    (c.exec r t).Within τ userId := by
  by_cases hr : r.delivered = false
  · have hexec : c.exec r t = t := if_pos hr
    rw [hexec]
    rcases h with h | h
    · exact h
    · cases c with
      | setCoins id coins =>
        rw [h.1] at hr
        cases hr
      | aggregate id =>
        obtain ⟨rfl, hle, coins, -, hcoins, hwithin⟩ := h
        intro coins' hcoins'
        obtain rfl := Option.mem_unique hcoins hcoins'
        exact hwithin.trans hle
      | _ => exact h.elim
  have hexec : c.exec r t = _ := if_neg hr
  rw [Bool.not_eq_false] at hr
  cases c with
  | setCoins id coins =>
    rw [hexec]
    have hledger : (t.updateCoins id fun _ => coins).expectedCoins userId = t.expectedCoins userId :=
      rfl
    have hread : coins = t.expectedCoins id := by
      have heq := Option.some.inj (hA.symm.trans (hG hr))
      exact congrArg Prod.snd heq
    intro coins' hcoins'
    have hcoins' : (t.updateCoins id fun _ => coins).coins userId = some coins' := hcoins'
    rw [coins_updateCoins] at hcoins'
    show |coins' - (t.updateCoins id fun _ => coins).expectedCoins userId| ≤ τ
    rw [hledger]
    by_cases hid : id = userId
    · rw [if_pos hid, Option.map_eq_some_iff] at hcoins'
      obtain ⟨-, -, rfl⟩ := hcoins'
      rw [hread, hid, sub_self, abs_zero]
      exact hτ
    · rw [if_neg hid] at hcoins'
      rcases h with h | h
      · exact h coins' hcoins'
      · exact absurd h.2 hid
  | aggregate id =>
    rw [hexec]
    rcases h with h | h
    · exact h
    · obtain ⟨rfl, hle, coins, -, hcoins, hwithin⟩ := h
      intro coins' hcoins'
      obtain rfl := Option.mem_unique hcoins hcoins'
      exact hwithin.trans hle
  | movement row =>
    obtain ⟨hbefore, hafter⟩ := hG hr
    have h := h.resolve_right fun h => h
    intro coins hcoins
    have hledger : (Cmd.exec (.movement row) r t).ledger =
        t.ledger ++ [{ row with status := .completed }] := by
      rw [hexec]
    rw [Store.expectedCoins, net_movement hledger]
    rw [hexec] at hcoins
    have hcoins : (t.updateCoins row.userId fun coins => coins + row.signed).coins userId =
        some coins := hcoins
    rw [coins_updateCoins] at hcoins
    by_cases huser : row.userId = userId
    · subst huser
      rw [if_pos rfl, Option.map_eq_some_iff] at hcoins
      obtain ⟨old, hold, rfl⟩ := hcoins
      have hle := h old hold
      rw [Store.expectedCoins, max_eq_right hbefore] at hle
      rw [if_pos rfl, max_eq_right hafter]
      have hsame : old + row.signed - (t.net row.userId + row.signed) = old - t.net row.userId := by
        ring
      rw [hsame]
      exact hle
    · rw [if_neg huser] at hcoins
      rw [if_neg huser, add_zero]
      exact h coins hcoins
  | _ =>
    rw [hexec]
    exact h.resolve_right fun h => h

/-! ### Whole runs -/

def repairRun (cfg : RepairConfig) (s : Store) (ms : List (Move Request Reply)) :
    Pool Cmd Reply Store :=
  (Pool.start s).play Cmd.exec (program cfg) ms

def watchedRepair (cfg : RepairConfig) (s : Store) (ms : List (Move Request Reply)) :
    Watched Phase Cmd Reply Store :=
  (Watched.start s).play Phase.next Phase.start Cmd.exec (program cfg) ms

/-- **No movement is lost.**  Where every wallet is set to the ledger total of that moment, the
wallet of a user ends within the tolerance, when it started so or some repair has checked it. -/
theorem within_of_undisturbed (cfg : RepairConfig) (s : Store) (ms : List (Move Request Reply))
    (hG : ∀ x ∈ (watchedRepair cfg s ms).log, Undisturbed x) (hτ : 0 ≤ τ) (userId : String)
    (h : s.Within τ userId ∨ ∃ x ∈ (watchedRepair cfg s ms).log, Checks τ userId x) :
    (repairRun cfg s ms).store.Within τ userId := by
  let J : List (Phase × Event Cmd Reply Store) → Store → Prop := fun l t =>
    (s.Within τ userId ∨ ∃ x ∈ l, Checks τ userId x) → t.Within τ userId
  have h₀ : J [] s := by
    rintro (h | ⟨x, hx, -⟩)
    · exact h
    · cases hx
  have hstep : ∀ l t φ c r, J l t → Allows φ c → Undisturbed (φ, ⟨t, c, r, c.exec r t⟩) →
      J (l ++ [(φ, ⟨t, c, r, c.exec r t⟩)]) (c.exec r t) := by
    rintro l t φ c r hJ hA hG h
    apply within_step hA hG hτ
    rcases h with h | ⟨x, hx, hchecks⟩
    · exact .inl (hJ (.inl h))
    · rcases mem_snoc.1 hx with hx | rfl
      · exact .inl (hJ (.inr ⟨x, hx, hchecks⟩))
      · exact .inr hchecks
  obtain ⟨-, -, hJ⟩ := Watched.play_watched J Undisturbed (program_follows cfg) h₀ hstep ms hG
  rw [Watched.play_pool] at hJ
  exact hJ h

def sampleLedger (coins : ℤ) : Store :=
  { wallets := [⟨"u", coins⟩]
    ledger := [⟨"u", .credit, 100, .completed⟩]
    queue := []
    payloads := [] }

def purchase (coins : ℤ) : Request := .movement ⟨"u", .credit, coins, .completed⟩

def sampleConfig : RepairConfig := ⟨40, 45000, true⟩

def answered : Reply := ⟨true, true, 0⟩

def repairThenPurchase : List (Move Request Reply) :=
  [.spawn (.canonicalCoins "u" none), .step 0 answered, .step 0 answered, .step 0 answered,
    .spawn (purchase 50), .step 1 answered]

theorem within_sample :
    (repairRun sampleConfig (sampleLedger 70) repairThenPurchase).store.Within 1 "u" := by
  apply within_of_undisturbed
  · decide +kernel
  · decide
  · right
    have hset : ((watchedRepair sampleConfig (sampleLedger 70) repairThenPurchase).log[2]?.any
        fun x => match x.2.cmd with
          | .setCoins id _ => x.2.ans.delivered && id == "u"
          | _ => false) = true := by
      decide +kernel
    rw [Option.any_eq_true] at hset
    obtain ⟨x, hx, hset⟩ := hset
    refine ⟨x, List.mem_of_getElem? hx, ?_⟩
    unfold Checks
    split at hset
    · rename_i id coins hcmd
      rw [Bool.and_eq_true, beq_iff_eq] at hset
      rw [hcmd]
      exact hset
    · cases hset

/-- A login that loads the wallet before a purchase, and writes after another. -/
def loginBetweenPurchases : List (Move Request Reply) :=
  [.spawn (.canonicalCoins "u" none), .step 0 answered, .spawn (purchase 50), .step 1 answered,
    .step 0 answered, .spawn (purchase 30), .step 2 answered, .step 0 answered]

theorem movement_lost :
    (sampleLedger 100).Within 1 "u" ∧
      ¬ (repairRun sampleConfig (sampleLedger 100) loginBetweenPurchases).store.Within 1 "u" := by
  constructor
  · intro coins hcoins
    cases hcoins
    decide
  · intro h
    have hcoins : (repairRun sampleConfig (sampleLedger 100) loginBetweenPurchases).store.coins "u" =
        some 150 := by
      decide +kernel
    have hexpected : (repairRun sampleConfig (sampleLedger 100)
        loginBetweenPurchases).store.expectedCoins "u" = 180 := by
      decide +kernel
    have hle := h 150 hcoins
    rw [hexpected] at hle
    revert hle
    decide

end VibemeetBackend.Balance
