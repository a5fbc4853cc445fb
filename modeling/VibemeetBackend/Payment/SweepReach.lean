import VibemeetBackend.Async.Trace
import VibemeetBackend.Payment.Sweep

/-!
# Which payments the sweeps reach

A set of payments waits, and every sweep passes the first payments without coins on.  A payment that
was skipped or failed stays where it is, so it takes its place in the batch again.
-/

namespace VibemeetBackend.Payment

open Async

variable {cfg : SweepConfig} {env : SweepEnv} {s : SweepState} {S : Finset String}

/-! ### What a sweep passes on -/

def batchIds (cfg : SweepConfig) (env : SweepEnv) (s : Store) : List String :=
  match sweepCheck cfg env s with
  | .error _ => []
  | .ok check => (sweepBatch cfg check).map fun row => row.paymentId

theorem batchIds_length (cfg : SweepConfig) (env : SweepEnv) (s : Store) :
    (batchIds cfg env s).length ≤ cfg.maxPerTick := by
  grind [batchIds, sweepBatch]

theorem orderId_of_mem_batch {check : PaymentErrorCheckResult} {row : PaymentErrorCheckRow}
    (h : row ∈ sweepBatch cfg check) : row.orderId.isSome = true := by
  have hcandidate := (List.mem_filter.1 (List.mem_of_mem_take h)).2
  exact (Bool.and_eq_true_iff.1 hcandidate).1

theorem reconcileRows_passed (rows : List PaymentErrorCheckRow) (i : ℕ) (result : SweepResult)
    (s : SweepState) (h : ∀ row ∈ rows, row.orderId.isSome = true) :
    (reconcileRows cfg env rows i result s).2.passed =
      s.passed ++ rows.map fun row => row.paymentId := by
  induction rows generalizing i result s with
  | nil => exact (List.append_nil _).symm
  | cons row rows ih =>
    obtain ⟨orderId, horder⟩ := Option.isSome_iff_exists.1 (h row List.mem_cons_self)
    have hrest : ∀ row ∈ rows, row.orderId.isSome = true :=
      fun row hrow => h row (List.mem_cons_of_mem _ hrow)
    simp [reconcileRows, horder, ih _ _ _ hrest]

/-- **What a sweep passes on** is its batch. -/
theorem sweep_passed (cfg : SweepConfig) (env : SweepEnv) (s : SweepState) :
    (SweepMove.next cfg s (.sweep env)).passed = s.passed ++ batchIds cfg env s.store := by
  show (runWalletPaymentReconcileSweep cfg env s).2.passed = _
  unfold runWalletPaymentReconcileSweep batchIds
  cases sweepCheck cfg env s.store with
  | error e => exact (List.append_nil _).symm
  | ok check =>
    exact reconcileRows_passed _ _ _ _ fun row hrow => orderId_of_mem_batch hrow

/-! ### Waiting payments -/

def waiting (S : Finset String) (s : SweepState) : Finset String :=
  S.filter fun p => p ∉ s.passed

/-- On the pages of the sweep the payment is captured, of the wallet, with an order and without
coins. -/
def Uncredited (cfg : SweepConfig) (env : SweepEnv) (s : Store) (p : String) : Prop :=
  ∀ payments ∈ fetchPaymentsForRange cfg env ((env.now - cfg.lookbackMs) / 1000)
    ((env.now - 1) / 1000), ∃ x ∈ payments, x.id = p ∧ x.isWallet env = true ∧
      x.order.isSome = true ∧ (issueOf x s).gotCoins = false

/-- A sweep finds every payment that waits without coins. -/
def Listed (cfg : SweepConfig) (S : Finset String) (e : SweepState × SweepMove) : Prop :=
  match e.2 with
  | .sweep env => ∀ p ∈ waiting S e.1, Uncredited cfg env e.1.store p
  | .write _ => True

/-- The provider is asked and answers, and all that wait get a place, or every place goes to another
payment that waits. -/
def Fair (cfg : SweepConfig) (S : Finset String) (e : SweepState × SweepMove) : Prop :=
  match e.2 with
  | .sweep env => cfg.razorpayConfigured = true ∧
      (sweepCheck cfg env e.1.store).toOption.isSome = true ∧
      ((∀ p ∈ waiting S e.1, p ∈ batchIds cfg env e.1.store) ∨
        (batchIds cfg env e.1.store).Nodup ∧ ∀ p ∈ batchIds cfg env e.1.store, p ∈ waiting S e.1)
  | .write _ => True

instance (cfg : SweepConfig) (env : SweepEnv) (s : Store) (p : String) :
    Decidable (Uncredited cfg env s p) :=
  inferInstanceAs (Decidable (∀ payments ∈ fetchPaymentsForRange cfg env
    ((env.now - cfg.lookbackMs) / 1000) ((env.now - 1) / 1000), ∃ x ∈ payments, x.id = p ∧
      x.isWallet env = true ∧ x.order.isSome = true ∧ (issueOf x s).gotCoins = false))

instance (cfg : SweepConfig) (S : Finset String) : DecidablePred (Listed cfg S)
  | (s, .sweep env) =>
    inferInstanceAs (Decidable (∀ p ∈ waiting S s, Uncredited cfg env s.store p))
  | (_, .write _) => inferInstanceAs (Decidable True)

instance (cfg : SweepConfig) (S : Finset String) : DecidablePred (Fair cfg S)
  | (s, .sweep env) =>
    inferInstanceAs (Decidable (cfg.razorpayConfigured = true ∧
      (sweepCheck cfg env s.store).toOption.isSome = true ∧
        ((∀ p ∈ waiting S s, p ∈ batchIds cfg env s.store) ∨
          (batchIds cfg env s.store).Nodup ∧ ∀ p ∈ batchIds cfg env s.store, p ∈ waiting S s)))
  | (_, .write _) => inferInstanceAs (Decidable True)

theorem mem_waiting {p : String} : p ∈ waiting S s ↔ p ∈ S ∧ p ∉ s.passed := Finset.mem_filter

theorem waiting_sweep : waiting S (SweepMove.next cfg s (.sweep env)) =
    waiting S s \ (batchIds cfg env s.store).toFinset := by
  ext p
  simp [mem_waiting, sweep_passed, and_assoc]

theorem card_waiting_sweep (cfg : SweepConfig) (env : SweepEnv) (s : SweepState)
    (S : Finset String) : (waiting S (SweepMove.next cfg s (.sweep env))).card +
    (waiting S s ∩ (batchIds cfg env s.store).toFinset).card = (waiting S s).card := by
  simp [waiting_sweep]

theorem card_served_le (cfg : SweepConfig) (env : SweepEnv) (s : SweepState)
    (S : Finset String) :
    (waiting S s ∩ (batchIds cfg env s.store).toFinset).card ≤ cfg.maxPerTick := by
  calc (waiting S s ∩ (batchIds cfg env s.store).toFinset).card
      ≤ (batchIds cfg env s.store).toFinset.card := Finset.card_le_card Finset.inter_subset_right
    _ ≤ (batchIds cfg env s.store).length := List.toFinset_card_le _
    _ ≤ cfg.maxPerTick := batchIds_length cfg env s.store

theorem Issue.candidate {issue : Issue} (h : issue.gotCoins = false) :
    (issue == .noCoinTransaction || issue == .paidButPending || issue == .paidButFailed) = true := by
  cases issue with
  | okCredited | creditedUserDeleted => cases h
  | _ => rfl

theorem mem_batchIds_of_short {p : String} (hcfg : cfg.razorpayConfigured = true)
    (hcheck : (sweepCheck cfg env s.store).toOption.isSome = true)
    (hshort : (batchIds cfg env s.store).length < cfg.maxPerTick)
    (hp : Uncredited cfg env s.store p) : p ∈ batchIds cfg env s.store := by
  unfold batchIds at hshort ⊢
  cases hres : sweepCheck cfg env s.store with
  | error e =>
    rw [hres] at hcheck
    cases hcheck
  | ok check =>
    rw [hres] at hshort
    dsimp only at hshort ⊢
    unfold sweepCheck runPaymentErrorCheck at hres
    split at hres
    · cases hres
    · split at hres
      · cases hres
      · rw [if_neg (by simp [hcfg])] at hres
        split at hres
        · cases hres
        · rename_i payments hpayments
          obtain ⟨x, hx, rfl, hwallet, horder, hissue⟩ := hp payments hpayments
          cases hres
          have hrow : checkRow s.store x ∈
              ((payments.filter (ListedPayment.isWallet env)).map (checkRow s.store)).filter
                fun row => !row.issue.gotCoins := by
            apply List.mem_filter.2
            refine ⟨List.mem_map_of_mem (List.mem_filter.2 ⟨hx, hwallet⟩), ?_⟩
            show (!(issueOf x s.store).gotCoins) = true
            rw [hissue]
            rfl
          have hcandidate : (checkRow s.store x).isCandidate = true :=
            Bool.and_eq_true_iff.2 ⟨horder, Issue.candidate hissue⟩
          have hmem := List.mem_filter.2 ⟨hrow, hcandidate⟩
          rw [List.length_map, sweepBatch, List.length_take] at hshort
          rw [sweepBatch, List.take_of_length_le (by omega)]
          exact List.mem_map.2 ⟨_, hmem, rfl⟩

theorem card_waiting_fair (hlisted : Listed cfg S (s, .sweep env))
    (hfair : Fair cfg S (s, .sweep env)) :
    (waiting S (SweepMove.next cfg s (.sweep env))).card ≤ (waiting S s).card - cfg.maxPerTick := by
  obtain ⟨hcfg, hcheck, hplaces⟩ := hfair
  have hcard := card_waiting_sweep cfg env s S
  have hall : (∀ p ∈ waiting S s, p ∈ batchIds cfg env s.store) →
      (waiting S (SweepMove.next cfg s (.sweep env))).card ≤
        (waiting S s).card - cfg.maxPerTick := by
    intro h
    have hsub : waiting S s ⊆ (batchIds cfg env s.store).toFinset :=
      fun p hp => List.mem_toFinset.2 (h p hp)
    simp [waiting_sweep, Finset.sdiff_eq_empty_iff_subset.2 hsub]
  rcases hplaces with h | ⟨hnodup, hwaiting⟩
  · exact hall h
  · have hnodup : (batchIds cfg env s.store).Nodup := hnodup
    by_cases hfull : (batchIds cfg env s.store).length < cfg.maxPerTick
    · exact hall fun p hp => mem_batchIds_of_short hcfg hcheck hfull (hlisted p hp)
    · have hsub : (batchIds cfg env s.store).toFinset ⊆ waiting S s :=
        fun p hp => hwaiting p (List.mem_toFinset.1 hp)
      rw [Finset.inter_eq_right.2 hsub, List.toFinset_card_of_nodup hnodup] at hcard
      omega

theorem fair_of_full
    (h : (waiting S s ∩ (batchIds cfg env s.store).toFinset).card = cfg.maxPerTick) :
    Fair cfg S (s, .sweep env) := by
  have hpos := cfg.perTick_pos
  have hlength := batchIds_length cfg env s.store
  have hinter : (waiting S s ∩ (batchIds cfg env s.store).toFinset).card ≤
      (batchIds cfg env s.store).toFinset.card := Finset.card_le_card Finset.inter_subset_right
  have hle := List.toFinset_card_le (batchIds cfg env s.store)
  have hcheck : cfg.razorpayConfigured = true ∧
      (sweepCheck cfg env s.store).toOption.isSome = true := by
    by_contra hnot
    have hempty : batchIds cfg env s.store = [] := by
      unfold batchIds
      cases hres : sweepCheck cfg env s.store with
      | error e => rfl
      | ok check =>
        have hcfg : cfg.razorpayConfigured = false := by
          rw [← Bool.not_eq_true]
          intro hcfg
          exact hnot ⟨hcfg, by rw [hres]; rfl⟩
        unfold sweepCheck runPaymentErrorCheck at hres
        split at hres
        · cases hres
        · split at hres
          · cases hres
          · cases hres
            exact congrArg (List.map PaymentErrorCheckRow.paymentId) List.take_nil
    rw [hempty, List.toFinset_nil, Finset.inter_empty, Finset.card_empty] at h
    omega
  refine ⟨hcheck.1, hcheck.2, .inr ⟨?_, ?_⟩⟩
  · have hsame : (batchIds cfg env s.store).toFinset.card = (batchIds cfg env s.store).length := by
      omega
    exact Multiset.coe_nodup.1 (Multiset.toFinset_card_eq_card_iff_nodup.1 hsame)
  · intro p hp
    have heq : waiting S s ∩ (batchIds cfg env s.store).toFinset =
        (batchIds cfg env s.store).toFinset :=
      Finset.eq_of_subset_of_card_le Finset.inter_subset_right (by omega)
    have hmem := List.mem_toFinset.2 hp
    rw [← heq] at hmem
    exact Finset.mem_of_mem_inter_left hmem

/-! ### Runs -/

def SweepMove.isSweep : SweepMove → Bool
  | .sweep _ => true
  | .write _ => false

/-- A run of sweeps, before which nothing was passed on. -/
abbrev sweepLog (cfg : SweepConfig) (store : Store) (ms : List SweepMove) :
    List (SweepState × SweepMove) :=
  stepLog (SweepMove.next cfg) ⟨store, []⟩ ms

theorem card_waiting_run {ms : List SweepMove}
    (hlisted : ∀ e ∈ stepLog (SweepMove.next cfg) s ms, Listed cfg S e)
    (hfair : ∀ e ∈ stepLog (SweepMove.next cfg) s ms, Fair cfg S e) :
    (waiting S (runFrom (SweepMove.next cfg) s ms)).card ≤
      (waiting S s).card - ms.countP SweepMove.isSweep * cfg.maxPerTick := by
  induction ms generalizing s with
  | nil =>
    simp
  | cons m ms ih =>
    rw [forall_stepLog_cons] at hlisted hfair
    have hrest := ih hlisted.2 hfair.2
    cases m with
    | sweep env =>
      have hstep := card_waiting_fair hlisted.1 hfair.1
      rw [runFrom_cons, List.countP_cons_of_pos rfl, Nat.add_mul, Nat.one_mul]
      omega
    | write store =>
      exact hrest

theorem card_waiting_le (cfg : SweepConfig) (S : Finset String) (s : SweepState)
    (ms : List SweepMove) :
    (waiting S s).card ≤ (waiting S (runFrom (SweepMove.next cfg) s ms)).card +
      ms.countP SweepMove.isSweep * cfg.maxPerTick := by
  induction ms generalizing s with
  | nil => exact Nat.le_add_right _ _
  | cons m ms ih =>
    have hrest := ih (SweepMove.next cfg s m)
    cases m with
    | sweep env =>
      have hcard := card_waiting_sweep cfg env s S
      have hle := card_served_le cfg env s S
      rw [runFrom_cons, List.countP_cons_of_pos rfl, Nat.add_mul, Nat.one_mul]
      omega
    | write store =>
      exact hrest

theorem fair_of_reached {ms : List SweepMove}
    (hcard : (waiting S s).card = ms.countP SweepMove.isSweep * cfg.maxPerTick)
    (hnone : waiting S (runFrom (SweepMove.next cfg) s ms) = ∅) :
    ∀ e ∈ stepLog (SweepMove.next cfg) s ms, Fair cfg S e := by
  induction ms generalizing s with
  | nil => exact fun e he => nomatch he
  | cons m ms ih =>
    rw [runFrom_cons] at hnone
    have hrest := card_waiting_le cfg S (SweepMove.next cfg s m) ms
    rw [hnone, Finset.card_empty, Nat.zero_add] at hrest
    rw [forall_stepLog_cons]
    cases m with
    | sweep env =>
      have hsplit := card_waiting_sweep cfg env s S
      have hle := card_served_le cfg env s S
      rw [List.countP_cons_of_pos rfl, Nat.add_mul, Nat.one_mul] at hcard
      have hfull : (waiting S s ∩ (batchIds cfg env s.store).toFinset).card = cfg.maxPerTick := by
        omega
      exact ⟨fair_of_full hfull, ih (by omega) hnone⟩
    | write store =>
      exact ⟨trivial, ih hcard hnone⟩

def Reached (S : Finset String) (s : SweepState) : Prop := ∀ p ∈ S, p ∈ s.passed

theorem reached_iff : Reached S s ↔ waiting S s = ∅ := by
  rw [waiting, Finset.filter_eq_empty_iff]
  exact forall₂_congr fun p _ => not_not.symm

/-- **Fair sweeps starve nobody**: with places enough for the set, they pass all its payments on; and
sweeps that do so without a place to spare were fair. -/
theorem sweeps_reach (cfg : SweepConfig) (S : Finset String) (store : Store) (ms : List SweepMove)
    (hlisted : ∀ e ∈ sweepLog cfg store ms, Listed cfg S e) :
    (S.card ≤ ms.countP SweepMove.isSweep * cfg.maxPerTick →
      (∀ e ∈ sweepLog cfg store ms, Fair cfg S e) →
        Reached S (runFrom (SweepMove.next cfg) ⟨store, []⟩ ms)) ∧
    (S.card = ms.countP SweepMove.isSweep * cfg.maxPerTick →
      Reached S (runFrom (SweepMove.next cfg) ⟨store, []⟩ ms) →
        ∀ e ∈ sweepLog cfg store ms, Fair cfg S e) := by
  have hstart : waiting S ⟨store, []⟩ = S :=
    Finset.filter_true_of_mem fun p _ => List.not_mem_nil
  constructor
  · intro hplaces hfair
    have hcard := card_waiting_run hlisted hfair
    rw [hstart] at hcard
    rw [reached_iff, ← Finset.card_eq_zero]
    omega
  · intro hplaces hreached
    apply fair_of_reached
    · rw [hstart]
      exact hplaces
    · exact reached_iff.1 hreached

/-! A batch of one: the older of two payments waits behind one whose user does not exist. -/

def starvedConfig : SweepConfig where
  razorpayConfigured := true
  payment := {}
  maxPages := 50
  lookbackMs := 6 * 60 * 60 * 1000
  maxPerTick := 1
  pages_pos := by decide
  lookback_min := by decide
  perTick_pos := by decide

def starvedNotes (userId : String) : RazorpayNotes :=
  { RazorpayNotes.empty with userId := some userId, coins := some (some 10), priceInr := some (some 5) }

def starvedEnv (listed : List (String × String × String)) : SweepEnv where
  now := 1000000000
  page _ _ skip :=
    some (if skip = 0 then listed.map fun x =>
      ⟨x.1, "captured", true, some x.2.1, starvedNotes x.2.2⟩ else [])
  fetchOrder _ := none
  answers _ _ c :=
    { delivered := true
      answered := true
      pick := 0
      payment := match c with
        | .fetchProvider orderId paymentId =>
          (listed.find? fun x => x.1 == paymentId).map fun x =>
            ⟨orderId, "captured", starvedNotes x.2.2, none, none⟩
        | _ => none
      order := ⟨.empty, none, some 500⟩ }

def starvedStore : Store where
  ledger := ⟨[], List.nodup_nil⟩
  users := [⟨"u1", "f1", "user", none, none, 0⟩]
  events := []
  checkouts := []

def starvedMoves : List SweepMove :=
  let env := starvedEnv [("pay_2", "order_2", "gone"), ("pay_1", "order_1", "u1")]
  [.sweep env, .sweep env]

theorem second_payment_starves :
    ¬∀ (cfg : SweepConfig) (S : Finset String) (store : Store) (ms : List SweepMove),
      (∀ e ∈ sweepLog cfg store ms, Listed cfg S e) →
        S.card ≤ ms.countP SweepMove.isSweep * cfg.maxPerTick →
          Reached S (runFrom (SweepMove.next cfg) ⟨store, []⟩ ms) := by
  intro h
  have hlisted : ∀ e ∈ sweepLog starvedConfig starvedStore starvedMoves,
      Listed starvedConfig {"pay_1", "pay_2"} e := by
    decide +kernel
  have hreached := h starvedConfig {"pay_1", "pay_2"} starvedStore starvedMoves hlisted
    (by decide +kernel) "pay_1" (by decide)
  have hmissed : "pay_1" ∉
      (runFrom (SweepMove.next starvedConfig) ⟨starvedStore, []⟩ starvedMoves).passed := by
    decide +kernel
  exact hmissed hreached

/-- The first sweep credits `pay_2`, which leaves its place to `pay_1`. -/
def servedMoves : List SweepMove :=
  let env := starvedEnv [("pay_2", "order_2", "u1"), ("pay_1", "order_1", "u1")]
  [.sweep env, .sweep env]

theorem both_payments_reached : Reached {"pay_1", "pay_2"}
    (runFrom (SweepMove.next starvedConfig) ⟨starvedStore, []⟩ servedMoves) := by
  have hlisted : ∀ e ∈ sweepLog starvedConfig starvedStore servedMoves,
      Listed starvedConfig {"pay_1", "pay_2"} e := by
    decide +kernel
  have hfair : ∀ e ∈ sweepLog starvedConfig starvedStore servedMoves,
      Fair starvedConfig {"pay_1", "pay_2"} e := by
    decide +kernel
  exact (sweeps_reach starvedConfig {"pay_1", "pay_2"} starvedStore servedMoves hlisted).1
    (by decide +kernel) hfair

end VibemeetBackend.Payment
