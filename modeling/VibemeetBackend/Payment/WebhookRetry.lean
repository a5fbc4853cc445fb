import VibemeetBackend.Async.Protocol
import VibemeetBackend.Payment.Controller

/-!
# The retries of a stored webhook event

`retryFailedPaymentWebhooks` claims the events that are received or failed and due.  A failure that is
not to be retried is stored without a date, and so is an event that was never tried.
-/

namespace VibemeetBackend.Payment

open Async Flow Pool

/-! ### Sweeps -/

/-- The loop of a sweep, with the time of each claim: how many events it processed. -/
def sweepEvents (cfg : PaymentConfig) (clock : ℕ → ℤ) : ℕ → List PaymentWebhookEvent → PaymentFlow ℕ
  | processed, [] => pure processed
  | processed, event :: rest => do
    let result ← processStoredRazorpayWebhookEvent cfg event.id (clock rest.length)
    let counts := result == .processed || result == .ignored || result == .alreadyProcessed
    sweepEvents cfg clock (if counts then processed + 1 else processed) rest

def retryFailedPaymentWebhooks (cfg : PaymentConfig) (limit : ℕ) (now : ℤ) (clock : ℕ → ℤ) :
    PaymentFlow ℕ := do
  let (_, s) ← run .query
  sweepEvents cfg clock 0 ((s.events.filter (·.claimable now)).take (max 1 limit))

inductive RetryRequest where
  | sweep (limit : ℕ) (now : ℤ) (clock : ℕ → ℤ)
  | request (q : Request)

def retryProgram (cfg : PaymentConfig) (o : String) : RetryRequest → Prog Cmd Reply Store Unit
  | .sweep limit now clock => spawned (retryFailedPaymentWebhooks cfg limit now clock)
  | .request q => program cfg o q

/-- A run; a process that has not returned at its end has crashed. -/
abbrev retries (cfg : PaymentConfig) (o : String) (s : Store)
    (ms : List (Move RetryRequest Reply)) : Pool Cmd Reply Store :=
  (start s).play exec (retryProgram cfg o) ms

/-! ### What happens to an event -/

section events

variable (d : String) (e : Event Cmd Reply Store)

/-- The event `d` is claimed. -/
def claims : Bool :=
  match e.cmd with
  | .claimEvent id now =>
    id == d && e.ans.delivered && e.before.events.any fun x => x.id == d && x.claimable now
  | _ => false

/-- The outcome of an attempt on `d` is stored. -/
def concludes : Bool :=
  match e.cmd with
  | .updateEvent id _ _ _ => id == d && e.ans.delivered
  | _ => false

/-- A failure of `d` is stored that is not to be retried. -/
def failsForGood : Bool :=
  match e.cmd with
  | .updateEvent id .failed _ none => id == d && e.ans.delivered
  | _ => false

/-- The event `d` is claimed and was failed, without a date. -/
def claimsUndated : Bool :=
  claims d e && e.before.events.any fun x =>
    x.id == d && x.status == .failed && x.nextRetryAt.isNone

end events

def LeftClaimed (d : String) (log : List (Event Cmd Reply Store)) : Prop :=
  ∃ l₁ e l₂, log = l₁ ++ e :: l₂ ∧ claims d e = true ∧ ∀ e' ∈ l₂, concludes d e' = false

/-- The retries of the event `d` are bounded, and it is not dropped. -/
structure RetriesBounded (cfg : PaymentConfig) (d : String) (w : Pool Cmd Reply Store) : Prop where
  attempts : w.log.countP (claims d) ≤ cfg.paymentWebhookMaxRetries
  final : After (fun e => failsForGood d e = true) (fun e => claims d e = false) w.log
  eligible : ∀ x ∈ w.store.events, x.id = d → x.status = .processing →
    ∃ now, x.claimable now = true

/-! ### What a command does to an event -/

/-- `x` is the stored event `d`. -/
structure Stored (d : String) (x : PaymentWebhookEvent) (s : Store) : Prop where
  mem : x ∈ s.events
  id_eq : x.id = d
  only : ∀ y ∈ s.events, y.id = d → y = x

variable {d : String} {x : PaymentWebhookEvent} {s : Store} {c : Cmd} {r : Reply}

theorem Stored.any (h : Stored d x s) (p : PaymentWebhookEvent → Bool) :
    (s.events.any fun y => y.id == d && p y) = p x := by
  rw [Bool.eq_iff_iff, List.any_eq_true]
  constructor
  · rintro ⟨y, hy, hp⟩
    rw [Bool.and_eq_true, beq_iff_eq] at hp
    rw [← h.only y hy hp.1]
    exact hp.2
  · intro hp
    refine ⟨x, h.mem, ?_⟩
    rw [h.id_eq, hp, beq_self_eq_true]
    rfl

theorem Stored.find? (h : Stored d x s) (p : PaymentWebhookEvent → Bool) :
    (s.events.find? fun y => y.id == d && p y) = if p x = true then some x else none := by
  have hany := h.any p
  cases hfind : s.events.find? fun y => y.id == d && p y with
  | none =>
    rw [if_neg]
    intro hp
    have hnone := List.find?_eq_none.1 hfind x h.mem
    rw [h.id_eq, hp, beq_self_eq_true] at hnone
    exact hnone rfl
  | some y =>
    have hy := List.find?_some hfind
    rw [Bool.and_eq_true, beq_iff_eq] at hy
    obtain rfl := h.only y (List.mem_of_find?_eq_some hfind) hy.1
    rw [if_pos hy.2]

theorem Stored.map (h : Stored d x s) {f : PaymentWebhookEvent → PaymentWebhookEvent}
    (hf : ∀ y, (f y).id = y.id) {s' : Store} (hs : s'.events = s.events.map f) :
    Stored d (f x) s' := by
  refine ⟨?_, (hf x).trans h.id_eq, ?_⟩
  · rw [hs]
    exact List.mem_map_of_mem h.mem
  · intro y hy hid
    rw [hs] at hy
    obtain ⟨z, hz, rfl⟩ := List.mem_map.1 hy
    rw [h.only z hz ((hf z).symm.trans hid)]

theorem Stored.congr (h : Stored d x s) {s' : Store} (hs : s'.events = s.events) :
    Stored d x s' := by
  refine ⟨?_, h.id_eq, ?_⟩
  · rw [hs]
    exact h.mem
  · rw [hs]
    exact h.only

/-- What a command is to the event `d`. -/
inductive EventStep (d : String) (x : PaymentWebhookEvent) (c : Cmd) (r : Reply) :
    PaymentWebhookEvent → Prop where
  | claim (now : ℤ) : c = .claimEvent d now → r.delivered = true → x.claimable now = true →
      EventStep d x c r { x with status := .processing, attemptCount := x.attemptCount + 1 }
  | conclude (status : WebhookStatus) (reason : Option String) (next : Option ℤ) :
      c = .updateEvent d status reason next → r.delivered = true →
      EventStep d x c r { x with status, failureReason := reason, nextRetryAt := next }
  | other : (∀ now, c = .claimEvent d now → r.delivered = true → x.claimable now = false) →
      (∀ status reason next, c = .updateEvent d status reason next → r.delivered = false) →
      EventStep d x c r x

/-- **What a command does to a stored event.** -/
theorem eventStep_exec (h : Stored d x s) (c : Cmd) (r : Reply) :
    ∃ x', EventStep d x c r x' ∧ Stored d x' (exec c r s) := by
  by_cases hr : r.delivered = true
  · have hexec : exec c r s = _ := if_neg (by simp [hr])
    rw [hexec]
    cases c with
    | claimEvent id now =>
      by_cases hclaim : id = d ∧ x.claimable now = true
      · obtain ⟨rfl, hclaim⟩ := hclaim
        refine ⟨_, .claim now rfl hr hclaim, ?_⟩
        have hmap : Stored _ _ { s with events := claimEvent id now s.events } :=
          h.map (f := fun y => if y.id = id ∧ y.claimable now = true then
            { y with status := .processing, attemptCount := y.attemptCount + 1 } else y)
            (fun y => by split <;> rfl) rfl
        rw [if_pos ⟨h.id_eq, hclaim⟩] at hmap
        exact hmap
      · refine ⟨x, .other ?_ (by rintro _ _ _ ⟨⟩), ?_⟩
        · intro now' hc _
          obtain ⟨rfl, rfl⟩ : id = d ∧ now = now' := by
            cases hc
            exact ⟨rfl, rfl⟩
          cases hx : x.claimable now with
          | true => exact absurd ⟨rfl, hx⟩ hclaim
          | false => rfl
        · have hmap : Stored _ _ { s with events := claimEvent id now s.events } :=
            h.map (f := fun y => if y.id = id ∧ y.claimable now = true then
              { y with status := .processing, attemptCount := y.attemptCount + 1 } else y)
              (fun y => by split <;> rfl) rfl
          rw [if_neg (by rw [h.id_eq]; exact fun hd => hclaim ⟨hd.1.symm, hd.2⟩)] at hmap
          exact hmap
    | updateEvent id status reason next =>
      have hmap : Stored _ _ { s with events := updateEvent id status reason next s.events } :=
        h.map (f := fun y => if y.id = id then
          { y with status, failureReason := reason, nextRetryAt := next } else y)
          (fun y => by split <;> rfl) rfl
      by_cases hid : d = id
      · subst hid
        rw [if_pos h.id_eq] at hmap
        exact ⟨_, .conclude status reason next rfl hr, hmap⟩
      · rw [if_neg (by rw [h.id_eq]; exact hid)] at hmap
        refine ⟨x, .other (by rintro _ ⟨⟩) ?_, hmap⟩
        intro _ _ _ hc
        cases hc
        exact absurd rfl hid
    | finalize orderId paymentId expected =>
      refine ⟨x, .other (by rintro _ ⟨⟩) (by rintro _ _ _ ⟨⟩), ?_⟩
      dsimp only
      split
      · rename_i s' hok
        obtain ⟨tx, hfinal⟩ := finalize_spec hok
        exact h.congr hfinal.events
      · exact h
    | recordCheckoutResult id status =>
      refine ⟨x, .other (by rintro _ ⟨⟩) (by rintro _ _ _ ⟨⟩), ?_⟩
      cases id with
      | none => exact h
      | some id => exact h.congr rfl
    | query | fetchProvider | markFailed | createTransaction =>
      exact ⟨x, .other (by rintro _ ⟨⟩) (by rintro _ _ _ ⟨⟩), h.congr rfl⟩
  · rw [Bool.not_eq_true] at hr
    refine ⟨x, .other (fun _ _ h => ?_) fun _ _ _ _ => hr, ?_⟩
    · simp [hr] at h
    · have hexec : exec c r s = s := if_pos hr
      rw [hexec]
      exact h

/-! ### The protocol of an attempt -/

/-- Whether a program holds the claim of `d`, and the count that the event had when it claimed it. -/
inductive ClaimPhase where
  | free
  | claimed (attempts : ℕ)

/-- Only a program that claimed `d` stores an outcome, and a date only while attempts are left. -/
def ClaimAllows (cfg : PaymentConfig) (d : String) (φ : ClaimPhase) : Cmd → Prop
  | .updateEvent id status _ next => id = d → ∃ n, φ = .claimed n ∧
      (status = .processed ∨ status = .failed ∧
        (next.isSome = true → n + 1 < cfg.paymentWebhookMaxRetries))
  | _ => True

/-- A claim that finds the event takes it, and a stored failure gives it up.  A program whose update
to `processed` has no answer goes on to store a failure, so this update keeps the claim. -/
def claimNext (d : String) (φ : ClaimPhase) (c : Cmd) (r : Reply) (s : Store) : ClaimPhase :=
  match c with
  | .claimEvent id now =>
    if id = d ∧ r.delivered = true then
      match s.events.find? fun e => e.id == id && e.claimable now with
      | some e => .claimed e.attemptCount
      | none => φ
    else φ
  | .updateEvent id .failed _ _ => if id = d ∧ r.delivered = true then .free else φ
  | _ => φ

section protocol

variable {cfg : PaymentConfig} {d : String} {φ : ClaimPhase}

abbrev RetryFollows (cfg : PaymentConfig) (d : String) {α : Type} (p : PaymentFlow α) : Prop :=
  Anytime (guarded (ClaimAllows cfg d) (claimNext d)) p

theorem claimNext_payment {o : String} {c : Cmd} (h : OfPayment o c) (r : Reply) (s : Store) :
    ClaimAllows cfg d φ c ∧ claimNext d φ c r s = φ := by
  cases c with
  | claimEvent | updateEvent => exact h.elim
  | _ => exact ⟨trivial, rfl⟩

theorem keeps_of_payment {α : Type} {o : String} {p : PaymentFlow α}
    (hp : p.Issues (fun _ => True) (OfPayment o)) :
    Follows (guarded (ClaimAllows cfg d) (claimNext d)) φ p (fun _ φ' => φ' = φ)
      fun _ φ' => φ' = φ := by
  apply follows_of_issues hp
  intro c hc r s
  obtain ⟨hallows, hnext⟩ := claimNext_payment (d := d) (φ := φ) hc r s
  rw [guarded_of hallows, hnext]

theorem anytime_payment {α : Type} {o : String} {p : PaymentFlow α}
    (hp : p.Issues (fun _ => True) (OfPayment o)) : RetryFollows cfg d p := by
  intro φ
  exact (keeps_of_payment hp).mono (fun _ _ _ => trivial) fun _ _ _ => trivial

theorem conclude_follows {α : Type} {id : String} {status : WebhookStatus} {reason : Option String}
    {next : Option ℤ} (a : α) (h : ClaimAllows cfg d φ (.updateEvent id status reason next)) :
    Follows (guarded (ClaimAllows cfg d) (claimNext d)) φ
      (do let _ ← run (.updateEvent id status reason next); pure a) (fun _ _ => True)
      fun _ _ => True :=
  follows_guarded_bind h (fun _ _ => trivial) fun _ _ _ => trivial

theorem processClaimed_follows (cfg : PaymentConfig) (now : ℤ) (e : PaymentWebhookEvent)
    (hφ : e.id = d → φ = .claimed e.attemptCount) :
    Follows (guarded (ClaimAllows cfg d) (claimNext d)) φ (processClaimed cfg now e)
      (fun _ _ => True) fun _ _ => True := by
  have hprocessed : ClaimAllows cfg d φ (.updateEvent e.id .processed none none) := by
    intro hd
    exact ⟨e.attemptCount, hφ hd, .inl rfl⟩
  rw [processClaimed]
  split
  · apply conclude_follows
    intro hd
    exact ⟨e.attemptCount, hφ hd, .inr ⟨rfl, nofun⟩⟩
  split
  · exact conclude_follows _ hprocessed
  · -- the attempt, whose failure is stored whatever it threw
    apply follows_tryCatch
    have hfailed : ∀ message, Follows (guarded (ClaimAllows cfg d) (claimNext d)) φ
        (do
          let retriable := decide (e.attemptCount + 1 < cfg.paymentWebhookMaxRetries) &&
            isRetriableWebhookFailure message
          let next := if retriable then some (computeNextRetryAt cfg now (e.attemptCount + 1))
            else none
          let _ ← run (.updateEvent e.id .failed (some message) next)
          pure (if retriable then WebhookOutcome.retryableFailed else .failed))
        (fun _ _ => True) fun _ _ => True := by
      intro message
      apply conclude_follows
      intro hd
      refine ⟨e.attemptCount, hφ hd, .inr ⟨rfl, ?_⟩⟩
      intro hnext
      by_contra hlast
      simp [decide_eq_false hlast] at hnext
    apply follows_bind
    apply (keeps_of_payment (webhookCredit_issues cfg _)).mono
    · rintro - φ' rfl
      apply follows_guarded_bind hprocessed
      · intro r s
        exact hfailed _
      · intro r s hr
        trivial
    · rintro message φ' rfl
      exact hfailed message

theorem processStored_follows (cfg : PaymentConfig) (id : String) (now : ℤ) :
    RetryFollows cfg d (processStoredRazorpayWebhookEvent cfg id now) := by
  intro φ
  apply follows_guarded_bind trivial
  · intro r s
    trivial
  · intro r s hr
    dsimp only
    split
    · apply follows_guarded_bind trivial
      · intro r s
        trivial
      · intro r' s' hr'
        split <;> trivial
    · rename_i e hfind
      apply processClaimed_follows
      intro hd
      have hid := List.find?_some hfind
      rw [Bool.and_eq_true, beq_iff_eq] at hid
      have hdelivered : r.delivered = true := by
        rw [Reply.ok, Bool.and_eq_true] at hr
        exact hr.1
      rw [claimNext, if_pos ⟨hid.1.symm.trans hd, hdelivered⟩, hfind]

theorem sweepEvents_follows (cfg : PaymentConfig) (clock : ℕ → ℤ)
    (events : List PaymentWebhookEvent) (n : ℕ) : RetryFollows cfg d (sweepEvents cfg clock n events) := by
  induction events generalizing n with
  | nil => exact anytime_pure n
  | cons e rest ih =>
    exact anytime_bind (processStored_follows cfg e.id _) fun result => ih _

theorem retryProgram_follows (cfg : PaymentConfig) (o : String) (q : RetryRequest) :
    (retryProgram cfg o q).Follows (guarded (ClaimAllows cfg d) (claimNext d)) .free
      fun _ _ => True := by
  have hspawned : ∀ {α : Type} (p : PaymentFlow α), RetryFollows cfg d p →
      (spawned p).Follows (guarded (ClaimAllows cfg d) (claimNext d)) .free fun _ _ => True := by
    intro α p hp
    apply Prog.follows_bind.2
    exact Prog.Follows.mono (hp .free) fun _ _ _ => trivial
  cases q with
  | sweep limit now clock =>
    apply hspawned
    apply anytime_call_bind
    · intro φ r s
      exact ⟨_, guarded_of trivial⟩
    · intro r s
      exact sweepEvents_follows cfg clock _ 0
  | request q =>
    cases q with
    | verify q => exact hspawned _ (anytime_payment (verify_issues cfg q))
    | webhook id now => exact hspawned _ (processStored_follows cfg id now)
    | reconcile p e => exact hspawned _ (anytime_payment (reconcile_issues cfg p e))

end protocol

/-! ### Where an event stands -/

theorem leftClaimed_nil : ¬ LeftClaimed d [] := by
  rintro ⟨l₁, e, l₂, hl, -⟩
  exact List.append_ne_nil_of_right_ne_nil l₁ (List.cons_ne_nil _ _) hl.symm

variable {e : Event Cmd Reply Store}

theorem not_leftClaimed {l : List (Event Cmd Reply Store)} {n : ℕ} (he : l[n]? = some e)
    (hconcludes : concludes d e = true) (hafter : ∀ e' ∈ l.drop n, claims d e' = false) :
    ¬ LeftClaimed d l := by
  rintro ⟨l₁, e₁, l₂, rfl, hclaims, hl₂⟩
  rcases Nat.lt_or_ge l₁.length n with hn | hn
  · -- the outcome comes after the claim
    have hmem : e ∈ l₂ := by
      obtain ⟨k, rfl⟩ := Nat.exists_eq_add_of_lt hn
      rw [List.getElem?_append_right (by omega)] at he
      apply List.mem_of_getElem? (i := k)
      rw [← he]
      have hk : l₁.length + k + 1 - l₁.length = k + 1 := by omega
      rw [hk, List.getElem?_cons_succ]
    simp [hl₂ e hmem] at hconcludes
  · have hmem : e₁ ∈ (l₁ ++ e₁ :: l₂).drop n := by
      simp [List.drop_append_of_le_length hn]
    simp [hafter e₁ hmem] at hclaims

section leftClaimed

variable {l : List (Event Cmd Reply Store)} {e : Event Cmd Reply Store}

theorem leftClaimed_claim (h : claims d e = true) : LeftClaimed d (l ++ [e]) :=
  ⟨l, e, [], rfl, h, fun _ he => nomatch he⟩

theorem leftClaimed_snoc (h : claims d e = false) :
    LeftClaimed d (l ++ [e]) ↔ LeftClaimed d l ∧ concludes d e = false := by
  constructor
  · rintro ⟨l₁, e₁, l₂, hl, he₁, hafter⟩
    rcases List.eq_nil_or_concat l₂ with rfl | ⟨l₂', y, rfl⟩
    · obtain ⟨rfl, heq⟩ := List.append_inj' hl rfl
      obtain rfl : e = e₁ := List.head_eq_of_cons_eq heq
      simp [h] at he₁
    · rw [List.concat_eq_append, ← List.cons_append, ← List.append_assoc] at hl
      obtain ⟨rfl, heq⟩ := List.append_inj' hl rfl
      obtain rfl : e = y := List.head_eq_of_cons_eq heq
      refine ⟨⟨l₁, e₁, l₂', rfl, he₁, fun e' he' => hafter e' ?_⟩, hafter e ?_⟩
      · rw [List.concat_eq_append]
        exact List.mem_append_left _ he'
      · simp
  · rintro ⟨⟨l₁, e₁, l₂, rfl, he₁, hafter⟩, he⟩
    refine ⟨l₁, e₁, l₂ ++ [e], ?_, he₁, ?_⟩
    · rw [List.append_assoc, List.cons_append]
    · exact forall_snoc hafter he

end leftClaimed

def Undated (x : PaymentWebhookEvent) : Prop := x.status = .failed ∧ x.nextRetryAt = none

structure Standing (cfg : PaymentConfig) (d : String) (l : List (Event Cmd Reply Store))
    (x : PaymentWebhookEvent) : Prop where
  count : l.countP (claims d) = x.attemptCount
  fresh : x.status = .received → x.attemptCount = 0 ∧ x.nextRetryAt = none
  dated : x.status = .failed → x.nextRetryAt.isSome = true →
    x.attemptCount < cfg.paymentWebhookMaxRetries
  undated : Undated x → ∃ e ∈ l, failsForGood d e = true
  processing : x.status = .processing ↔ LeftClaimed d l
  bounded : (∀ e ∈ l, claimsUndated d e = false) →
    x.attemptCount ≤ cfg.paymentWebhookMaxRetries ∧
      After (fun e => failsForGood d e = true) (fun e => claims d e = false) l ∧
      ((∃ e ∈ l, failsForGood d e = true) → Undated x)
  final : After (fun e => failsForGood d e = true) (fun e => claims d e = false) l →
    ∀ e ∈ l, claimsUndated d e = false

structure Holder (φs : List ClaimPhase) (x : PaymentWebhookEvent) : Prop where
  held : ∀ (i n : ℕ), φs[i]? = some (.claimed n) →
    x.attemptCount = n + 1 ∧ (x.status = .processing ∨ x.status = .processed)
  sole : ∀ i j n m : ℕ, φs[i]? = some (ClaimPhase.claimed n) → φs[j]? = some (ClaimPhase.claimed m) →
    i = j

section step

variable {cfg : PaymentConfig} {t t' : Store} {l : List (Event Cmd Reply Store)}
  {x' : PaymentWebhookEvent}
  {φs : List ClaimPhase}

theorem claims_claim (hx : Stored d x t) {now : ℤ} (hr : r.delivered = true) :
    claims d ⟨t, .claimEvent d now, r, t'⟩ = x.claimable now := by
  simp only [claims, beq_self_eq_true, hr, Bool.true_and]
  exact hx.any fun y => y.claimable now

theorem claimsUndated_claim (hx : Stored d x t) {now : ℤ} (hr : r.delivered = true)
    (hclaim : x.claimable now = true) :
    claimsUndated d ⟨t, .claimEvent d now, r, t'⟩ = true ↔ Undated x := by
  have hany := hx.any fun y => y.status == .failed && y.nextRetryAt.isNone
  simp only [← Bool.and_assoc] at hany
  rw [claimsUndated, claims_claim hx hr, hclaim, Bool.true_and, hany, Undated]
  simp

theorem claims_other (hx : Stored d x t)
    (h : ∀ now, c = .claimEvent d now → r.delivered = true → x.claimable now = false) :
    claims d ⟨t, c, r, t'⟩ = false := by
  cases c with
  | claimEvent id now =>
    by_cases hid : id = d ∧ r.delivered = true
    · obtain ⟨rfl, hr⟩ := hid
      rw [claims_claim hx hr]
      exact h now rfl hr
    · simp only [claims, Bool.and_eq_false_iff, beq_eq_false_iff_ne]
      rw [not_and, Bool.not_eq_true] at hid
      by_cases hd : id = d
      · exact .inl (.inr (hid hd))
      · exact .inl (.inl hd)
  | _ => rfl

theorem concludes_other
    (h : ∀ status reason next, c = .updateEvent d status reason next → r.delivered = false) :
    concludes d ⟨t, c, r, t'⟩ = false := by
  cases c with
  | updateEvent id status reason next =>
    by_cases hid : id = d
    · subst hid
      simp only [concludes, h status reason next rfl, Bool.and_false]
    · simp only [concludes, beq_eq_false_iff_ne.2 hid, Bool.false_and]
  | _ => rfl

theorem concludes_of_fails (h : failsForGood d e = true) : concludes d e = true := by
  obtain ⟨t, c, r, t'⟩ := e
  cases c with
  | updateEvent id status reason next =>
    cases status <;> cases next <;> first | exact h | cases h
  | _ => cases h

theorem not_concludes_of_claims (h : claims d e = true) : concludes d e = false := by
  obtain ⟨t, c, r, t'⟩ := e
  cases c with
  | claimEvent id now => rfl
  | _ => cases h

theorem not_claimsUndated (h : claims d e = false) : claimsUndated d e = false := by
  rw [claimsUndated, h, Bool.false_and]

theorem claimable_status {now : ℤ} (h : x.claimable now = true) :
    x.status = .received ∨ x.status = .failed := by
  rw [PaymentWebhookEvent.claimable, Bool.and_eq_true, Bool.or_eq_true, beq_iff_eq, beq_iff_eq] at h
  exact h.1

theorem standing_claim (h : Standing cfg d l x) (hclaims : claims d e = true)
    (hundated : claimsUndated d e = true ↔ Undated x)
    (hstatus : x.status = .received ∨ x.status = .failed) :
    Standing cfg d (l ++ [e])
      { x with status := .processing, attemptCount := x.attemptCount + 1 } where
  count := by
    rw [List.countP_append, h.count, List.countP_singleton, if_pos hclaims]
  fresh := nofun
  dated := nofun
  undated h := nomatch h.1
  processing := iff_of_true rfl (leftClaimed_claim hclaims)
  bounded hno := by
    have hold : ∀ e ∈ l, claimsUndated d e = false := by
      intro e he
      exact hno e (List.mem_append_left _ he)
    obtain ⟨hcount, hafter, hundatedOf⟩ := h.bounded hold
    have hx : ¬ Undated x := by
      intro hx
      have hlast := hno e (List.mem_append_right _ List.mem_cons_self)
      simp [hundated.2 hx] at hlast
    have hnone : ¬ ∃ e ∈ l, failsForGood d e = true := fun hfails => hx (hundatedOf hfails)
    refine ⟨?_, after_snoc.2 ⟨hafter, fun hfails => (hnone hfails).elim⟩, ?_⟩
    · -- an event that was failed has a date
      show x.attemptCount + 1 ≤ cfg.paymentWebhookMaxRetries
      rcases hstatus with hreceived | hfailed
      · rw [(h.fresh hreceived).1]
        exact cfg.maxRetries_pos
      · apply Nat.succ_le_of_lt
        apply h.dated hfailed
        rw [Option.isSome_iff_ne_none]
        exact fun hnext => hx ⟨hfailed, hnext⟩
    · rintro ⟨e', he', hfails⟩
      rcases mem_snoc.1 he' with he' | rfl
      · exact (hnone ⟨e', he', hfails⟩).elim
      · have hconcludes := concludes_of_fails hfails
        simp [not_concludes_of_claims hclaims] at hconcludes
  final hafter := by
    rw [after_snoc] at hafter
    apply forall_snoc (h.final hafter.1)
    rw [← Bool.not_eq_true, hundated]
    intro hx
    have hfalse := hafter.2 (h.undated hx)
    simp [hclaims] at hfalse

theorem noUndated_snoc (h : claims d e = false) :
    (∀ e' ∈ l ++ [e], claimsUndated d e' = false) ↔ ∀ e' ∈ l, claimsUndated d e' = false := by
  rw [List.forall_mem_append, List.forall_mem_singleton]
  exact and_iff_left (not_claimsUndated h)

theorem finalAfter_snoc (h : claims d e = false) :
    After (fun e => failsForGood d e = true) (fun e => claims d e = false) (l ++ [e]) ↔
      After (fun e => failsForGood d e = true) (fun e => claims d e = false) l := by
  rw [after_snoc]
  exact and_iff_left fun _ => h

theorem standing_other (h : Standing cfg d l x) (hclaims : claims d e = false)
    (hconcludes : concludes d e = false) : Standing cfg d (l ++ [e]) x := by
  have hfails : failsForGood d e = false := by
    rw [← Bool.not_eq_true]
    intro hfails
    simp [concludes_of_fails hfails] at hconcludes
  have hexists : (∃ e' ∈ l ++ [e], failsForGood d e' = true) ↔
      ∃ e' ∈ l, failsForGood d e' = true := by
    constructor
    · rintro ⟨e', he', hf⟩
      rcases mem_snoc.1 he' with he' | rfl
      · exact ⟨e', he', hf⟩
      · simp [hfails] at hf
    · rintro ⟨e', he', hf⟩
      exact ⟨e', List.mem_append_left _ he', hf⟩
  have hforall := noUndated_snoc (l := l) hclaims
  have hafter := finalAfter_snoc (l := l) hclaims
  constructor
  · rw [List.countP_append, h.count, List.countP_singleton, if_neg (by simp [hclaims])]
    rfl
  · exact h.fresh
  · exact h.dated
  · intro hx
    exact hexists.2 (h.undated hx)
  · rw [h.processing, leftClaimed_snoc hclaims, and_iff_left hconcludes]
  · rw [hforall, hafter, hexists]
    exact h.bounded
  · rw [hforall, hafter]
    exact h.final

theorem standing_conclude (h : Standing cfg d l x) {status : WebhookStatus}
    {reason : Option String} {next : Option ℤ}
    (hstatus : status = .processed ∨ status = .failed ∧
      (next.isSome = true → x.attemptCount < cfg.paymentWebhookMaxRetries))
    (hx : x.status = .processing ∨ x.status = .processed) (hclaims : claims d e = false)
    (hconcludes : concludes d e = true)
    (hfails : failsForGood d e = true ↔ status = .failed ∧ next = none) :
    Standing cfg d (l ++ [e]) { x with status, failureReason := reason, nextRetryAt := next } := by
  have hnotUndated : ¬ Undated x := by
    rintro ⟨hf, -⟩
    rw [hf] at hx
    rcases hx with hx | hx <;> cases hx
  have hforall := noUndated_snoc (l := l) hclaims
  have hafter := finalAfter_snoc (l := l) hclaims
  constructor
  · rw [List.countP_append, h.count, List.countP_singleton, if_neg (by simp [hclaims])]
    rfl
  · intro hreceived
    dsimp only at hreceived
    rw [hreceived] at hstatus
    rcases hstatus with hs | ⟨hs, -⟩ <;> cases hs
  · intro hf hnext
    rcases hstatus with hs | ⟨-, hcount⟩
    · simp [hs] at hf
    · exact hcount hnext
  · intro hundated
    exact ⟨e, List.mem_concat_self, hfails.2 hundated⟩
  · apply iff_of_false
    · intro hp
      dsimp only at hp
      rw [hp] at hstatus
      rcases hstatus with hs | ⟨hs, -⟩ <;> cases hs
    · simp [leftClaimed_snoc hclaims, hconcludes]
  · rw [hforall, hafter]
    intro hno
    obtain ⟨hcount, hfinal, hundatedOf⟩ := h.bounded hno
    refine ⟨hcount, hfinal, ?_⟩
    rintro ⟨e', he', hf⟩
    rcases mem_snoc.1 he' with he' | rfl
    · exact (hnotUndated (hundatedOf ⟨e', he', hf⟩)).elim
    · exact hfails.1 hf
  · rw [hforall, hafter]
    exact h.final

/-! ### One command -/

variable {φ : ClaimPhase}

theorem claimNext_other (hx : Stored d x t)
    (hclaim : ∀ now, c = .claimEvent d now → r.delivered = true → x.claimable now = false)
    (hupdate : ∀ status reason next, c = .updateEvent d status reason next →
      r.delivered = false) : claimNext d φ c r t = φ := by
  cases c with
  | claimEvent id now =>
    rw [claimNext]
    split
    · rename_i hid
      obtain ⟨rfl, hr⟩ := hid
      rw [hx.find? fun y => y.claimable now, hclaim now rfl hr]
      rfl
    · rfl
  | updateEvent id status reason next =>
    cases status with
    | failed =>
      apply if_neg
      rintro ⟨rfl, hr⟩
      simp [hupdate _ _ _ rfl] at hr
    | _ => rfl
  | _ => rfl

theorem Holder.append (h : Holder φs x) : Holder (φs ++ [.free]) x := by
  have hold : ∀ i n : ℕ, (φs ++ [ClaimPhase.free])[i]? = some (.claimed n) →
      φs[i]? = some (.claimed n) := by
    intro i n hi
    rcases getElem?_snoc_cases hi with hi | hfree
    · exact hi
    · cases hfree
  constructor
  · intro i n hi
    exact h.held i n (hold i n hi)
  · intro i j n m hi hj
    exact h.sole i j n m (hold i n hi) (hold j m hj)

theorem Holder.none_of (h : Holder φs x) (hx : x.status = .received ∨ x.status = .failed) (i n : ℕ) :
    φs[i]? ≠ some (.claimed n) := by
  intro hi
  rcases (h.held i n hi).2 with hs | hs <;> rcases hx with hx | hx <;> rw [hs] at hx <;> cases hx

/-- The invariant of a run: where the stored event stands, and who holds it. -/
def RetryState (cfg : PaymentConfig) (d : String) (φs : List ClaimPhase)
    (l : List (Event Cmd Reply Store)) (t : Store) : Prop :=
  ∃ x, Stored d x t ∧ Standing cfg d l x ∧ Holder φs x

theorem retryState_spawn (h : RetryState cfg d φs l t) : RetryState cfg d (φs ++ [.free]) l t := by
  obtain ⟨x, hx, hstanding, hholder⟩ := h
  exact ⟨x, hx, hstanding, hholder.append⟩

theorem retryState_step {i : ℕ} (h : RetryState cfg d φs l t) (hi : φs[i]? = some φ)
    (hallows : ClaimAllows cfg d φ c) :
    RetryState cfg d (φs.set i (claimNext d φ c r t)) (l ++ [⟨t, c, r, exec c r t⟩])
      (exec c r t) := by
  obtain ⟨x, hx, hstanding, hholder⟩ := h
  obtain ⟨x', hstep, hx'⟩ := eventStep_exec hx c r
  refine ⟨x', hx', ?_⟩
  cases hstep with
  | claim now hc hr hclaim =>
    subst hc
    have hstatus := claimable_status hclaim
    have hnext : claimNext d φ (.claimEvent d now) r t = .claimed x.attemptCount := by
      rw [claimNext, if_pos ⟨rfl, hr⟩, hx.find? fun y => y.claimable now, if_pos hclaim]
    refine ⟨?_, ?_, ?_⟩
    · apply standing_claim hstanding _ (claimsUndated_claim hx hr hclaim) hstatus
      rw [claims_claim hx hr, hclaim]
    · intro j n hj
      rw [hnext] at hj
      rcases getElem?_set_cases hj with ⟨-, hn⟩ | ⟨-, hj⟩
      · cases hn
        exact ⟨rfl, .inl rfl⟩
      · exact (hholder.none_of hstatus j n hj).elim
    · intro j k n m hj hk
      rcases getElem?_set_cases hj with ⟨rfl, -⟩ | ⟨-, hj⟩
      · rcases getElem?_set_cases hk with ⟨rfl, -⟩ | ⟨-, hk⟩
        · rfl
        · exact (hholder.none_of hstatus k m hk).elim
      · exact (hholder.none_of hstatus j n hj).elim
  | conclude status reason next hc hr =>
    subst hc
    obtain ⟨n, rfl, hstatus⟩ := hallows rfl
    obtain ⟨hcount, hprocessing⟩ := hholder.held i n hi
    have hfails : failsForGood d ⟨t, .updateEvent d status reason next, r,
        exec (.updateEvent d status reason next) r t⟩ = true ↔ status = .failed ∧ next = none := by
      cases status <;> cases next <;> simp [failsForGood, hr]
    refine ⟨?_, ?_, ?_⟩
    · rw [← hcount] at hstatus
      apply standing_conclude hstanding hstatus hprocessing rfl _ hfails
      simp [concludes, hr]
    · intro j m hj
      rcases hstatus with rfl | ⟨rfl, -⟩
      · -- stored as processed: the program still holds the event
        rcases getElem?_set_cases hj with ⟨-, hm⟩ | ⟨-, hj⟩
        · cases hm
          exact ⟨hcount, .inr rfl⟩
        · exact ⟨(hholder.held j m hj).1, .inr rfl⟩
      · rw [claimNext, if_pos ⟨rfl, hr⟩] at hj
        rcases getElem?_set_cases hj with ⟨-, hm⟩ | ⟨hji, hj⟩
        · cases hm
        · exact (hji (hholder.sole j i m n hj hi)).elim
    · intro j k m m' hj hk
      have hold : ∀ j m : ℕ, (φs.set i (claimNext d (.claimed n)
          (.updateEvent d status reason next) r t))[j]? = some (.claimed m) → j = i := by
        intro j m hj
        rcases getElem?_set_cases hj with ⟨hji, -⟩ | ⟨-, hj⟩
        · exact hji
        · exact hholder.sole j i m n hj hi
      rw [hold j m hj, hold k m' hk]
  | other hclaim hupdate =>
    rw [claimNext_other hx hclaim hupdate]
    refine ⟨standing_other hstanding (claims_other hx hclaim) (concludes_other hupdate), ?_⟩
    obtain ⟨hlt, rfl⟩ := List.getElem?_eq_some_iff.1 hi
    rw [List.set_getElem_self hlt]
    exact hholder

end step

/-! ### Runs -/

structure Received (x : PaymentWebhookEvent) : Prop where
  status_eq : x.status = .received
  attemptCount_eq : x.attemptCount = 0
  nextRetryAt_eq : x.nextRetryAt = none

theorem standing_received (h : Received x) : Standing cfg d [] x where
  count := h.attemptCount_eq.symm
  fresh _ := ⟨h.attemptCount_eq, h.nextRetryAt_eq⟩
  dated hf := by
    simp [h.status_eq] at hf
  undated hx := by
    rw [Undated, h.status_eq] at hx
    cases hx.1
  processing := by
    rw [h.status_eq]
    exact iff_of_false nofun leftClaimed_nil
  bounded _ := by
    refine ⟨?_, after_nil, ?_⟩
    · simp [h.attemptCount_eq]
    · rintro ⟨e, he, -⟩
      cases he
  final _ := fun e he => nomatch he

theorem retryState_retries (cfg : PaymentConfig) (o : String) (hx : Stored d x s)
    (hreceived : Received x) (ms : List (Move RetryRequest Reply)) :
    ∃ φs, RetryState cfg d φs (retries cfg o s ms).log (retries cfg o s ms).store := by
  have hholder : Holder [] x := ⟨fun _ _ hi => (nomatch hi), fun _ _ _ _ hi => nomatch hi⟩
  have h₀ : RetryState cfg d [] [] s := ⟨x, hx, standing_received hreceived, hholder⟩
  obtain ⟨φs, -, hstate⟩ := play_protocol (R := fun _ => True) (RetryState cfg d) (fun _ => True)
    (retryProgram_follows cfg o) h₀ (fun _ _ _ _ hstate => retryState_spawn hstate)
    (fun φs l t i φ c r φ' hstate hi hδ _ => by
      obtain ⟨hallows, rfl⟩ := guarded_eq_some hδ
      exact retryState_step hstate hi hallows) ms fun _ _ => trivial
  exact ⟨φs, hstate⟩

/-- **The retries of an event are bounded** exactly when no claim takes a failure without a date and
every process that claims the event stores the outcome of its attempt. -/
theorem retriesBounded_iff (cfg : PaymentConfig) (o : String) (hx : Stored d x s)
    (hreceived : Received x) (ms : List (Move RetryRequest Reply)) :
    RetriesBounded cfg d (retries cfg o s ms) ↔
      (∀ e ∈ (retries cfg o s ms).log, claimsUndated d e = false) ∧
        ¬ LeftClaimed d (retries cfg o s ms).log := by
  obtain ⟨φs, y, hy, hstanding, -⟩ := retryState_retries cfg o hx hreceived ms
  constructor
  · intro h
    refine ⟨hstanding.final h.final, ?_⟩
    intro hleft
    have hprocessing := hstanding.processing.2 hleft
    obtain ⟨now, hclaim⟩ := h.eligible y hy.mem hy.id_eq hprocessing
    have hstatus := claimable_status hclaim
    rw [hprocessing] at hstatus
    rcases hstatus with hs | hs <;> cases hs
  · rintro ⟨hundated, hleft⟩
    obtain ⟨hcount, hfinal, -⟩ := hstanding.bounded hundated
    refine ⟨hstanding.count.trans_le hcount, hfinal, ?_⟩
    intro z hz hid hprocessing
    rw [hy.only z hz hid] at hprocessing
    exact (hleft (hstanding.processing.1 hprocessing)).elim

/-! ### Sample runs -/

def otherEvent : PaymentWebhookEvent where
  id := "e"
  eventType := "payment.failed"
  orderId := some "A"
  paymentId := some "p"
  status := .received
  attemptCount := 0
  nextRetryAt := none
  failureReason := none

def noPaymentEvent : PaymentWebhookEvent := { otherEvent with paymentId := none }

def eventStore (x : PaymentWebhookEvent) : Store where
  ledger := ⟨[], by decide⟩
  users := []
  events := [x]
  checkouts := []

theorem stored_eventStore (x : PaymentWebhookEvent) : Stored x.id x (eventStore x) where
  mem := List.mem_cons_self
  id_eq := rfl
  only _ hy _ := List.mem_singleton.1 hy

def delivered : Reply := ⟨true, true, 0, none, ⟨.empty, none, none⟩⟩

/-- The `i`-th process is a sweep; `n` of its commands are executed. -/
def sweeps (i n : ℕ) : List (Move RetryRequest Reply) :=
  .spawn (.sweep 20 i fun _ => i) :: List.replicate n (.step i delivered)

theorem retriesBounded_sample :
    RetriesBounded {} "e" (retries {} "A" (eventStore otherEvent) (sweeps 0 3 ++ sweeps 1 3)) := by
  apply (retriesBounded_iff {} "A" (stored_eventStore otherEvent) ⟨rfl, rfl, rfl⟩ _).2
  constructor
  · decide +kernel
  · apply not_leftClaimed (n := 2) rfl rfl
    decide +kernel

theorem failure_claimed_again :
    let w := retries {} "A" (eventStore noPaymentEvent)
      ((List.range 6).flatMap (fun i => sweeps i 3) ++ sweeps 6 2)
    w.log.countP (claims "e") = 7 ∧
      ¬ After (fun e => failsForGood "e" e = true) (fun e => claims "e" e = false) w.log ∧
      (∃ x ∈ w.store.events, x.status = .processing ∧ ∀ now, x.claimable now = false) ∧
      ¬ RetriesBounded {} "e" w := by
  intro w
  have hcount : w.log.countP (claims "e") = 7 := by decide +kernel
  refine ⟨hcount, ?_, ⟨_, List.mem_cons_self, rfl, fun now => rfl⟩, ?_⟩
  · apply not_after (n := 4) rfl
    · exact ⟨_, List.mem_of_getElem? (i := 2) rfl, rfl⟩
    · nofun
  · intro h
    have hattempts := h.attempts
    rw [hcount] at hattempts
    exact absurd hattempts (by decide)

end VibemeetBackend.Payment
