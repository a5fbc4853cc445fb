import VibemeetBackend.Chat.PreSend

/-!
# A message is paid for once

Whole runs of requests to send a message and to read a quota, with time passing and other changes of
the wallets between any two of their commands, lost answers, aborted and retried transactions, and
requests that stop for good anywhere.
-/

namespace VibemeetBackend.Chat

open Async Flow Pool

/-! ### Phases -/

structure Phase where
  firebaseUid : String
  messageId : Option String
  asked : Option String
  /-- The key that it has set and not given up. -/
  holds : Option String
  read : Option Store
  committed : Bool
  cached : Option Presend
  /-- The key held no result. -/
  missed : Bool

def Phase.start (firebaseUid : String) (messageId : Option String) : Phase :=
  ⟨firebaseUid, messageId, none, none, none, false, none, false⟩

def Request.start : Request → Phase
  | .preSend firebaseUid _ messageId _ => .start firebaseUid messageId
  | .getQuota firebaseUid _ => .start firebaseUid none
  | .wait _ | .incCoins .. => .start "" none

def Phase.told (φ : Phase) : Option LockValue → Phase
  | some (.result data) => { φ with cached := some data }
  | some .pending | none => { φ with missed := true }

def Phase.next (φ : Phase) (c : Cmd) (r : Reply) (s : Store) : Phase :=
  match c with
  | .setLock key =>
    { φ with
      asked := some key
      holds := if r.delivered = true ∧ s.presendLock key = none then some key else φ.holds }
  | .delLock _ => if r.delivered = true then { φ with holds := none } else φ
  | .getLock key => if r.ok = true then φ.told (s.presendLock key) else φ
  | .snapshot | .findQuota .. | .findQuotaByChannel .. =>
    if r.delivered = true then { φ with read := some s } else φ
  | .commit (some w) =>
    if transactions.applied (some w) r s = true then { φ with committed := true } else φ
  | .findUser _ | .isVipActive _ | .cacheResult .. | .getCreator _ | .watch _ | .cacheCreator ..
  | .saveQuota .. | .commit none | .respond _ | .wait _ | .incCoins .. => φ

def Permits (φ : Phase) (c : Cmd) : Prop :=
  match c with
  | .setLock key => φ.asked = none ∧ φ.holds = none ∧
      ∀ messageId, φ.messageId = some messageId → key = messageId
  | .getLock key => φ.asked = some key
  | .delLock key => φ.holds = some key ∧ φ.committed = false
  | .cacheResult key data => φ.holds = some key ∧ (data.canSend = true → φ.committed = true)
  | .saveQuota _ period => ∃ s, φ.read = some s ∧ period = s.period
  | .commit (some w) => φ.holds.isSome = true ∧ φ.committed = false ∧
      w.user.firebaseUid = φ.firebaseUid ∧
      ∃ s, φ.read = some s ∧ w.quota = s.quotas.get w.pair ∧ w.period = s.period
  | .respond (.presend data) => data.canSend = true →
      φ.committed = true ∨ φ.cached = some data ∨ φ.missed = true
  | _ => True

abbrev ChatFollows {α : Type} (φ : Phase) (p : ChatFlow α) (Q : α → Phase → Prop) : Prop :=
  Follows (guarded Permits Phase.next) φ p Q fun _ _ => True

variable {key : String}

section Phases

variable {α : Type} {φ : Phase} {Q : α → Phase → Prop}

theorem run_follows {c : Cmd} {f : Reply × Store → ChatFlow α} (hc : Permits φ c)
    (h : ∀ r s, r.ok = true → ChatFollows (φ.next c r s) (f (r, s)) Q) :
    ChatFollows φ (run c >>= f) Q :=
  follows_guarded_bind hc (fun _ _ => trivial) h

theorem respond_follows {response : Response} {Q : Unit → Phase → Prop}
    (h : Permits φ (.respond response)) (hQ : Q () φ) : ChatFollows φ (respond response) Q :=
  fun _ _ => ⟨_, guarded_of h, hQ⟩

theorem respond_failed (φ : Phase) (status : ℕ) (error : String) :
    ChatFollows φ (respond (.failed status error)) fun _ _ => True :=
  respond_follows trivial trivial

structure Fresh (firebaseUid : String) (messageId : Option String) (φ : Phase) : Prop where
  firebaseUid : φ.firebaseUid = firebaseUid
  messageId : φ.messageId = messageId
  asked : φ.asked = none
  holds : φ.holds = none
  committed : φ.committed = false

structure Holding (firebaseUid : String) (key : String) (φ : Phase) : Prop where
  firebaseUid : φ.firebaseUid = firebaseUid
  holds : φ.holds = some key
  committed : φ.committed = false

def Cmd.resolves : Cmd → Bool
  | .getCreator _ | .watch _ | .cacheCreator .. | .findQuotaByChannel .. => true
  | _ => false

theorem creatorByQuota_issues (firebaseUid channelId : String) (found : Option String) :
    Issues (fun _ => True) (fun c => c.resolves = true)
      (creatorByQuota firebaseUid channelId found) := by
  apply issues_call_bind
  · rfl
  intro r s _
  dsimp only
  split <;> simp [Cmd.resolves, run]

theorem creatorByMembers_issues (firebaseUid channelId : String) (members : List String) :
    Issues (fun _ => True) (fun c => c.resolves = true)
      (creatorByMembers firebaseUid channelId members) := by
  unfold creatorByMembers
  split
  · exact issues_pure _
  · apply issues_bind
    · apply issues_attempt
      exact issues_call rfl
    · intro x
      cases x with
      | ok => exact issues_pure _
      | error => exact creatorByQuota_issues _ _ _

theorem resolveCreator_issues (firebaseUid channelId : String) :
    Issues (fun _ => True) (fun c => c.resolves = true)
      (resolveCreator firebaseUid channelId) := by
  apply issues_call_bind
  · rfl
  intro r s _
  dsimp only
  split
  · exact issues_pure _
  · apply issues_bind
    · apply issues_attempt
      exact issues_call rfl
    · intro x
      cases x with
      | ok x => exact creatorByMembers_issues _ _ _
      | error => exact creatorByQuota_issues _ _ _

variable {firebaseUid : String}

theorem resolveCreator_follows (uid channelId : String) (hφ : Holding firebaseUid key φ) :
    ChatFollows φ (resolveCreator uid channelId) fun _ ψ => Holding firebaseUid key ψ := by
  apply (follows_within (resolveCreator_issues uid channelId) hφ ?_).mono
  · exact fun _ _ h => h
  · exact fun _ _ _ => trivial
  intro c hc φ r s h
  cases c with
  | getCreator | watch | cacheCreator => exact ⟨φ, guarded_of trivial, h⟩
  | findQuotaByChannel =>
    refine ⟨_, guarded_of trivial, ?_⟩
    show Holding _ _ (if r.delivered = true then _ else _)
    split
    · exact ⟨h.firebaseUid, h.holds, h.committed⟩
    · exact h
  | findUser | isVipActive | setLock | getLock | delLock | cacheResult | findQuota | saveQuota
    | snapshot | commit | respond | wait | incCoins => cases hc

theorem presendBody_spec {channelId creator : String} {s : Store} {w : Option Payment}
    {data : Presend} (h : presendBody firebaseUid channelId creator s = .ok (w, data)) :
    (w = none ∧ data.canSend = false) ∨ ∃ p, w = some p ∧ p.user.firebaseUid = firebaseUid ∧
      p.quota = s.quotas.get p.pair ∧ p.period = s.period := by
  unfold presendBody at h
  cases huser : s.users.get firebaseUid with
  | none =>
    simp [huser] at h
  | some user =>
    rw [huser] at h
    dsimp only at h
    split at h
    · cases h
      exact .inr ⟨_, rfl, (Mongo.Unique.mem_of_get huser).2, rfl, rfl⟩
    · cases h
      exact .inl ⟨rfl, rfl⟩

theorem transaction_follows (channelId creator : String) (attempts : ℕ)
    (hφ : Holding firebaseUid key φ) :
    ChatFollows φ (withTransaction transactions (presendBody firebaseUid channelId creator)
      attempts) fun data ψ => ψ.holds = some key ∧ (data.canSend = true → ψ.committed = true) := by
  apply follows_withTransaction_reading transactions (P := Holding firebaseUid key)
    (R := fun s ψ => ψ.read = some s)
  · intro ψ r s hψ
    refine ⟨_, guarded_of trivial, ?_, ?_⟩
    · show Holding _ _ (if r.delivered = true then _ else _)
      split
      · exact ⟨hψ.firebaseUid, hψ.holds, hψ.committed⟩
      · exact hψ
    · intro hr
      have hr : r.delivered = true := hr
      show (if r.delivered = true then _ else _ : Phase).read = some s
      rw [if_pos hr]
  · intro ψ s₀ w data hψ hread hbody r s
    obtain ⟨rfl, hrefused⟩ | ⟨p, rfl, huser, hquota, hperiod⟩ := presendBody_spec hbody
    · refine ⟨ψ, guarded_of trivial, fun _ => ⟨⟨hψ.holds, ?_⟩, fun _ => trivial⟩, fun _ => hψ⟩
      intro hsend
      simp [hrefused] at hsend
    · have hpermits : Permits ψ (.commit (some p)) := by
        refine ⟨?_, hψ.committed, huser.trans hψ.firebaseUid.symm, s₀, hread, hquota, hperiod⟩
        rw [hψ.holds]
        rfl
      refine ⟨_, guarded_of hpermits, ?_, ?_⟩
      · intro happlied
        have hnext : ψ.next (transactions.commit (some p)) r s = { ψ with committed := true } :=
          if_pos happlied
        rw [hnext]
        exact ⟨⟨hψ.holds, fun _ => rfl⟩, fun _ => trivial⟩
      · intro happlied
        have hnext : ψ.next (transactions.commit (some p)) r s = ψ :=
          if_neg (by rw [happlied]; exact Bool.false_ne_true)
        rw [hnext]
        exact hψ
  · exact fun _ _ _ => trivial
  · exact hφ

theorem presendLocked_follows (channelId : String) (attempts : ℕ) (hφ : Holding firebaseUid key φ) :
    ChatFollows φ (presendLocked firebaseUid channelId key attempts) fun _ _ => True := by
  apply follows_bind
  apply (resolveCreator_follows firebaseUid channelId hφ).mono
  · intro creator ψ hψ
    split
    · apply run_follows
      · exact ⟨hψ.holds, hψ.committed⟩
      · exact fun r s hr => respond_failed _ _ _
    · apply follows_bind
      apply (transaction_follows channelId _ attempts hψ).mono
      · rintro data χ ⟨hholds, hcommitted⟩
        apply run_follows
        · exact ⟨hholds, hcommitted⟩
        · exact fun r s hr => respond_follows (fun hsend => .inl (hcommitted hsend)) trivial
      · exact fun _ _ _ => trivial
  · exact fun _ _ _ => trivial

theorem duplicate_follows (userCoins : ℤ) (hφ : φ.asked = some key) :
    ChatFollows φ (duplicate key userCoins) fun _ _ => True := by
  apply run_follows
  · exact hφ
  intro r s hr
  have hnext : φ.next (.getLock key) r s = φ.told (s.presendLock key) := if_pos hr
  rw [hnext]
  apply respond_follows
  · intro _
    rcases s.presendLock key with _ | _ | data
    · exact .inr (.inr rfl)
    · exact .inr (.inr rfl)
    · exact .inr (.inl rfl)
  · trivial

theorem presendBillable_follows {user : User} {messageId : Option String} (channelId : String)
    (attempts : ℕ) (hφ : Fresh user.firebaseUid messageId φ)
    (hkey : ∀ id, messageId = some id → key = id) :
    ChatFollows φ (presendBillable user channelId key attempts) fun _ _ => True := by
  apply run_follows
  · refine ⟨hφ.asked, hφ.holds, ?_⟩
    intro id hid
    exact hkey id (hφ.messageId.symm.trans hid)
  intro r s hr
  have hr' : r.delivered = true := (Bool.and_eq_true_iff.1 hr).1
  dsimp only
  split
  · rename_i hfree
    apply presendLocked_follows
    exact ⟨hφ.firebaseUid, if_pos ⟨hr', hfree⟩, hφ.committed⟩
  · exact duplicate_follows _ rfl

theorem preSendMessage_follows (firebaseUid channelId : String) (messageId : Option String)
    (attempts : ℕ) (hφ : Fresh firebaseUid messageId φ) :
    ChatFollows φ (preSendMessage firebaseUid channelId messageId attempts) fun _ _ => True := by
  unfold preSendMessage
  split
  · exact respond_failed _ _ _
  apply follows_tryCatch
  have hcatch : ∀ (e : String) (ψ : Phase), True →
      ChatFollows ψ (respond failedToValidate) fun _ _ => True :=
    fun _ ψ _ => respond_failed ψ _ _
  apply Follows.mono (E := fun _ _ => True) _ (fun _ _ h => h) hcatch
  show ChatFollows φ (presend firebaseUid channelId messageId attempts) fun _ _ => True
  apply run_follows
  · trivial
  intro r s hr
  dsimp only
  split
  · exact respond_failed _ _ _
  · rename_i user huser
    split
    · exact respond_follows trivial trivial
    · apply run_follows
      · trivial
      intro r s hr
      split
      · exact respond_follows trivial trivial
      · have hφ : Fresh user.firebaseUid messageId φ := by
          rw [(Mongo.Unique.mem_of_get huser).2]
          exact hφ
        cases messageId with
        | some id => exact presendBillable_follows _ _ hφ fun _ h => Option.some.inj h
        | none => exact presendBillable_follows _ _ hφ fun _ h => nomatch h

theorem normalizeQuota_follows {quota : Quota} {s : Store} (hφ : φ.read = some s) :
    ChatFollows φ (normalizeQuota quota s.period) fun _ _ => True := by
  simp [normalizeQuota, Permits, run, hφ]

theorem lookupQuota_follows (firebaseUid channelId : String) :
    ChatFollows φ (lookupQuota firebaseUid channelId)
      fun x ψ => ∃ s, ψ.read = some s ∧ x.2 = s.period := by
  apply run_follows
  · trivial
  intro r s hr
  have hread : ∀ (r : Reply) (s : Store), r.ok = true →
      (if r.delivered = true then { φ with read := some s } else φ).read = some s := by
    intro r s hr
    rw [if_pos (Bool.and_eq_true_iff.1 hr).1]
  dsimp only
  split
  · apply run_follows
    · trivial
    · exact fun r s hr => ⟨s, hread r s hr, rfl⟩
  · apply run_follows
    · trivial
    · exact fun r s hr => ⟨s, hread r s hr, rfl⟩

theorem getMessageQuota_follows (firebaseUid channelId : String) :
    ChatFollows φ (getMessageQuota firebaseUid channelId) fun _ _ => True := by
  unfold getMessageQuota
  split
  · exact respond_failed _ _ _
  apply follows_tryCatch
  apply Follows.mono (E := fun _ _ => True) _ (fun _ _ h => h)
    fun _ ψ _ => respond_failed ψ _ _
  show ChatFollows φ (messageQuota firebaseUid channelId) fun _ _ => True
  apply run_follows
  · trivial
  intro r s hr
  dsimp only
  split
  · exact respond_failed _ _ _
  · split
    · exact respond_follows trivial trivial
    · apply run_follows
      · trivial
      intro r s hr
      split
      · exact respond_follows trivial trivial
      · apply follows_bind
        apply (lookupQuota_follows firebaseUid channelId).mono
        · rintro ⟨quota, period⟩ ψ ⟨s, hread, rfl⟩
          cases quota with
          | none => exact respond_follows trivial trivial
          | some quota =>
            apply follows_bind
            apply (normalizeQuota_follows hread).mono
            · exact fun _ _ _ => respond_follows trivial trivial
            · exact fun _ _ _ => trivial
        · exact fun _ _ _ => trivial

theorem prog_follows (q : Request) :
    q.prog.Follows (guarded Permits Phase.next) q.start fun _ _ => True := by
  cases q with
  | preSend firebaseUid channelId messageId attempts =>
    apply Follows.run
    exact preSendMessage_follows firebaseUid channelId messageId attempts ⟨rfl, rfl, rfl, rfl, rfl⟩
  | getQuota firebaseUid channelId =>
    apply Follows.run
    exact getMessageQuota_follows firebaseUid channelId
  | wait | incCoins =>
    apply Follows.run
    intro r s
    refine ⟨_, guarded_of trivial, ?_⟩
    rw [Prog.follows_ret]
    cases r.ok <;> trivial

end Phases

/-! ### The statement -/

abbrev WatchedEvent : Type := Phase × Event Cmd Reply Store

def payment (x : WatchedEvent) : Option Payment :=
  match x.2.cmd with
  | .commit (some w) =>
    if transactions.applied (some w) x.2.ans x.2.before = true then some w else none
  | _ => none

def paysFor (firebaseUid messageId : String) (x : WatchedEvent) : Bool :=
  (payment x).isSome && x.1.firebaseUid == firebaseUid && x.1.messageId == some messageId

def takesSlotOf (pair : String × String) (period : ℤ) (x : WatchedEvent) : Bool :=
  (payment x).any fun w => w.takesSlot && w.pair == pair && w.period == period

def Store.sentIn (s : Store) (pair : String × String) (period : ℤ) : ℕ :=
  match s.quotas.get pair with
  | some q => if q.freeQuotaPeriodStart = some period then q.freeMessagesSent else 0
  | none => 0

def TookSlot (firebaseUid : String) (s t : Store) : Prop :=
  ∃ creator period, s.sentIn (firebaseUid, creator) period < freeMessagesPerCreator ∧
    t.sentIn (firebaseUid, creator) period = s.sentIn (firebaseUid, creator) period + 1

def Debited (firebaseUid : String) (s t : Store) : Prop :=
  ∃ user, s.users.get firebaseUid = some user ∧
    t.users.get firebaseUid = some { user with coins := user.coins - costPerMessage }

def approves (x : WatchedEvent) : Prop :=
  ∃ data : Presend, x.2.cmd = .respond (.presend data) ∧ data.canSend = true

structure PaidFor (l : List WatchedEvent) : Prop where
  approved : Along (fun l₁ x => approves x → ∀ messageId, x.1.messageId = some messageId →
    ∃ y ∈ l₁, paysFor x.1.firebaseUid messageId y = true ∧
      (TookSlot x.1.firebaseUid y.2.before y.2.after ∨
        Debited x.1.firebaseUid y.2.before y.2.after)) l
  once : ∀ firebaseUid messageId, l.countP (paysFor firebaseUid messageId) ≤ 1
  slots : ∀ pair period, l.countP (takesSlotOf pair period) ≤ freeMessagesPerCreator

def LockValue.isResult : LockValue → Bool
  | .pending => false
  | .result _ => true

def Quota.keepsSlots (q loaded : Quota) (period : ℤ) : Bool :=
  q.freeQuotaPeriodStart.all (fun p => decide (p ≤ period)) &&
    (q.freeQuotaPeriodStart != some period || loaded.freeMessagesSent == 0 ||
      q.freeMessagesSent == 0)

/-- The condition on a command, with the phase of its request.  The key of a message that is asked
for again has not expired, and holds a result when it is read; and the plain save of a quota finds
no later period, and no slot taken in its own. -/
def Sound (x : WatchedEvent) : Prop :=
  match x.2.cmd with
  | .setLock key => x.1.messageId.isSome = true → (x.2.before.locks key).isSome = true →
      (x.2.before.presendLock key).isSome = true
  | .getLock key => x.1.messageId.isSome = true →
      (x.2.before.presendLock key).any LockValue.isResult = true
  | .saveQuota loaded period =>
    (x.2.before.quotas.get loaded.pair).all (fun q => q.keepsSlots loaded period) = true
  | _ => True

def Asked (l : List WatchedEvent) (key firebaseUid : String) (messageId : Option String) : Prop :=
  ∃ x ∈ l, x.2.cmd = .setLock key ∧ x.1.firebaseUid = firebaseUid ∧ x.1.messageId = messageId

def askedKey (x : WatchedEvent) : Option String :=
  match x.2.cmd with
  | .setLock key => some key
  | _ => none

def KeysApart (l : List WatchedEvent) : Prop :=
  ∀ x ∈ l, ∀ y ∈ l, (askedKey x).isSome = true → askedKey x = askedKey y →
    x.1.firebaseUid = y.1.firebaseUid ∧ x.1.messageId = y.1.messageId

/-- No quota has been made yet, and no key is set. -/
def Store.initial (now : ℤ) (users : Mongo.Unique User.firebaseUid) : Store where
  now := now
  users := users
  quotas := .empty
  ledger := []
  locks := fun _ => none
  creators := fun _ => none

def watch (s : Store) (ms : List (Move Request Reply)) : Watched Phase Cmd Reply Store :=
  (Watched.start s).play Phase.next Request.start Cmd.exec Request.prog ms

/-! ### Free slots -/

variable {φ : Phase} {c : Cmd} {r : Reply} {s t : Store} {l : List WatchedEvent} {φs : List Phase}

def Store.Timely (s : Store) : Prop :=
  ∀ pair q p, s.quotas.get pair = some q → q.freeQuotaPeriodStart = some p → p ≤ s.period

def Reads (φ : Phase) (t : Store) : Prop := ∀ s, φ.read = some s → s.Timely ∧ s.now ≤ t.now

inductive QuotaEffect (s : Store) : Option Payment → Store → Prop where
  | rest (t : Store) (hquotas : t.quotas = s.quotas) (hnow : s.now ≤ t.now) : QuotaEffect s none t
  | saved (loaded : Quota) (period : ℤ) (hperiod : period ≤ s.period)
    (hq : ∀ q, s.quotas.get loaded.pair = some q →
      (∀ p, q.freeQuotaPeriodStart = some p → p ≤ period) ∧
        (q.freeQuotaPeriodStart = some period →
          loaded.freeMessagesSent = 0 ∨ q.freeMessagesSent = 0)) :
    QuotaEffect s none
      { s with quotas := s.quotas.update loaded.pair fun d => d.saved loaded period }
  | paid (w : Payment) (huser : s.users.get w.user.firebaseUid = some w.user)
    (hquota : s.quotas.get w.pair = w.quota) (hperiod : w.period ≤ s.period)
    (htimely : ∀ q p, w.quota = some q → q.freeQuotaPeriodStart = some p → p ≤ w.period) :
    QuotaEffect s (some w) (w.exec s)

theorem applied_iff {w : Payment} : transactions.applied (some w) r s = true ↔
    r.delivered = true ∧ w.conflicts s = false := by
  show (r.delivered && !w.conflicts s) = true ↔ _
  rw [Bool.and_eq_true, Bool.not_eq_true']

theorem conflicts_eq_false {w : Payment} (h : w.conflicts s = false) :
    s.users.get w.user.firebaseUid = some w.user ∧ s.quotas.get w.pair = w.quota := by
  simpa [Payment.conflicts] using h

theorem payment_commit {w : Payment} (h : transactions.applied (some w) r s = true) :
    payment (φ, ⟨s, .commit (some w), r, t⟩) = some w := if_pos h

theorem payment_lost (h : r.delivered = false) : payment (φ, ⟨s, c, r, t⟩) = none := by
  grind [payment, applied_iff]

theorem keepsSlots_iff {q loaded : Quota} {period : ℤ} : q.keepsSlots loaded period = true ↔
    (∀ p, q.freeQuotaPeriodStart = some p → p ≤ period) ∧
      (q.freeQuotaPeriodStart = some period →
        loaded.freeMessagesSent = 0 ∨ q.freeMessagesSent = 0) := by
  simp [Quota.keepsSlots, Option.all_eq_true, Bool.or_assoc, ← imp_iff_not_or]

theorem period_mono (h : s.now ≤ t.now) : s.period ≤ t.period := getDailyPeriodStart_mono h

theorem exec_quotas (hreads : Reads φ s) (hpermits : Permits φ c)
    (hsound : Sound (φ, ⟨s, c, r, c.exec r s⟩)) :
    QuotaEffect s (payment (φ, ⟨s, c, r, c.exec r s⟩)) (c.exec r s) := by
  cases hr : r.delivered with
  | false =>
    have hexec : c.exec r s = s := if_pos hr
    rw [payment_lost hr, hexec]
    exact .rest s rfl le_rfl
  | true =>
    have hexec : c.exec r s = _ := if_neg (by rw [hr]; exact Bool.noConfusion)
    cases c with
    | commit w =>
      cases w with
      | none =>
        rw [hexec]
        exact .rest s rfl le_rfl
      | some w =>
        have hexec : Cmd.exec (.commit (some w)) r s =
            if w.conflicts s = true then s else w.exec s :=
          hexec
        cases hconflicts : w.conflicts s with
        | true =>
          rw [hconflicts, if_pos rfl] at hexec
          have hpayment : payment (φ, ⟨s, .commit (some w), r, s⟩) = none := by
            apply if_neg
            simp [applied_iff, hconflicts]
          rw [hexec, hpayment]
          exact .rest s rfl le_rfl
        | false =>
          rw [hconflicts, if_neg Bool.false_ne_true] at hexec
          rw [hexec, payment_commit (applied_iff.2 ⟨hr, hconflicts⟩)]
          obtain ⟨huser, hquota⟩ := conflicts_eq_false hconflicts
          obtain ⟨-, -, -, s₀, hread, hquota₀, hperiod⟩ := hpermits
          obtain ⟨htimely, hnow⟩ := hreads s₀ hread
          apply QuotaEffect.paid w huser hquota
          · rw [hperiod]
            exact period_mono hnow
          · intro q p hq hp
            rw [hperiod]
            exact htimely w.pair q p (hquota₀.symm.trans hq) hp
    | saveQuota loaded period =>
      rw [hexec]
      obtain ⟨s₀, hread, hperiod⟩ := hpermits
      apply QuotaEffect.saved loaded period
      · rw [hperiod]
        exact period_mono (hreads s₀ hread).2
      · intro q hq
        exact keepsSlots_iff.1 ((Option.all_eq_true _ _).1 hsound q hq)
    | wait ms =>
      rw [hexec]
      exact .rest _ rfl (le_add_of_nonneg_right (Int.natCast_nonneg ms))
    | setLock key =>
      rw [hexec]
      dsimp only
      split
      · exact .rest _ rfl le_rfl
      · exact .rest _ rfl le_rfl
    | findUser | isVipActive | getLock | delLock | cacheResult | getCreator | watch | cacheCreator
      | findQuotaByChannel | findQuota | snapshot | respond | incCoins =>
      rw [hexec]
      exact .rest _ rfl le_rfl

namespace Payment

variable {w : Payment}

theorem current_pair (hquota : s.quotas.get w.pair = w.quota) : w.current.pair = w.pair := by
  rw [Payment.current, Quota.normalize_pair]
  cases hq : w.quota with
  | none => rfl
  | some q => exact (Mongo.Unique.mem_of_get (hquota.trans hq)).2

def after (w : Payment) : Quota := if w.takesSlot = true then w.freeQuota else w.paidQuota

theorem after_start (w : Payment) : w.after.freeQuotaPeriodStart = some w.period := by
  unfold after
  split
  · exact Quota.normalize_start _ _
  · exact Quota.normalize_start _ _

theorem exec_get (hquota : s.quotas.get w.pair = w.quota) (pair : String × String) :
    (w.exec s).quotas.get pair = if w.pair = pair then some w.after else s.quotas.get pair := by
  have hpair := current_pair hquota
  unfold Payment.exec after
  split
  · rw [Mongo.Unique.get_put]
    show (if w.current.pair = pair then some w.freeQuota else _) = _
    rw [hpair]
  · rw [Mongo.Unique.get_put]
    show (if w.current.pair = pair then some w.paidQuota else _) = _
    rw [hpair]

theorem exec_now (w : Payment) (s : Store) : (w.exec s).now = s.now := by
  unfold Payment.exec
  split <;> rfl

theorem current_sent (hquota : s.quotas.get w.pair = w.quota) :
    w.current.freeMessagesSent = s.sentIn w.pair w.period := by
  unfold Store.sentIn Payment.current Quota.normalize
  rw [hquota]
  cases w.quota with
  | none => exact congrArg Quota.freeMessagesSent (if_pos rfl)
  | some q =>
    show (if q.freeQuotaPeriodStart = some w.period then q else _ : Quota).freeMessagesSent = _
    dsimp only
    split <;> rfl

theorem pays (hquota : s.quotas.get w.pair = w.quota)
    (huser : s.users.get w.user.firebaseUid = some w.user) :
    TookSlot w.user.firebaseUid s (w.exec s) ∨ Debited w.user.firebaseUid s (w.exec s) := by
  by_cases hslot : w.takesSlot = true
  · left
    have hlt : w.current.freeMessagesSent < freeMessagesPerCreator := of_decide_eq_true hslot
    rw [current_sent hquota] at hlt
    refine ⟨w.creatorFirebaseUid, w.period, hlt, ?_⟩
    show (w.exec s).sentIn w.pair w.period = s.sentIn w.pair w.period + 1
    rw [← current_sent hquota, Store.sentIn, exec_get hquota, if_pos rfl]
    dsimp only
    rw [if_pos w.after_start, after, if_pos hslot]
    rfl
  · right
    refine ⟨w.user, huser, ?_⟩
    rw [Payment.exec, if_neg hslot]
    show (s.users.put w.debited).get w.user.firebaseUid = _
    rw [Mongo.Unique.get_put]
    exact if_pos rfl

end Payment

def Taken (n : ℕ) (q : Option Quota) (period : ℤ) : Prop :=
  n ≤ freeMessagesPerCreator ∧ (0 < n → ∃ d p, q = some d ∧ d.freeQuotaPeriodStart = some p ∧
    period ≤ p ∧ (period = p → n ≤ d.freeMessagesSent))

theorem Taken.next {n : ℕ} {q d' : Quota} {period p : ℤ} (h : Taken n (some q) period)
    (hle : ∀ p', q.freeQuotaPeriodStart = some p' → p' ≤ p)
    (hstart : d'.freeQuotaPeriodStart = some p)
    (hsent : 0 < n → q.freeQuotaPeriodStart = some p → period = p → n ≤ d'.freeMessagesSent) :
    Taken n (some d') period := by
  refine ⟨h.1, fun hn => ?_⟩
  obtain ⟨d, p', hd, hp', hperiod, hcount⟩ := h.2 hn
  cases hd
  have hp := hle p' hp'
  refine ⟨d', p, rfl, hstart, hperiod.trans hp, ?_⟩
  intro heq
  have hpp : p' = p := by omega
  rw [hpp] at hp'
  exact hsent hn hp' heq

structure Slots (φs : List Phase) (l : List WatchedEvent) (t : Store) : Prop where
  timely : t.Timely
  reads : ∀ φ ∈ φs, Reads φ t
  taken : ∀ pair period, Taken (l.countP (takesSlotOf pair period)) (t.quotas.get pair) period
  paid : ∀ x ∈ l, ∀ w, payment x = some w → w.user.firebaseUid = x.1.firebaseUid ∧
    (TookSlot x.1.firebaseUid x.2.before x.2.after ∨ Debited x.1.firebaseUid x.2.before x.2.after)

theorem saved_get (s : Store) (loaded : Quota) (period : ℤ) (pair : String × String) :
    (s.quotas.update loaded.pair fun d => d.saved loaded period).get pair =
      if loaded.pair = pair then (s.quotas.get pair).map fun d => d.saved loaded period
      else s.quotas.get pair :=
  Mongo.Unique.get_update (f := fun d : Quota => d.saved loaded period) (fun _ => rfl) _ _

variable {p : Option Payment}

theorem QuotaEffect.now_le (h : QuotaEffect s p t) : s.now ≤ t.now := by
  cases h with
  | rest _ hquotas hnow => exact hnow
  | saved => exact le_rfl
  | paid w => exact (w.exec_now s).ge

theorem QuotaEffect.timely (h : QuotaEffect s p t) (hs : s.Timely) : t.Timely := by
  have hnow := h.now_le
  intro pair q p' hq hp'
  cases h with
  | rest _ hquotas =>
    rw [hquotas] at hq
    exact (hs pair q p' hq hp').trans (period_mono hnow)
  | saved loaded period hperiod =>
    have hq : (s.quotas.update loaded.pair fun d => d.saved loaded period).get pair = some q := hq
    rw [saved_get] at hq
    split at hq
    · obtain ⟨d, -, rfl⟩ := Option.map_eq_some_iff.1 hq
      cases hp'
      exact hperiod
    · exact hs pair q p' hq hp'
  | paid w huser hquota hperiod =>
    rw [Payment.exec_get hquota] at hq
    split at hq
    · cases hq
      rw [w.after_start] at hp'
      cases hp'
      exact hperiod.trans (period_mono hnow)
    · exact (hs pair q p' hq hp').trans (period_mono hnow)

theorem QuotaEffect.taken {n : ℕ} {pair : String × String} {period : ℤ} (h : QuotaEffect s p t)
    (hn : Taken n (s.quotas.get pair) period) :
    Taken (n + (p.any fun w => w.takesSlot && w.pair == pair && w.period == period).toNat)
      (t.quotas.get pair) period := by
  cases h with
  | rest _ hquotas =>
    rw [hquotas]
    exact hn
  | saved loaded p' hp' hq =>
    show Taken n ((s.quotas.update loaded.pair fun d => d.saved loaded p').get pair) period
    rw [saved_get]
    split
    · rename_i hpair
      subst hpair
      cases hget : s.quotas.get loaded.pair with
      | none =>
        rw [hget] at hn
        exact hn
      | some q =>
        rw [hget] at hn
        obtain ⟨hle, hzero⟩ := hq q hget
        apply hn.next hle rfl
        intro hpos hstart hperiod
        obtain ⟨d, p₀, hd, hp₀, -, hcount⟩ := hn.2 hpos
        cases hd
        rw [hstart] at hp₀
        have hcount := hcount (hperiod.trans (Option.some.inj hp₀))
        show n ≤ if loaded.freeMessagesSent = 0 then q.freeMessagesSent else 0
        rcases hzero hstart with h | h
        · rw [if_pos h]
          exact hcount
        · omega
    · exact hn
  | paid w huser hquota hperiod htimely =>
    rw [Payment.exec_get hquota]
    by_cases hpair : w.pair = pair
    · subst hpair
      rw [if_pos rfl]
      -- the slots of this very period are among those of the quota
      have hcurrent : w.period = period → n ≤ w.current.freeMessagesSent := by
        rintro rfl
        rcases Nat.eq_zero_or_pos n with rfl | hpos
        · exact Nat.zero_le _
        · obtain ⟨d, p₀, hd, hp₀, hle, hcount⟩ := hn.2 hpos
          have hp : p₀ = w.period := le_antisymm (htimely d p₀ (hquota.symm.trans hd) hp₀) hle
          have hsent := Payment.current_sent hquota
          simpa [Store.sentIn, hd, (hp ▸ hp₀), hsent] using hcount hp.symm
      by_cases hslot : w.takesSlot = true ∧ w.period = period
      · obtain ⟨hslot, rfl⟩ := hslot
        have hlt : w.current.freeMessagesSent < freeMessagesPerCreator := of_decide_eq_true hslot
        have hn' := hcurrent rfl
        have hafter : w.after.freeMessagesSent = w.current.freeMessagesSent + 1 := by
          rw [Payment.after, if_pos hslot]
          rfl
        rw [Option.any_some, hslot, beq_self_eq_true, beq_self_eq_true]
        show Taken (n + 1) (some w.after) w.period
        refine ⟨by omega, fun _ => ⟨w.after, w.period, rfl, w.after_start, le_rfl, ?_⟩⟩
        intro _
        omega
      · have hany : ((some w).any fun w' =>
            w'.takesSlot && w'.pair == w.pair && w'.period == period) = false := by
          rw [Option.any_some, beq_self_eq_true, Bool.and_true, Bool.eq_false_iff]
          intro h
          rw [Bool.and_eq_true, beq_iff_eq] at h
          exact hslot h
        rw [hany]
        show Taken n (some w.after) period
        refine ⟨hn.1, fun hpos => ?_⟩
        obtain ⟨d, p₀, hd, hp₀, hle, -⟩ := hn.2 hpos
        have hp : p₀ ≤ w.period := htimely d p₀ (hquota.symm.trans hd) hp₀
        refine ⟨w.after, w.period, rfl, w.after_start, hle.trans hp, ?_⟩
        intro heq
        apply (hcurrent heq.symm).trans
        unfold Payment.after
        split
        · exact Nat.le_succ _
        · exact le_rfl
    · rw [if_neg hpair]
      have hne : (w.pair == pair) = false := beq_eq_false_iff_ne.2 hpair
      rw [Option.any_some, hne, Bool.and_false, Bool.false_and]
      exact hn

theorem next_read (φ : Phase) (c : Cmd) (r : Reply) (s : Store) :
    (φ.next c r s).read = φ.read ∨ (φ.next c r s).read = some s := by
  cases c with
  | snapshot | findQuota | findQuotaByChannel =>
    show (if r.delivered = true then _ else _ : Phase).read = _ ∨
      (if r.delivered = true then _ else _ : Phase).read = _
    split
    · exact .inr rfl
    · exact .inl rfl
  | delLock =>
    left
    show (if r.delivered = true then _ else _ : Phase).read = _
    split <;> rfl
  | getLock key =>
    left
    show (if r.ok = true then φ.told (s.presendLock key) else _ : Phase).read = _
    split
    · rcases s.presendLock key with _ | _ | _ <;> rfl
    · rfl
  | commit w =>
    left
    cases w with
    | none => rfl
    | some w =>
      show (if transactions.applied (some w) r s = true then _ else _ : Phase).read = _
      split <;> rfl
  | setLock | findUser | isVipActive | cacheResult | getCreator | watch | cacheCreator | saveQuota
    | respond | wait | incCoins => exact .inl rfl

theorem Slots.step {i : ℕ} (h : Slots φs l s) (hi : φs[i]? = some φ) (hpermits : Permits φ c)
    (hsound : Sound (φ, ⟨s, c, r, c.exec r s⟩)) :
    Slots (φs.set i (φ.next c r s)) (l ++ [(φ, ⟨s, c, r, c.exec r s⟩)]) (c.exec r s) := by
  have hmem : φ ∈ φs := List.mem_of_getElem? hi
  have heffect := exec_quotas (h.reads φ hmem) hpermits hsound
  have hlater : ∀ ψ, Reads ψ s → Reads ψ (c.exec r s) := by
    intro ψ hψ s₀ hs₀
    exact ⟨(hψ s₀ hs₀).1, (hψ s₀ hs₀).2.trans heffect.now_le⟩
  constructor
  · exact heffect.timely h.timely
  · apply forall_set
    · intro ψ hψ
      exact hlater ψ (h.reads ψ hψ)
    · intro s₀ hs₀
      rcases next_read φ c r s with hread | hread
      · rw [hread] at hs₀
        exact hlater φ (h.reads φ hmem) s₀ hs₀
      · rw [hread] at hs₀
        cases hs₀
        exact ⟨h.timely, heffect.now_le⟩
  · intro pair period
    rw [countP_snoc]
    exact heffect.taken (h.taken pair period)
  · apply forall_snoc h.paid
    intro w hw
    have howner : w.user.firebaseUid = φ.firebaseUid := by
      cases c with
      | commit w' =>
        cases w' with
        | none => cases hw
        | some w' =>
          obtain ⟨-, h⟩ := Option.ite_none_right_eq_some.1 hw
          cases h
          exact hpermits.2.2.1
      | findUser | isVipActive | setLock | getLock | delLock | cacheResult | getCreator | watch
        | cacheCreator | findQuotaByChannel | findQuota | saveQuota | snapshot | respond | wait
        | incCoins => cases hw
    refine ⟨howner, ?_⟩
    rw [← howner]
    rw [hw] at heffect
    generalize c.exec r s = t at heffect ⊢
    cases heffect with
    | paid w huser hquota => exact w.pays hquota huser

/-! ### Keys -/

def holdsKey (key : String) (φ : Phase) : Bool := φ.holds == some key && φ.messageId.isSome

def hasPaid (firebaseUid messageId : String) (φ : Phase) : Bool :=
  φ.committed && φ.firebaseUid == firebaseUid && φ.messageId == some messageId

structure Within (l : List WatchedEvent) (φ : Phase) : Prop where
  asked : ∀ key, φ.holds = some key → φ.asked = some key
  known : ∀ key, φ.asked = some key → Asked l key φ.firebaseUid φ.messageId
  named : ∀ key messageId, φ.asked = some key → φ.messageId = some messageId →
    key = messageId
  committed : φ.committed = true → φ.holds.isSome = true
  cached : ∀ data messageId, φ.cached = some data → data.canSend = true →
    φ.messageId = some messageId → 0 < l.countP (paysFor φ.firebaseUid messageId)
  missed : φ.missed = true → φ.messageId = none

structure Locks (φs : List Phase) (l : List WatchedEvent) (t : Store) : Prop where
  within : ∀ φ ∈ φs, Within l φ
  one : ∀ key, φs.countP (holdsKey key) ≤ 1
  free : ∀ key, t.locks key = none → φs.countP (holdsKey key) = 0
  paid : ∀ uid id, l.countP (paysFor uid id) = φs.countP (hasPaid uid id)
  setter : ∀ key, t.locks key ≠ none → ∃ uid id, Asked l key uid id
  /-- A result that approves a message belongs to one that is paid for. -/
  result : ∀ key data e, t.locks key = some ⟨.result data, e⟩ → data.canSend = true →
    ∀ uid id, Asked l key uid (some id) → 0 < l.countP (paysFor uid id)
  approved : Along (fun l₁ x => approves x → ∀ id, x.1.messageId = some id →
    0 < l₁.countP (paysFor x.1.firebaseUid id)) l

variable {x : WatchedEvent} {φ' : Phase} {i : ℕ}

variable {uid : String} {id : Option String}

theorem asked_snoc : Asked (l ++ [x]) key uid id ↔
    Asked l key uid id ∨ x.2.cmd = .setLock key ∧ x.1.firebaseUid = uid ∧ x.1.messageId = id := by
  constructor
  · rintro ⟨y, hy, h⟩
    rcases mem_snoc.1 hy with hy | rfl
    · exact .inl ⟨y, hy, h⟩
    · exact .inr h
  · rintro (⟨y, hy, h⟩ | h)
    · exact ⟨y, List.mem_append_left _ hy, h⟩
    · exact ⟨x, List.mem_concat_self, h⟩

theorem paysFor_pos_snoc {id : String} (h : 0 < l.countP (paysFor uid id)) :
    0 < (l ++ [x]).countP (paysFor uid id) := by
  rw [countP_snoc]
  omega

theorem KeysApart.init (h : KeysApart (l ++ [x])) : KeysApart l :=
  fun y hy z hz => h y (List.mem_append_left _ hy) z (List.mem_append_left _ hz)

theorem KeysApart.eq {uid' : String} {id' : Option String} (h : KeysApart l)
    (ha : Asked l key uid id) (ha' : Asked l key uid' id') : uid = uid' ∧ id = id' := by
  obtain ⟨x, hx, hcmd, rfl, rfl⟩ := ha
  obtain ⟨y, hy, hcmd', rfl, rfl⟩ := ha'
  apply h x hx y hy
  · rw [askedKey, hcmd]
    rfl
  · rw [askedKey, askedKey, hcmd, hcmd']

theorem Within.mono (h : Within l φ) (x : WatchedEvent) : Within (l ++ [x]) φ :=
  { h with
    known := fun key hkey => asked_snoc.2 (.inl (h.known key hkey))
    cached := fun data id hdata hsend hid => paysFor_pos_snoc (h.cached data id hdata hsend hid) }

theorem Locks.paid_pos {φs : List Phase} (h : Locks φs l t) (hφ : φ ∈ φs) {id : String}
    (hcommitted : φ.committed = true) (hid : φ.messageId = some id) :
    0 < l.countP (paysFor φ.firebaseUid id) := by
  rw [h.paid, List.countP_pos_iff]
  refine ⟨φ, hφ, ?_⟩
  simp [hasPaid, hcommitted, hid]

theorem Locks.once {φs : List Phase} (h : Locks φs l t) (uid id : String) :
    l.countP (paysFor uid id) ≤ 1 := by
  rw [h.paid]
  apply le_trans _ (h.one id)
  apply List.countP_mono_left
  intro φ hφ hpaid
  rw [hasPaid, Bool.and_eq_true, Bool.and_eq_true, beq_iff_eq, beq_iff_eq] at hpaid
  obtain ⟨⟨hcommitted, -⟩, hid⟩ := hpaid
  obtain ⟨key, hkey⟩ := Option.isSome_iff_exists.1 ((h.within φ hφ).committed hcommitted)
  have hname := (h.within φ hφ).named key id ((h.within φ hφ).asked key hkey) hid
  rw [holdsKey, hkey, hid, hname, beq_self_eq_true]
  rfl

theorem Locks.move {φs : List Phase} (h : Locks φs l s) (hi : φs[i]? = some φ)
    (hwithin : Within (l ++ [x]) φ')
    (hpaid : ∀ uid id, (hasPaid uid id φ).toNat + (paysFor uid id x).toNat =
      (hasPaid uid id φ').toNat)
    (hone : ∀ key, (φs.set i φ').countP (holdsKey key) ≤ 1)
    (hfree : ∀ key, t.locks key = none → (φs.set i φ').countP (holdsKey key) = 0)
    (hsetter : ∀ key, t.locks key ≠ none → ∃ uid id, Asked (l ++ [x]) key uid id)
    (hresult : ∀ key data e, t.locks key = some ⟨.result data, e⟩ → data.canSend = true →
      ∀ uid id, Asked (l ++ [x]) key uid (some id) → 0 < l.countP (paysFor uid id))
    (happroved : approves x → ∀ id, x.1.messageId = some id →
      0 < l.countP (paysFor x.1.firebaseUid id)) :
    Locks (φs.set i φ') (l ++ [x]) t := by
  constructor
  · apply forall_set
    · intro ψ hψ
      exact (h.within ψ hψ).mono x
    · exact hwithin
  · exact hone
  · exact hfree
  · intro uid id
    have hset := countP_phases_set (ψ := φ') hi (hasPaid uid id)
    have hl := h.paid uid id
    have hx := hpaid uid id
    rw [countP_snoc]
    omega
  · exact hsetter
  · exact fun key data e hkey hsend uid id hA =>
      paysFor_pos_snoc (hresult key data e hkey hsend uid id hA)
  · exact along_snoc.2 ⟨h.approved, happroved⟩

theorem countP_holdsKey {φs : List Phase} {χ : Phase} (hi : φs[i]? = some φ)
    (hholds : holdsKey key χ = holdsKey key φ) :
    (φs.set i χ).countP (holdsKey key) = φs.countP (holdsKey key) := by
  have hset := countP_phases_set (ψ := χ) hi (holdsKey key)
  rw [hholds] at hset
  omega

theorem asked_of_snoc (hcmd : x.2.cmd ≠ .setLock key) (h : Asked (l ++ [x]) key uid id) :
    Asked l key uid id := by
  rcases asked_snoc.1 h with h | h
  · exact h
  · exact (hcmd h.1).elim

theorem Locks.keep {φs : List Phase} {χ : Phase} (h : Locks φs l s) (hi : φs[i]? = some φ)
    (hlocks : t.locks = s.locks) (hcmd : ∀ key, x.2.cmd ≠ .setLock key)
    (hholds : ∀ key, holdsKey key χ = holdsKey key φ) (hwithin : Within (l ++ [x]) χ)
    (hpaid : ∀ uid id, (hasPaid uid id φ).toNat + (paysFor uid id x).toNat =
      (hasPaid uid id χ).toNat)
    (happroved : approves x → ∀ id, x.1.messageId = some id →
      0 < l.countP (paysFor x.1.firebaseUid id)) :
    Locks (φs.set i χ) (l ++ [x]) t := by
  apply h.move hi hwithin hpaid
  · intro key
    rw [countP_holdsKey hi (hholds key)]
    exact h.one key
  · intro key hkey
    rw [countP_holdsKey hi (hholds key)]
    exact h.free key (hlocks ▸ hkey)
  · intro key hkey
    obtain ⟨uid, id, hasked⟩ := h.setter key (hlocks ▸ hkey)
    exact ⟨uid, id, asked_snoc.2 (.inl hasked)⟩
  · intro key data e hkey hsend uid id hA
    exact h.result key data e (hlocks ▸ hkey) hsend uid id (asked_of_snoc (hcmd key) hA)
  · exact happroved

theorem Locks.rest {φs : List Phase} (h : Locks φs l s) (hi : φs[i]? = some φ)
    (read : Option Store) (hlocks : t.locks = s.locks) (hcmd : ∀ key, x.2.cmd ≠ .setLock key)
    (hpays : ∀ uid id, paysFor uid id x = false) (happroves : ¬ approves x) :
    Locks (φs.set i { φ with read := read }) (l ++ [x]) t := by
  have hφ := (h.within φ (List.mem_of_getElem? hi)).mono x
  apply h.keep (χ := { φ with read := read }) hi hlocks hcmd
  · exact fun _ => rfl
  · exact ⟨hφ.asked, hφ.known, hφ.named, hφ.committed, hφ.cached, hφ.missed⟩
  · intro uid id
    rw [hpays]
    rfl
  · exact fun hx => (happroves hx).elim

def Cmd.onKey : Cmd → Bool
  | .setLock _ | .delLock _ | .cacheResult .. => true
  | _ => false

theorem exec_locks (hc : c.onKey = false) (r : Reply) (s : Store) :
    (c.exec r s).locks = s.locks := by
  cases hr : r.delivered with
  | false =>
    have hexec : c.exec r s = s := if_pos hr
    rw [hexec]
  | true =>
    have hexec : c.exec r s = _ := if_neg (by rw [hr]; exact Bool.noConfusion)
    rw [hexec]
    cases c with
    | commit w =>
      cases w with
      | none => rfl
      | some w =>
        show (if w.conflicts s = true then s else w.exec s).locks = _
        split
        · rfl
        · unfold Payment.exec
          split <;> rfl
    | setLock | delLock | cacheResult => cases hc
    | findUser | isVipActive | getLock | getCreator | watch | cacheCreator | findQuotaByChannel
      | findQuota | saveQuota | snapshot | respond | wait | incCoins => rfl

theorem exec_lost (h : r.delivered = false) : c.exec r s = s := if_pos h

theorem setLock_locks (s : Store) (key key' : String) (value : LockValue) :
    (s.setLock key value).locks key' =
      if key' = key then some ⟨value, s.now + presendLockTtl * 1000⟩ else s.locks key' :=
  Function.update_apply _ _ _ _

theorem delLock_locks (s : Store) (key key' : String) :
    (s.delLock key).locks key' = if key' = key then none else s.locks key' :=
  Function.update_apply _ _ _ _

theorem locks_of_presendLock {value : LockValue} (h : s.presendLock key = some value) :
    ∃ e, s.locks key = some ⟨value, e⟩ := by
  obtain ⟨⟨v, e⟩, hentry, rfl⟩ := Option.map_eq_some_iff.1 h
  exact ⟨e, (Option.filter_eq_some_iff.1 hentry).1⟩

theorem Locks.setLock {φs : List Phase} (h : Locks φs l s) (hi : φs[i]? = some φ)
    (hpermits : Permits φ (.setLock key))
    (hsound : φ.messageId.isSome = true → (s.locks key).isSome = true →
      (s.presendLock key).isSome = true) (hapart : KeysApart (l ++ [x])) (hphase : x.1 = φ)
    (hcmd : x.2.cmd = .setLock key) (hpays : ∀ uid id, paysFor uid id x = false) :
    Locks (φs.set i (φ.next (.setLock key) r s)) (l ++ [x]) (Cmd.exec (.setLock key) r s) := by
  obtain ⟨hasked, hholds, hnamed⟩ := hpermits
  have hφ := (h.within φ (List.mem_of_getElem? hi)).mono x
  have hnone : ∀ k, holdsKey k φ = false := by
    intro k
    rw [holdsKey, hholds]
    rfl
  have hnew : Asked (l ++ [x]) key φ.firebaseUid φ.messageId :=
    asked_snoc.2 (.inr ⟨hcmd, by rw [hphase], by rw [hphase]⟩)
  have hwithin : ∀ holds, (∀ k, holds = some k → k = key) →
      (φ.committed = true → holds.isSome = true) →
      Within (l ++ [x]) { φ with asked := some key, holds := holds } := by
    intro holds hkey hcommitted
    refine ⟨fun k hk => congrArg some (hkey k hk).symm, ?_, ?_, hcommitted, hφ.cached, hφ.missed⟩
    · intro k hk
      cases hk
      exact hnew
    · intro k id hk hid
      cases hk
      exact hnamed id hid
  have hpaid : ∀ (uid id : String) (holds : Option String),
      (hasPaid uid id φ).toNat + (paysFor uid id x).toNat =
        (hasPaid uid id { φ with asked := some key, holds := holds }).toNat := by
    intro uid id holds
    rw [hpays]
    rfl
  have happroves : ¬ approves x := by
    rintro ⟨data, hresp, -⟩
    simp [hcmd] at hresp
  have hold : ∀ {k uid : String} {id : Option String}, k ≠ key → Asked (l ++ [x]) k uid id →
      Asked l k uid id := by
    intro k uid id hne hA
    apply asked_of_snoc _ hA
    rw [hcmd]
    exact fun heq => hne (Cmd.setLock.inj heq).symm
  by_cases hacquired : r.delivered = true ∧ s.presendLock key = none
  · have hexec : Cmd.exec (.setLock key) r s = s.setLock key .pending := by
      show (if r.delivered = false then s else if s.presendLock key = none then _ else s) = _
      rw [if_neg (by rw [hacquired.1]; exact Bool.noConfusion), if_pos hacquired.2]
    have hnext : φ.next (.setLock key) r s = { φ with asked := some key, holds := some key } := by
      show ({ φ with asked := some key, holds := if _ then _ else _ } : Phase) = _
      rw [if_pos hacquired]
    rw [hnext]
    have hcount := fun k => countP_phases_set (ψ := { φ with
      asked := some key, holds := some key }) hi (holdsKey k)
    have hother : ∀ k, k ≠ key →
        holdsKey k { φ with asked := some key, holds := some key } = false := by
      intro k hne
      rw [holdsKey, Bool.and_eq_false_iff, beq_eq_false_iff_ne]
      exact .inl fun heq => hne (Option.some.inj heq).symm
    apply h.move hi (hwithin _ (fun _ hk => (Option.some.inj hk).symm) fun _ => rfl)
      (fun uid id => hpaid uid id _)
    · intro k
      have hk := hcount k
      rw [hnone] at hk
      -- the key of a message that is asked for is free
      by_cases hown : k = key ∧ φ.messageId.isSome = true
      · obtain ⟨rfl, hsome⟩ := hown
        have hlocks : s.locks k = none := by
          by_contra hne
          have halive := hsound hsome (Option.isSome_iff_ne_none.2 hne)
          simp [hacquired.2] at halive
        have hzero := h.free k hlocks
        have hle := Bool.toNat_le (holdsKey k { φ with asked := some k, holds := some k })
        omega
      · have hfalse : holdsKey k { φ with asked := some key, holds := some key } = false := by
          by_cases hkey : k = key
          · rw [holdsKey, Bool.and_eq_false_iff]
            exact .inr (Bool.eq_false_iff.2 fun hsome => hown ⟨hkey, hsome⟩)
          · exact hother k hkey
        rw [hfalse] at hk
        have hone := h.one k
        omega
    · intro k hk
      rw [hexec, setLock_locks] at hk
      split at hk
      · cases hk
      · rename_i hne
        have hzero := h.free k hk
        have hset := hcount k
        rw [hnone, hother k hne] at hset
        omega
    · intro k hk
      by_cases hne : k = key
      · rw [hne]
        exact ⟨_, _, hnew⟩
      · rw [hexec, setLock_locks, if_neg hne] at hk
        obtain ⟨uid, id, hA⟩ := h.setter k hk
        exact ⟨uid, id, asked_snoc.2 (.inl hA)⟩
    · intro k data e hk hsend uid id hA
      rw [hexec, setLock_locks] at hk
      split at hk
      · cases hk
      · rename_i hne
        exact h.result k data e hk hsend uid id (hold hne hA)
    · exact fun hx => (happroves hx).elim
  · have hexec : Cmd.exec (.setLock key) r s = s := by
      show (if r.delivered = false then s else if s.presendLock key = none then _ else s) = _
      split
      · rfl
      · rename_i hr
        rw [Bool.not_eq_false] at hr
        exact if_neg fun hnone => hacquired ⟨hr, hnone⟩
    have hnext : φ.next (.setLock key) r s = { φ with asked := some key, holds := φ.holds } := by
      show ({ φ with asked := some key, holds := if _ then _ else _ } : Phase) = _
      rw [if_neg hacquired]
    rw [hnext]
    apply h.move hi
      (hwithin _ (fun k hk => by rw [hholds] at hk; cases hk)
        (h.within φ (List.mem_of_getElem? hi)).committed) (fun uid id => hpaid uid id _)
    · intro k
      rw [countP_holdsKey (χ := { φ with asked := some key, holds := φ.holds }) hi rfl]
      exact h.one k
    · intro k hk
      rw [hexec] at hk
      rw [countP_holdsKey (χ := { φ with asked := some key, holds := φ.holds }) hi rfl]
      exact h.free k hk
    · intro k hk
      rw [hexec] at hk
      obtain ⟨uid, id, hA⟩ := h.setter k hk
      exact ⟨uid, id, asked_snoc.2 (.inl hA)⟩
    · intro k data e hk hsend uid id hA
      rw [hexec] at hk
      -- whoever has set the key is the same user, with the same message
      obtain ⟨uid', id', hA'⟩ := h.setter k (by rw [hk]; exact fun h => nomatch h)
      obtain ⟨rfl, rfl⟩ := hapart.eq (asked_snoc.2 (.inl hA')) hA
      exact h.result k data e hk hsend uid' id hA'
    · exact fun hx => (happroves hx).elim

theorem Locks.delLock {φs : List Phase} (h : Locks φs l s) (hi : φs[i]? = some φ)
    (hpermits : Permits φ (.delLock key)) (hapart : KeysApart l) (hcmd : x.2.cmd = .delLock key)
    (hpays : ∀ uid id, paysFor uid id x = false) :
    Locks (φs.set i { φ with holds := none }) (l ++ [x]) (s.delLock key) := by
  obtain ⟨hholds, hcommitted⟩ := hpermits
  have hmem := List.mem_of_getElem? hi
  have hφ := (h.within φ hmem).mono x
  have hcount := fun k => countP_phases_set (ψ := { φ with holds := none }) hi (holdsKey k)
  have hnone : ∀ k, holdsKey k { φ with holds := none } = false := fun _ => rfl
  have hne : ∀ k, x.2.cmd ≠ .setLock k := by
    intro k hk
    simp [hcmd] at hk
  apply h.move hi
  · refine ⟨fun k hk => (nomatch hk), hφ.known, hφ.named, ?_, hφ.cached, hφ.missed⟩
    intro htrue
    simp [hcommitted] at htrue
  · intro uid id
    rw [hpays]
    rfl
  · intro k
    have hk := hcount k
    rw [hnone, Bool.toNat_false] at hk
    have hone := h.one k
    omega
  · intro k hk
    have hset := hcount k
    rw [hnone, Bool.toNat_false] at hset
    by_cases hkey : k = key
    · subst hkey
      by_cases hsome : φ.messageId.isSome = true
      · -- the request was the only holder
        have htrue : holdsKey k φ = true := by
          rw [holdsKey, hholds, hsome, beq_self_eq_true]
          rfl
        have hone := h.one k
        rw [htrue, Bool.toNat_true] at hset
        omega
      · -- no request with a message id holds the key of one without
        have hzero : φs.countP (holdsKey k) = 0 := by
          rw [List.countP_eq_zero]
          intro ψ hψ hψk
          rw [holdsKey, Bool.and_eq_true, beq_iff_eq] at hψk
          have hA := (h.within ψ hψ).known k ((h.within ψ hψ).asked k hψk.1)
          have hB := (h.within φ hmem).known k ((h.within φ hmem).asked k hholds)
          obtain ⟨-, hid⟩ := hapart.eq hA hB
          rw [hid] at hψk
          exact hsome hψk.2
        omega
    · rw [delLock_locks, if_neg hkey] at hk
      have hzero := h.free k hk
      omega
  · intro k hk
    rw [delLock_locks] at hk
    split at hk
    · exact (hk rfl).elim
    · obtain ⟨uid, id, hA⟩ := h.setter k hk
      exact ⟨uid, id, asked_snoc.2 (.inl hA)⟩
  · intro k data e hk hsend uid id hA
    rw [delLock_locks] at hk
    split at hk
    · cases hk
    · exact h.result k data e hk hsend uid id (asked_of_snoc (hne k) hA)
  · rintro ⟨data, hresp, -⟩
    simp [hcmd] at hresp

theorem Locks.cacheResult {φs : List Phase} {data : Presend} (h : Locks φs l s)
    (hi : φs[i]? = some φ) (hpermits : Permits φ (.cacheResult key data)) (hapart : KeysApart l)
    (hcmd : x.2.cmd = .cacheResult key data) (hpays : ∀ uid id, paysFor uid id x = false) :
    Locks (φs.set i φ) (l ++ [x]) (s.setLock key (.result data)) := by
  obtain ⟨hholds, hcommitted⟩ := hpermits
  have hmem := List.mem_of_getElem? hi
  have hA := (h.within φ hmem).known key ((h.within φ hmem).asked key hholds)
  have hne : ∀ k, x.2.cmd ≠ .setLock k := by
    intro k hk
    simp [hcmd] at hk
  apply h.move hi ((h.within φ hmem).mono x)
  · intro uid id
    rw [hpays]
    rfl
  · intro k
    rw [countP_holdsKey hi rfl]
    exact h.one k
  · intro k hk
    rw [countP_holdsKey hi rfl]
    rw [setLock_locks] at hk
    split at hk
    · cases hk
    · exact h.free k hk
  · intro k hk
    rw [setLock_locks] at hk
    split at hk
    · rename_i hkey
      rw [hkey]
      exact ⟨_, _, asked_snoc.2 (.inl hA)⟩
    · obtain ⟨uid, id, hA'⟩ := h.setter k hk
      exact ⟨uid, id, asked_snoc.2 (.inl hA')⟩
  · intro k data' e hk hsend uid id hA'
    have hA' := asked_of_snoc (hne k) hA'
    rw [setLock_locks] at hk
    split at hk
    · rename_i hkey
      subst hkey
      obtain rfl : data = data' :=
        LockValue.result.inj (congrArg Entry.value (Option.some.inj hk))
      obtain ⟨rfl, hid⟩ := hapart.eq hA hA'
      exact h.paid_pos hmem (hcommitted hsend) hid
    · exact h.result k data' e hk hsend uid id hA'
  · rintro ⟨data, hresp, -⟩
    simp [hcmd] at hresp

theorem Locks.getLock {φs : List Phase} (h : Locks φs l s) (hi : φs[i]? = some φ)
    (hasked : φ.asked = some key)
    (hsound : φ.messageId.isSome = true → (s.presendLock key).any LockValue.isResult = true)
    (hcmd : x.2.cmd = .getLock key) (hpays : ∀ uid id, paysFor uid id x = false) :
    Locks (φs.set i (φ.told (s.presendLock key))) (l ++ [x]) s := by
  have hmem := List.mem_of_getElem? hi
  have hφ := (h.within φ hmem).mono x
  have hne : ∀ k, x.2.cmd ≠ .setLock k := by
    intro k hk
    simp [hcmd] at hk
  have happroves : approves x → ∀ id, x.1.messageId = some id →
      0 < l.countP (paysFor x.1.firebaseUid id) := by
    rintro ⟨data, hresp, -⟩
    simp [hcmd] at hresp
  have hmissed : (s.presendLock key).any LockValue.isResult = false → φ.messageId = none := by
    intro hnone
    cases hid : φ.messageId with
    | none => rfl
    | some id =>
      simp [hsound (by rw [hid]; rfl)] at hnone
  cases hvalue : s.presendLock key with
  | none =>
    apply h.keep (χ := { φ with missed := true }) hi rfl hne fun _ => rfl
    · exact { hφ with missed := fun _ => hmissed (by rw [hvalue]; rfl) }
    · intro uid id
      rw [hpays]
      rfl
    · exact happroves
  | some value =>
    cases value with
    | pending =>
      apply h.keep (χ := { φ with missed := true }) hi rfl hne fun _ => rfl
      · exact { hφ with missed := fun _ => hmissed (by rw [hvalue]; rfl) }
      · intro uid id
        rw [hpays]
        rfl
      · exact happroves
    | result data =>
      apply h.keep (χ := { φ with cached := some data }) hi rfl hne fun _ => rfl
      · refine { hφ with cached := fun data' id hdata hsend hid => ?_ }
        cases hdata
        obtain ⟨e, hentry⟩ := locks_of_presendLock hvalue
        have hA := (h.within φ hmem).known key hasked
        rw [hid] at hA
        exact paysFor_pos_snoc (h.result key data e hentry hsend _ _ hA)
      · intro uid id
        rw [hpays]
        rfl
      · exact happroves

theorem Locks.pay {φs : List Phase} (h : Locks φs l s) (hi : φs[i]? = some φ)
    (hholds : φ.holds.isSome = true) (hcommitted : φ.committed = false)
    (hlocks : t.locks = s.locks) (hne : ∀ k, x.2.cmd ≠ .setLock k) (hphase : x.1 = φ)
    (hpayment : (payment x).isSome = true) (happroves : ¬ approves x) :
    Locks (φs.set i { φ with committed := true }) (l ++ [x]) t := by
  have hφ := (h.within φ (List.mem_of_getElem? hi)).mono x
  apply h.keep (χ := { φ with committed := true }) hi hlocks hne fun _ => rfl
  · exact { hφ with committed := fun _ => hholds }
  · intro uid id
    simp [hasPaid, paysFor, hcommitted, hpayment, hphase]
  · exact fun hx => (happroves hx).elim

theorem Locks.respond {φs : List Phase} (h : Locks φs l s) (hi : φs[i]? = some φ)
    {response : Response} (hpermits : Permits φ (.respond response)) (hphase : x.1 = φ)
    (hcmd : x.2.cmd = .respond response) (hpays : ∀ uid id, paysFor uid id x = false) :
    Locks (φs.set i φ) (l ++ [x]) s := by
  have hmem := List.mem_of_getElem? hi
  apply h.keep hi rfl
  · intro k hk
    simp [hcmd] at hk
  · exact fun _ => rfl
  · exact (h.within φ hmem).mono x
  · intro uid id
    rw [hpays]
    rfl
  · rintro ⟨data, hresp, hsend⟩ id hid
    obtain rfl := Cmd.respond.inj (hcmd.symm.trans hresp)
    rw [hphase] at hid ⊢
    rcases hpermits hsend with hcommitted | hcached | hmissed
    · exact h.paid_pos hmem hcommitted hid
    · exact (h.within φ hmem).cached data id hcached hsend hid
    · simp [(h.within φ hmem).missed hmissed] at hid

theorem Locks.step {φs : List Phase} (h : Locks φs l s) (hi : φs[i]? = some φ)
    (hpermits : Permits φ c) (hsound : Sound (φ, ⟨s, c, r, c.exec r s⟩))
    (hapart : KeysApart (l ++ [(φ, ⟨s, c, r, c.exec r s⟩)])) :
    Locks (φs.set i (φ.next c r s)) (l ++ [(φ, ⟨s, c, r, c.exec r s⟩)]) (c.exec r s) := by
  have hlocks : c.onKey = false → (c.exec r s).locks = s.locks := fun hc => exec_locks hc r s
  have hother : ∀ (read : Option Store) (t : Store), (∀ key, c ≠ .setLock key) →
      (∀ response, c ≠ .respond response) → payment (φ, ⟨s, c, r, t⟩) = none →
      t.locks = s.locks →
      Locks (φs.set i { φ with read := read }) (l ++ [(φ, ⟨s, c, r, t⟩)]) t := by
    intro read t hne hresp hpayment hlocks
    apply h.rest hi read hlocks hne
    · intro uid id
      rw [paysFor, hpayment]
      rfl
    · rintro ⟨data, hcmd, -⟩
      exact hresp _ hcmd
  cases c with
  | setLock key => exact h.setLock hi hpermits hsound hapart rfl rfl fun _ _ => rfl
  | delLock key =>
    show Locks (φs.set i (if r.delivered = true then _ else _)) _
      (if r.delivered = false then s else s.delLock key)
    cases hr : r.delivered with
    | true =>
      exact h.delLock hi hpermits hapart.init rfl fun _ _ => rfl
    | false =>
      have hexec : Cmd.exec (.delLock key) r s = s := exec_lost hr
      rw [hexec]
      exact hother φ.read s (fun _ h => nomatch h) (fun _ h => nomatch h) rfl rfl
  | cacheResult key data =>
    have hexec : Cmd.exec (.cacheResult key data) r s =
      if r.delivered = false then s else s.setLock key (.result data) := rfl
    show Locks (φs.set i φ) _ _
    rw [hexec]
    split
    · exact hother φ.read s (fun _ h => nomatch h) (fun _ h => nomatch h) rfl rfl
    · exact h.cacheResult hi hpermits hapart.init rfl fun _ _ => rfl
  | getLock key =>
    have hexec : Cmd.exec (.getLock key) r s = s := ite_self s
    rw [hexec]
    show Locks (φs.set i (if r.ok = true then φ.told (s.presendLock key) else φ)) _ s
    split
    · exact h.getLock hi hpermits hsound rfl fun _ _ => rfl
    · exact hother φ.read s (fun _ h => nomatch h) (fun _ h => nomatch h) rfl rfl
  | commit w =>
    cases w with
    | none => exact hother φ.read _ (fun _ h => nomatch h) (fun _ h => nomatch h) rfl (hlocks rfl)
    | some w =>
      show Locks (φs.set i (if transactions.applied (some w) r s = true then _ else _)) _ _
      split
      · rename_i happlied
        apply h.pay hi hpermits.1 hpermits.2.1 (hlocks rfl)
        · intro k hk
          cases hk
        · rfl
        · rw [payment_commit happlied]
          rfl
        · rintro ⟨data, hcmd, -⟩
          cases hcmd
      · rename_i happlied
        exact hother φ.read _ (fun _ h => nomatch h) (fun _ h => nomatch h) (if_neg happlied)
          (hlocks rfl)
  | respond response =>
    have hexec : Cmd.exec (.respond response) r s = s := ite_self s
    rw [hexec]
    exact h.respond hi hpermits rfl rfl fun _ _ => rfl
  | snapshot | findQuota | findQuotaByChannel =>
    show Locks (φs.set i (if r.delivered = true then { φ with read := some s } else φ)) _ _
    split
    · exact hother (some s) _ (fun _ h => nomatch h) (fun _ h => nomatch h) rfl (hlocks rfl)
    · exact hother φ.read _ (fun _ h => nomatch h) (fun _ h => nomatch h) rfl (hlocks rfl)
  | findUser | isVipActive | getCreator | watch | cacheCreator | saveQuota | wait | incCoins =>
    exact hother φ.read _ (fun _ h => nomatch h) (fun _ h => nomatch h) rfl (hlocks rfl)

/-! ### Whole runs -/

theorem Locks.spawn {φs : List Phase} (h : Locks φs l s) (uid : String) (id : Option String) :
    Locks (φs ++ [Phase.start uid id]) l s := by
  have hcount : ∀ P : Phase → Bool, P (Phase.start uid id) = false →
      (φs ++ [Phase.start uid id]).countP P = φs.countP P := by
    intro P hP
    rw [countP_snoc, hP]
    rfl
  refine { h with within := ?_, one := ?_, free := ?_, paid := ?_ }
  · apply forall_snoc h.within
    exact ⟨fun _ h => (nomatch h), fun _ h => (nomatch h), fun _ _ h => (nomatch h),
      fun h => (nomatch h), fun _ _ h => (nomatch h), fun h => (nomatch h)⟩
  · intro key
    rw [hcount _ rfl]
    exact h.one key
  · intro key hkey
    rw [hcount _ rfl]
    exact h.free key hkey
  · intro uid' id'
    rw [hcount _ rfl]
    exact h.paid uid' id'

theorem Slots.spawn {φs : List Phase} (h : Slots φs l s) (uid : String) (id : Option String) :
    Slots (φs ++ [Phase.start uid id]) l s := by
  refine { h with reads := ?_ }
  exact forall_snoc h.reads (fun _ h => nomatch h)

theorem start_eq (q : Request) : ∃ uid id, q.start = Phase.start uid id := by
  cases q <;> exact ⟨_, _, rfl⟩

/-- **Every message that is approved is paid for, once**, in every run all of whose commands meet
the condition, and in which no two users have sent one message id. -/
theorem paidFor_run (now : ℤ) (users : Mongo.Unique User.firebaseUid)
    (ms : List (Move Request Reply)) (hsound : ∀ x ∈ (watch (.initial now users) ms).log, Sound x)
    (hapart : KeysApart (watch (.initial now users) ms).log) :
    PaidFor (watch (.initial now users) ms).log := by
  have hslots : Slots [] [] (Store.initial now users) :=
    ⟨fun _ _ _ h => (nomatch h), fun _ h => (nomatch h),
      fun _ _ => ⟨Nat.zero_le _, fun h => (nomatch h)⟩, fun _ h => (nomatch h)⟩
  have hlocks : Locks [] [] (Store.initial now users) :=
    ⟨fun _ h => (nomatch h), fun _ => Nat.zero_le _, fun _ _ => rfl, fun _ _ => rfl,
      fun _ h => (h rfl).elim, fun _ _ _ h => (nomatch h), along_nil⟩
  obtain ⟨-, -, hrun⟩ := Watched.play_phased
    (fun φs l t => Slots φs l t ∧ (KeysApart l → Locks φs l t)) Sound prog_follows
    ⟨hslots, fun _ => hlocks⟩
    (fun φs l t q h => by
      obtain ⟨uid, id, hstart⟩ := start_eq q
      rw [hstart]
      exact ⟨h.1.spawn uid id, fun hapart => (h.2 hapart).spawn uid id⟩)
    (fun φs l t i φ c r h hi hpermits hsound => ⟨h.1.step hi hpermits hsound,
      fun hapart => (h.2 hapart.init).step hi hpermits hsound hapart⟩) ms hsound
  obtain ⟨hslots, hlocks⟩ := hrun
  have hlocks := hlocks hapart
  constructor
  · intro l₁ x l₂ hl happroves id hid
    obtain ⟨y, hy, hpays⟩ := List.countP_pos_iff.1 (hlocks.approved l₁ x l₂ hl happroves id hid)
    refine ⟨y, hy, hpays, ?_⟩
    rw [paysFor, Bool.and_eq_true, Bool.and_eq_true, beq_iff_eq] at hpays
    obtain ⟨w, hw⟩ := Option.isSome_iff_exists.1 hpays.1.1
    have hl : (watch (.initial now users) ms).log = l₁ ++ x :: l₂ := hl
    have hmem : y ∈ (watch (.initial now users) ms).log := by
      rw [hl]
      exact List.mem_append_left _ hy
    rw [← hpays.1.2]
    exact (hslots.paid y hmem w hw).2
  · exact hlocks.once
  · exact fun pair period => (hslots.taken pair period).1

/-! ### Runs of two users -/

instance : DecidablePred Sound := fun x => by
  unfold Sound
  split <;> infer_instance

instance (l : List WatchedEvent) : Decidable (KeysApart l) :=
  inferInstanceAs (Decidable (∀ x ∈ l, ∀ y ∈ l, _ = true → _ = _ → _ = _ ∧ _ = _))

def approvesTo (firebaseUid messageId : String) (x : WatchedEvent) : Bool :=
  match x.2.cmd with
  | .respond (.presend data) =>
    data.canSend && x.1.firebaseUid == firebaseUid && x.1.messageId == some messageId
  | _ => false

theorem not_paidFor (uid id : String) (happroves : l.any (approvesTo uid id) = true)
    (hunpaid : l.countP (paysFor uid id) = 0) : ¬ PaidFor l := by
  intro h
  obtain ⟨⟨φ, e⟩, hx, happroves⟩ := List.any_eq_true.1 happroves
  obtain ⟨l₁, l₂, hl⟩ := List.append_of_mem hx
  obtain ⟨s, c, r, t⟩ := e
  have hx : approves (φ, ⟨s, c, r, t⟩) ∧ φ.firebaseUid = uid ∧ φ.messageId = some id := by
    unfold approvesTo at happroves
    dsimp only at happroves
    split at happroves
    · rename_i data
      rw [Bool.and_eq_true, Bool.and_eq_true, beq_iff_eq, beq_iff_eq] at happroves
      exact ⟨⟨data, rfl, happroves.1.1⟩, happroves.1.2, happroves.2⟩
    · cases happroves
  obtain ⟨hx, rfl, hid⟩ := hx
  obtain ⟨y, hy, hpays, -⟩ := h.approved l₁ _ l₂ hl hx id hid
  rw [List.countP_eq_zero] at hunpaid
  apply hunpaid y _ hpays
  rw [hl]
  exact List.mem_append_left _ hy

def twoUsers : Mongo.Unique User.firebaseUid where
  rows := [⟨"ua", "user", 50⟩, ⟨"ub", "user", 50⟩]
  nodup := by decide

/-- A time of day, on the first of January 1970. -/
def noon : ℤ := 12 * 60 * 60 * 1000

def sample (ms : List (Move Request Reply)) : List WatchedEvent :=
  (watch (.initial noon twoUsers) ms).log

/-- The next commands of a request, all of which are carried out and answered. -/
def take (i n : ℕ) : List (Move Request Reply) :=
  List.replicate n (.step i ⟨true, true, false, false, ["creator", "ua"]⟩)

def send (firebaseUid messageId : String) : Move Request Reply :=
  .spawn (.preSend firebaseUid "channel" (some messageId) 3)

def sentAgain : List (Move Request Reply) :=
  send "ua" "m1" :: send "ua" "m1" :: take 0 10 ++ take 1 5

theorem paidFor_sentAgain : PaidFor (sample sentAgain) ∧
    (sample sentAgain).countP (approvesTo "ua" "m1") = 2 ∧
    (sample sentAgain).countP (paysFor "ua" "m1") = 1 :=
  ⟨paidFor_run _ _ _ (by decide +kernel) (by decide +kernel), by decide +kernel, by decide +kernel⟩

/-- The first request stops before its transaction. -/
def stopped : List (Move Request Reply) :=
  send "ua" "m1" :: send "ua" "m1" :: take 0 3 ++ take 1 5

def shared : List (Move Request Reply) :=
  send "ub" "m1" :: send "ua" "m1" :: take 0 10 ++ take 1 5

/-- A message is sent again when its key has expired. -/
def expired : List (Move Request Reply) :=
  send "ua" "m1" :: .spawn (.wait 61000) :: send "ua" "m1" :: take 0 10 ++ take 1 1 ++ take 2 10

/-- A quota of the day before is read, ten messages take the slots of the day, and the save of what
was read frees them for one more. -/
def freed : List (Move Request Reply) :=
  let texts := ["m1", "m2", "m3", "m4", "m5", "m6", "m7", "m8", "m9", "m10"]
  send "ua" "m0" :: .spawn (.wait 86400000) :: .spawn (.getQuota "ua" "channel") ::
    (take 0 10 ++ take 1 1 ++ take 2 4 ++ texts.map (send "ua") ++
      (List.range 10).flatMap (fun i => take (i + 3) 8) ++ take 2 1 ++
      [send "ua" "m11"] ++ take 13 6)

/-- Without the condition, each part of the statement fails. -/
theorem message_unpaid :
    ¬ PaidFor (sample stopped) ∧ ¬ PaidFor (sample shared) ∧ ¬ PaidFor (sample expired) ∧
      ¬ PaidFor (sample freed) := by
  refine ⟨?_, ?_, fun h => ?_, fun h => ?_⟩
  · exact not_paidFor "ua" "m1" (by decide +kernel) (by decide +kernel)
  · exact not_paidFor "ua" "m1" (by decide +kernel) (by decide +kernel)
  · exact absurd (h.once "ua" "m1") (by decide +kernel)
  · exact absurd (h.slots ("ua", "creator") (getDailyPeriodStart (noon + 86400000)))
      (by decide +kernel)

end VibemeetBackend.Chat
