import VibemeetBackend.Async.Trace

/-!
# Lease locks

A lock that is one key with a token and an expiry: a client takes it with a conditional set, may
renew it with a set of an existing key, and deletes it at the end.  The clients' commands, lost
clients and the passing of time come in any order.

The state also records until when each client's lease runs by its own count, a time to live after
its last successful set.
-/

namespace VibemeetBackend.Async

structure LeaseLock where
  ttlMs : ℕ
  /-- The holder renews its lease with `SET key token XX`. -/
  renews : Bool
  /-- The key is deleted only while it holds the client's own token. -/
  comparesToken : Bool

structure Lease where
  client : ℕ
  expiresAt : ℕ
  deriving DecidableEq

/-- Where a client is: it makes one attempt, and holds the lock from its success until its
release. -/
inductive LeasePhase where
  | idle
  | holding
  | done
  deriving DecidableEq

structure LeaseState where
  now : ℕ
  key : Option Lease
  phase : ℕ → LeasePhase
  leaseUntil : ℕ → ℕ

inductive LeaseStep where
  | acquire (client : ℕ)
  | heartbeat (client : ℕ)
  | release (client : ℕ)
  | crash (client : ℕ)
  | wait (ms : ℕ)

namespace LeaseState

def start : LeaseState := ⟨0, none, fun _ => .idle, fun _ => 0⟩

variable (s : LeaseState)

def current : Option Lease := s.key.filter fun l => decide (s.now < l.expiresAt)

def setPhase (c : ℕ) (p : LeasePhase) : LeaseState :=
  { s with phase := Function.update s.phase c p }

def hold (ttlMs c : ℕ) : LeaseState :=
  { s with
    key := some ⟨c, s.now + ttlMs⟩
    leaseUntil := Function.update s.leaseUntil c (s.now + ttlMs) }

end LeaseState

variable (lock : LeaseLock)

def leaseStep (s : LeaseState) : LeaseStep → LeaseState
  | .acquire c =>
    if s.phase c ≠ .idle then s
    else if s.current = none then (s.hold lock.ttlMs c).setPhase c .holding
    else s.setPhase c .done
  | .heartbeat c =>
    if s.phase c = .holding ∧ lock.renews = true ∧ s.current.isSome = true then s.hold lock.ttlMs c
    else s
  | .release c =>
    if s.phase c ≠ .holding then s
    else if lock.comparesToken = true ∧ (s.current.map (·.client)) ≠ some c then s.setPhase c .done
    else { s with key := none }.setPhase c .done
  | .crash c => s.setPhase c .done
  | .wait ms => { s with now := s.now + ms }

def Exclusive (e : LeaseState × LeaseStep) : Prop :=
  match e.2 with
  | .wait _ => True
  | .acquire c | .heartbeat c | .release c | .crash c =>
    ∀ l, e.1.current = some l → l.client ≠ c → (leaseStep lock e.1 e.2).current = some l

def LeaseState.InTime (s : LeaseState) (c : ℕ) : Prop :=
  s.now < s.leaseUntil c ∨ s.current = none

/-- A renewal, or a deletion that compares no token, is in time. -/
def Timely (e : LeaseState × LeaseStep) : Prop :=
  match e.2 with
  | .heartbeat c => e.1.phase c = .holding → lock.renews = true → e.1.InTime c
  | .release c => e.1.phase c = .holding → lock.comparesToken = false → e.1.InTime c
  | _ => True

/-- While every step is timely: a lease ends when its client thinks it does, and a client whose lease
runs has the key. -/
structure LeaseState.Sound (s : LeaseState) : Prop where
  expiry : ∀ l, s.current = some l → l.expiresAt = s.leaseUntil l.client
  holder : ∀ c, s.phase c = .holding → s.now < s.leaseUntil c →
    s.current = some ⟨c, s.leaseUntil c⟩

namespace LeaseState

variable {s : LeaseState} {c : ℕ} {l : Lease}

theorem current_eq_some : s.current = some l ↔ s.key = some l ∧ s.now < l.expiresAt := by
  simp [current, Option.filter_eq_some_iff]

@[simp] theorem current_setPhase (p : LeasePhase) : (s.setPhase c p).current = s.current := rfl

@[simp] theorem current_hold (ttlMs : ℕ) (h : 0 < ttlMs) :
    (s.hold ttlMs c).current = some ⟨c, s.now + ttlMs⟩ := by
  rw [current_eq_some]
  exact ⟨rfl, Nat.lt_add_of_pos_right h⟩

theorem client_of_current_hold {ttlMs : ℕ} (h : (s.hold ttlMs c).current = some l) :
    l = ⟨c, s.now + ttlMs⟩ := by
  rw [current_eq_some] at h
  exact (Option.some.inj h.1).symm

namespace Sound

theorem start : start.Sound := by
  constructor
  · intro l h
    cases h
  · intro c h
    cases h

variable (h : s.Sound)

include h

theorem holder_unique (hl : s.current = some l) (hc : s.phase c = .holding)
    (hruns : s.now < s.leaseUntil c) : l.client = c := by
  rw [h.holder c hc hruns] at hl
  exact (congrArg Lease.client (Option.some.inj hl)).symm

theorem runs_of_current (hl : s.current = some l) : s.now < s.leaseUntil l.client := by
  rw [← h.expiry l hl]
  exact (current_eq_some.1 hl).2

/-- A client stops; it may have had the key. -/
theorem setPhase_done (c : ℕ) : (s.setPhase c .done).Sound := by
  refine ⟨h.expiry, fun d hd => h.holder d ?_⟩
  have hne : d ≠ c := by
    rintro rfl
    simp [setPhase] at hd
  simpa [setPhase, hne] using hd

theorem wait (ms : ℕ) : ({ s with now := s.now + ms } : LeaseState).Sound := by
  have hcurrent : ∀ l : Lease, s.now + ms < l.expiresAt → s.current = some l →
      ({ s with now := s.now + ms } : LeaseState).current = some l := by
    intro l hlt hl
    exact current_eq_some.2 ⟨(current_eq_some.1 hl).1, hlt⟩
  constructor
  · intro l hl
    obtain ⟨hkey, hlt⟩ := current_eq_some.1 hl
    have hlt : s.now + ms < l.expiresAt := hlt
    exact h.expiry l (current_eq_some.2 ⟨hkey, by omega⟩)
  · intro c hc hruns
    have hruns : s.now + ms < s.leaseUntil c := hruns
    exact hcurrent ⟨c, s.leaseUntil c⟩ hruns (h.holder c hc (by omega))

theorem hold (ttlMs : ℕ) (hin : s.InTime c) (hc : s.phase c = .holding ∨ s.current = none) :
    ((s.hold ttlMs c).setPhase c .holding).Sound := by
  constructor
  · intro l hl
    obtain rfl := client_of_current_hold hl
    simp [LeaseState.hold, setPhase]
  · intro d hd hruns
    by_cases hdc : d = c
    · subst hdc
      have hruns : s.now < s.now + ttlMs := by simpa [LeaseState.hold, setPhase] using hruns
      rw [current_setPhase, current_hold ttlMs (by omega)]
      simp [LeaseState.hold, setPhase]
    · -- no other client has a running lease
      have hd : s.phase d = .holding := by simpa [LeaseState.hold, setPhase, hdc] using hd
      have hruns : s.now < s.leaseUntil d := by
        simpa [LeaseState.hold, setPhase, hdc] using hruns
      have hcurrent := h.holder d hd hruns
      rcases hc with hc | hc
      · rcases hin with hin | hnone
        · rw [h.holder c hc hin] at hcurrent
          exact (hdc (congrArg Lease.client (Option.some.inj hcurrent)).symm).elim
        · simp [hnone] at hcurrent
      · simp [hc] at hcurrent

theorem delete (hown : ∀ l, s.current = some l → l.client = c) :
    (({ s with key := none } : LeaseState).setPhase c .done).Sound := by
  constructor
  · intro l hl
    cases hl
  · intro d hd hruns
    have hdc : d ≠ c := by
      rintro rfl
      simp [setPhase] at hd
    have hd : s.phase d = .holding := by simpa [setPhase, hdc] using hd
    exact (hdc (hown _ (h.holder d hd hruns)).symm.symm).elim

end Sound

end LeaseState

/-! ### One step -/

section step

variable {lock : LeaseLock} {s : LeaseState}

theorem leaseStep_sound (h : s.Sound) {step : LeaseStep} (ht : Timely lock (s, step)) :
    (leaseStep lock s step).Sound := by
  cases step with
  | acquire c =>
    rw [leaseStep]
    split
    · exact h
    split
    · rename_i hfree
      exact h.hold lock.ttlMs (.inr hfree) (.inr hfree)
    · exact h.setPhase_done c
  | heartbeat c =>
    rw [leaseStep]
    split
    · rename_i hbeat
      obtain ⟨hc, hrenews, -⟩ := hbeat
      have hphase : (s.hold lock.ttlMs c).setPhase c .holding = s.hold lock.ttlMs c := by
        simp [LeaseState.setPhase, LeaseState.hold, ← hc]
      rw [← hphase]
      exact h.hold lock.ttlMs (ht hc hrenews) (.inl hc)
    · exact h
  | release c =>
    rw [leaseStep]
    split
    · exact h
    rename_i hc
    have hc : s.phase c = .holding := not_not.1 hc
    split
    · exact h.setPhase_done c
    · rename_i hdel
      apply h.delete
      intro l hl
      by_cases hcmp : lock.comparesToken = true
      · have hown : s.current.map (·.client) = some c := by
          by_contra hne
          exact hdel ⟨hcmp, hne⟩
        rw [hl] at hown
        exact Option.some.inj hown
      · rcases ht hc (by simpa using hcmp) with hruns | hnone
        · exact h.holder_unique hl hc hruns
        · simp [hnone] at hl
  | crash c => exact h.setPhase_done c
  | wait ms => exact h.wait ms

/-- A client whose lease ran out while another client has the key. -/
theorem not_inTime {c : ℕ} (h : ¬ s.InTime c) : s.leaseUntil c ≤ s.now ∧ ∃ l, s.current = some l := by
  rw [LeaseState.InTime, not_or, not_lt] at h
  exact ⟨h.1, Option.ne_none_iff_exists'.1 h.2⟩

theorem heartbeat_timely (h : s.Sound) {c : ℕ} (hex : Exclusive lock (s, .heartbeat c)) :
    Timely lock (s, .heartbeat c) := by
  intro hc hrenews
  by_contra hlate
  obtain ⟨hover, l, hl⟩ := not_inTime hlate
  have hother : l.client ≠ c := by
    rintro rfl
    exact (h.runs_of_current hl).not_ge hover
  have hkept := hex l hl hother
  have hset : leaseStep lock s (.heartbeat c) = s.hold lock.ttlMs c :=
    if_pos ⟨hc, hrenews, by rw [hl]; rfl⟩
  rw [hset] at hkept
  exact hother (by rw [LeaseState.client_of_current_hold hkept])

theorem release_timely (h : s.Sound) {c : ℕ} (hex : Exclusive lock (s, .release c)) :
    Timely lock (s, .release c) := by
  intro hc hcmp
  by_contra hlate
  obtain ⟨hover, l, hl⟩ := not_inTime hlate
  have hother : l.client ≠ c := by
    rintro rfl
    exact (h.runs_of_current hl).not_ge hover
  have hkept := hex l hl hother
  have hdel : leaseStep lock s (.release c) = { s with key := none }.setPhase c .done := by
    simp [leaseStep, show s.phase c = .holding from hc, hcmp]
  rw [hdel] at hkept
  cases hkept

/-- **One step** from a sound state is exclusive exactly when it is timely. -/
theorem exclusive_iff_timely_step (h : s.Sound) (step : LeaseStep) :
    Exclusive lock (s, step) ↔ Timely lock (s, step) := by
  cases step with
  | acquire c =>
    refine iff_of_true (fun l hl _ => ?_) trivial
    show (leaseStep lock s (.acquire c)).current = some l
    rw [leaseStep]
    split
    · exact hl
    split
    · rename_i hfree
      simp [hfree] at hl
    · exact hl
  | heartbeat c =>
    refine ⟨heartbeat_timely h, fun ht l hl hother => ?_⟩
    show (leaseStep lock s (.heartbeat c)).current = some l
    rw [leaseStep]
    split
    · rename_i hbeat
      rcases ht hbeat.1 hbeat.2.1 with hruns | hnone
      · exact (hother (h.holder_unique hl hbeat.1 hruns)).elim
      · simp [hnone] at hl
    · exact hl
  | release c =>
    refine ⟨release_timely h, fun ht l hl hother => ?_⟩
    show (leaseStep lock s (.release c)).current = some l
    rw [leaseStep]
    split
    · exact hl
    rename_i hc
    split
    · exact hl
    · rename_i hdel
      by_cases hcmp : lock.comparesToken = true
      · refine (hdel ⟨hcmp, fun hown => ?_⟩).elim
        rw [hl] at hown
        exact hother (Option.some.inj hown)
      · rcases ht (not_not.1 hc) (by simpa using hcmp) with hruns | hnone
        · exact (hother (h.holder_unique hl (not_not.1 hc) hruns)).elim
        · simp [hnone] at hl
  | crash c => exact iff_of_true (fun l hl _ => hl) trivial
  | wait ms => exact iff_of_true trivial trivial

end step

/-! ### Runs -/

/-- **Mutual exclusion.**  No step of a run changes another client's lease exactly when every renewal
and every deletion that compares no token is in time. -/
theorem exclusive_iff_timely (lock : LeaseLock) (is : List LeaseStep) :
    (∀ e ∈ stepLog (leaseStep lock) .start is, Exclusive lock e) ↔
      ∀ e ∈ stepLog (leaseStep lock) .start is, Timely lock e :=
  forall_trace_iff .start (fun _ step h => exclusive_iff_timely_step h step)
    fun _ _ h ht => leaseStep_sound h ht

end VibemeetBackend.Async
