import VibemeetBackend.Availability.DailyOnline

/-!
# Online time is counted once

Whole runs of the handlers of one creator, with answers that are lost and handlers that stop for good
anywhere, while time passes.
-/

namespace VibemeetBackend.Availability

open Async Flow

/-! ### What a run keeps to -/

def instant (e : Event Cmd Reply Store) : ℤ := (e.before.later e.ans).now

/-- A handler that counts the time since a mark finds the creator online ever since. -/
def Sound (e : Event Cmd Reply Store) : Prop :=
  match e.cmd with
  | .clockBusy startMs => ∃ y ∈ e.before.since, y ≤ startMs
  | _ => True

instance : DecidablePred Sound := fun e => by
  unfold Sound
  cases e.cmd with
  | clockBusy startMs =>
    cases e.before.since with
    | none => exact isFalse (by simp)
    | some y => exact decidable_of_iff (y ≤ startMs) (by simp)
  | _ => infer_instance

def counts (e : Event Cmd Reply Store) : Option (ℤ × ℤ) :=
  match e.cmd with
  | .clockBusy startMs => some (startMs, instant e)
  | _ => none

/-- The seconds that a handler still has to count. -/
abbrev Phase : Type := ℕ

namespace Phase

def next (φ : Phase) (c : Cmd) (r : Reply) (s : Store) : Phase :=
  match c with
  | .clockBusy startMs => totalSeconds (allocateSecondsByPeriodStartMs startMs (s.later r).now)
  | .incSeconds _ seconds => φ - seconds
  | _ => φ

end Phase

/-- A handler reads its clock once, and counts what it has allocated. -/
def Permits (φ : Phase) : Cmd → Prop
  | .clockBusy _ => φ = 0
  | .incSeconds _ seconds => seconds ≤ φ
  | _ => True

/-! ### The handlers follow the protocol -/

section protocol

variable {φ : Phase} {α : Type}

abbrev Allots (φ : Phase) (p : OnlineFlow α) : Prop :=
  Follows (guarded Permits Phase.next) φ p (fun _ _ => True) fun _ _ => True

theorem allots_run {c : Cmd} {f : Reply × Store → OnlineFlow α} (hc : Permits φ c)
    (h : ∀ r s, r.ok = true → Allots (φ.next c r s) (f (r, s))) : Allots φ (run c >>= f) :=
  follows_guarded_bind hc (fun _ _ => trivial) h

theorem addSeconds_allots (days : List CreatorDailyOnline) (h : totalSeconds days ≤ φ) :
    Allots φ (addSeconds days) := by
  induction days generalizing φ with
  | nil => trivial
  | cons day days ih =>
    have hsum : totalSeconds (day :: days) = day.onlineSeconds + totalSeconds days := rfl
    apply allots_run
    · show day.onlineSeconds ≤ φ
      omega
    intro r s _
    apply ih
    show totalSeconds days ≤ φ - day.onlineSeconds
    omega

theorem becameOnline_allots :
    Allots 0 (do
      let (_, s) ← run (.getMark .becameOnline)
      match s.onlineSince with
      | some _ => return ()
      | none => do
        let (r, t) ← run .clockOnline
        let _ ← run (.setMark (t.later r).now)
        return ()) := by
  apply allots_run (c := .getMark .becameOnline) trivial
  intro _ s _
  dsimp only
  cases s.onlineSince <;> simp [run, Permits]

theorem becameBusy_allots :
    Allots 0 (do
      let (_, s) ← run (.getMark .becameBusy)
      let _ ← run (.delMark s.onlineSince)
      match s.onlineSince with
      | none => return ()
      | some startMs => do
        let (r, t) ← run (.clockBusy startMs)
        addOnlineDuration startMs (t.later r).now) := by
  apply allots_run (c := .getMark .becameBusy) trivial
  intro _ s _
  apply allots_run (c := .delMark _) trivial
  intro _ _ _
  cases s.onlineSince <;> simp [addSeconds_allots, Phase.next, run, Permits, addOnlineDuration]

theorem program_allots (handler : Handler) :
    (program handler).Follows (guarded Permits Phase.next) (0 : ℕ) fun _ _ => True := by
  cases handler with
  | becameOnline =>
    have honline : Allots 0 recordCreatorAvailabilityBecameOnline := by
      apply follows_tryCatch
      exact becameOnline_allots.mono (fun _ _ h => h) fun _ _ _ => trivial
    exact honline.run
  | becameBusy =>
    have hbusy : Allots 0 recordCreatorAvailabilityBecameBusy := by
      apply follows_tryCatch
      exact becameBusy_allots.mono (fun _ _ h => h) fun _ _ _ => trivial
    exact hbusy.run

end protocol

/-! ### Steps -/

section steps

variable {s : Store} {c : Cmd} {r : Reply} {φ : Phase}

theorem event_cases (c : Cmd) (r : Reply) (s : Store) :
    c.event r s = s ∨ c.event r s = s.becomesOnline ∨ c.event r s = s.becomesBusy := by
  cases c with
  | getMark handler =>
    cases handler with
    | becameOnline =>
      by_cases h : r.ok = false ∨ s.onlineSince ≠ none
      · exact .inr (.inl (if_pos h))
      · exact .inl (if_neg h)
    | becameBusy =>
      by_cases h : r.ok = false
      · exact .inr (.inr (if_pos h))
      · exact .inl (if_neg h)
  | delMark raw =>
    by_cases h : r.ok = false ∨ raw = none
    · exact .inr (.inr (if_pos h))
    · exact .inl (if_neg h)
  | clockOnline => exact .inr (.inl rfl)
  | clockBusy startMs => exact .inr (.inr rfl)
  | _ => exact .inl rfl

theorem exec_event (c : Cmd) (r : Reply) (s : Store) :
    (c.exec r s).now = (s.later r).now ∧ (c.exec r s).since = (c.event r (s.later r)).since ∧
      (c.exec r s).onlineMs = (c.event r (s.later r)).onlineMs := by
  have hnow : (c.event r (s.later r)).now = (s.later r).now := by
    obtain h | h | h := event_cases c r (s.later r)
    · rw [h]
    · rw [h]
      rfl
    · rw [h]
      rfl
  unfold Cmd.exec
  split
  · cases c <;> exact ⟨hnow, rfl, rfl⟩
  · exact ⟨hnow, rfl, rfl⟩

theorem now_le_later (r : Reply) (s : Store) : s.now ≤ (s.later r).now :=
  le_add_of_nonneg_right (Int.natCast_nonneg _)

/-- **The time online** after a command: a session goes on, begins now, or is over. -/
theorem online_step (hsince : ∀ y ∈ s.since, y ≤ s.now) :
    s.onlineMs ≤ (c.exec r s).onlineMs ∧
      ∀ y ∈ (c.exec r s).since, y ∈ s.since ∨ (s.since = none ∧ y = (s.later r).now) := by
  obtain ⟨-, hsince', honline⟩ := exec_event c r s
  rw [hsince', honline]
  obtain h | h | h := event_cases c r (s.later r)
  · rw [h]
    exact ⟨le_rfl, fun y hy => .inl hy⟩
  · rw [h]
    refine ⟨le_rfl, ?_⟩
    intro y hy
    cases hy
    have hsame : (s.later r).since = s.since := rfl
    rw [hsame]
    cases hs : s.since with
    | none => exact .inr ⟨rfl, rfl⟩
    | some y => exact .inl rfl
  · rw [h]
    refine ⟨?_, fun y hy => nomatch hy⟩
    show s.onlineMs ≤ s.onlineMs + (s.since.map fun y => (s.later r).now - y).getD 0
    have hlater := now_le_later r s
    cases hs : s.since with
    | none => simp
    | some y =>
      have hy := hsince y hs
      simp only [Option.map_some, Option.getD_some]
      omega

theorem days_step (c : Cmd) (r : Reply) (s : Store) :
    totalSeconds (c.exec r s).days ≤ totalSeconds s.days +
      match c with
      | .incSeconds _ seconds => seconds
      | _ => 0 := by
  have hdays : (c.event r (s.later r)).days = s.days := by
    obtain h | h | h := event_cases c r (s.later r)
    · rw [h]
      rfl
    · rw [h]
      rfl
    · rw [h]
      rfl
  unfold Cmd.exec
  split
  · cases c with
    | incSeconds periodStart seconds =>
      show totalSeconds (incSeconds periodStart seconds s.days) ≤ _
      rw [totalSeconds_inc]
    | getMark | setMark | delMark | clockOnline | clockBusy =>
      exact (congrArg totalSeconds hdays).le
  · rw [hdays]
    exact Nat.le_add_right _ _

theorem clockBusy_step {startMs : ℤ} (hsince : ∀ y ∈ s.since, y ≤ s.now)
    (hsound : Sound ⟨s, .clockBusy startMs, r, (Cmd.clockBusy startMs).exec r s⟩) :
    ((Cmd.clockBusy startMs).exec r s).since = none ∧
      1000 * (totalSeconds (allocateSecondsByPeriodStartMs startMs (s.later r).now) : ℤ) ≤
        ((Cmd.clockBusy startMs).exec r s).onlineMs - s.onlineMs := by
  obtain ⟨y, hy, hle⟩ := hsound
  obtain ⟨-, hsince', honline⟩ := exec_event (.clockBusy startMs) r s
  refine ⟨hsince', ?_⟩
  have hsession : ((Cmd.clockBusy startMs).exec r s).onlineMs =
      s.onlineMs + ((s.later r).now - y) := by
    have hs : s.since = some y := hy
    rw [honline]
    show s.onlineMs + (s.since.map fun y => (s.later r).now - y).getD 0 = _
    rw [hs]
    rfl
  have hbefore := hsince y hy
  have hlater := now_le_later r s
  have hle' : y ≤ startMs := hle
  obtain hcount | hnone := le_or_gt startMs (s.later r).now
  · have htotal := totalSeconds_allocate startMs (s.later r).now hcount
    omega
  · have hzero : totalSeconds (allocateSecondsByPeriodStartMs startMs (s.later r).now) = 0 := by
      unfold allocateSecondsByPeriodStartMs
      rw [allocateFrom_stop (by omega)]
      rfl
    omega

end steps

/-! ### Runs -/

/-- The seconds that were counted and those that handlers still have to count come from the time that
the creator was online, and every interval that was counted ends before the creator was online
again. -/
structure Counting (s : Store) (φs : List Phase) (l : List (Event Cmd Reply Store)) (t : Store) :
    Prop where
  counted : 1000 * ((totalSeconds t.days : ℤ) - totalSeconds s.days +
    (φs.map fun φ : ℕ => (φ : ℤ)).sum) ≤ t.onlineMs - s.onlineMs
  since : ∀ y ∈ t.since, y ≤ t.now
  ended : ∀ e ∈ l, ∀ interval ∈ counts e, interval.2 ≤ t.now ∧ ∀ y ∈ t.since, interval.2 ≤ y
  apart : l.Pairwise fun e e' => ∀ interval ∈ counts e, ∀ interval' ∈ counts e',
    interval.2 ≤ interval'.1

theorem Counting.start {s : Store} (hsince : ∀ y ∈ s.since, y ≤ s.now) : Counting s [] [] s := by
  refine ⟨?_, hsince, fun e he => (nomatch he), List.Pairwise.nil⟩
  simp

theorem counted_step {s : Store} {φ : Phase} {c : Cmd} {r : Reply} (hA : Permits φ c)
    (hsince : ∀ y ∈ s.since, y ≤ s.now) (hsound : Sound ⟨s, c, r, c.exec r s⟩) :
    1000 * ((totalSeconds (c.exec r s).days : ℤ) - totalSeconds s.days +
      ((φ.next c r s : ℕ) - (φ : ℕ) : ℤ)) ≤ (c.exec r s).onlineMs - s.onlineMs := by
  have hdays := days_step c r s
  have honline := (online_step (c := c) (r := r) hsince).1
  cases c with
  | incSeconds periodStart seconds =>
    have hle : seconds ≤ φ := hA
    have hnext : φ.next (.incSeconds periodStart seconds) r s = φ - seconds := rfl
    rw [hnext]
    dsimp only at hdays
    omega
  | clockBusy startMs =>
    have hzero : φ = 0 := hA
    have hsession := (clockBusy_step hsince hsound).2
    have hnext : φ.next (.clockBusy startMs) r s =
        totalSeconds (allocateSecondsByPeriodStartMs startMs (s.later r).now) := rfl
    rw [hnext, hzero]
    dsimp only at hdays
    push_cast
    omega
  | getMark | setMark | delMark | clockOnline =>
    show 1000 * (_ + ((φ : ℤ) - φ)) ≤ _
    dsimp only at hdays
    omega

/-- **One step.** -/
theorem Counting.step {s t : Store} {φs : List Phase} {l : List (Event Cmd Reply Store)} {i : ℕ}
    {φ : Phase} {c : Cmd} {r : Reply} (h : Counting s φs l t) (hi : φs[i]? = some φ)
    (hA : Permits φ c) (hsound : Sound ⟨t, c, r, c.exec r t⟩) :
    Counting s (φs.set i (φ.next c r t)) (l ++ [⟨t, c, r, c.exec r t⟩]) (c.exec r t) := by
  obtain ⟨hnow, -, -⟩ := exec_event c r t
  have hlater := now_le_later r t
  obtain ⟨-, hsession⟩ := online_step (c := c) (r := r) h.since
  have hstart : ∀ interval ∈ counts ⟨t, c, r, c.exec r t⟩,
      interval.2 = (t.later r).now ∧ (c.exec r t).since = none ∧
        ∃ y ∈ t.since, y ≤ interval.1 := by
    intro interval hinterval
    cases c with
    | clockBusy startMs =>
      cases hinterval
      exact ⟨rfl, (clockBusy_step h.since hsound).1, hsound⟩
    | _ => cases hinterval
  refine ⟨?_, ?_, ?_, ?_⟩
  · have hstep := counted_step hA h.since hsound
    have hbefore := h.counted
    rw [Pool.sum_phases_set hi fun φ : ℕ => (φ : ℤ)]
    omega
  · intro y hy
    rw [hnow]
    obtain hy | ⟨-, rfl⟩ := hsession y hy
    · exact (h.since y hy).trans hlater
    · exact le_rfl
  · intro e he interval hinterval
    rcases mem_snoc.1 he with he | rfl
    · obtain ⟨hend, hafter⟩ := h.ended e he interval hinterval
      refine ⟨?_, ?_⟩
      · rw [hnow]
        exact hend.trans hlater
      · intro y hy
        obtain hy | ⟨-, rfl⟩ := hsession y hy
        · exact hafter y hy
        · exact hend.trans hlater
    · obtain ⟨hend, hnone, -⟩ := hstart interval hinterval
      refine ⟨?_, ?_⟩
      · rw [hend, hnow]
      · intro y hy
        simp [hnone] at hy
  · rw [List.pairwise_append]
    refine ⟨h.apart, List.pairwise_singleton _ _, ?_⟩
    intro e he e' he' interval hinterval interval' hinterval'
    obtain rfl := List.mem_singleton.1 he'
    obtain ⟨-, -, y, hy, hle⟩ := hstart interval' hinterval'
    exact ((h.ended e he interval hinterval).2 y hy).trans hle

def onlineRun (s : Store) (ms : List (Move Handler Reply)) : Pool Cmd Reply Store :=
  (Pool.start s).play Cmd.exec program ms

structure CountedOnce (s : Store) (w : Pool Cmd Reply Store) : Prop where
  counted : 1000 * ((totalSeconds w.store.days : ℤ) - totalSeconds s.days) ≤
    w.store.onlineMs - s.onlineMs
  apart : w.log.Pairwise fun e e' => ∀ interval ∈ counts e, ∀ interval' ∈ counts e',
    interval.2 ≤ interval'.1

/-- **Online time is counted once** in every run whose commands are sound. -/
theorem online_counted_once_run (s : Store) (hsince : ∀ y ∈ s.since, y ≤ s.now)
    (ms : List (Move Handler Reply)) (hsound : ∀ e ∈ (onlineRun s ms).log, Sound e) :
    CountedOnce s (onlineRun s ms) := by
  have hprog : ∀ q, (program q).Follows (guarded Permits Phase.next)
      ((fun _ : Handler => (0 : ℕ)) q) fun _ _ => True := program_allots
  obtain ⟨φs, -, hcounting⟩ := Pool.play_protocol (Counting s) Sound hprog (Counting.start hsince)
    (fun φs l t q h => { h with
      counted := by
        rw [List.map_append, List.sum_append]
        simpa using h.counted })
    (by
      intro φs l t i φ c r φ' h hi hδ hG
      obtain ⟨hA, rfl⟩ := guarded_eq_some hδ
      exact h.step hi hA hG) ms hsound
  refine ⟨?_, hcounting.apart⟩
  have hnonneg : 0 ≤ (φs.map fun φ : ℕ => (φ : ℤ)).sum :=
    List.sum_nonneg fun n hn => by
      obtain ⟨φ, -, rfl⟩ := List.mem_map.1 hn
      exact Int.natCast_nonneg φ
  have hcounted := hcounting.counted
  show 1000 * ((totalSeconds (onlineRun s ms).store.days : ℤ) - totalSeconds s.days) ≤
    (onlineRun s ms).store.onlineMs - s.onlineMs
  unfold onlineRun
  omega

/-! ### Samples -/

def newCreator : Store := ⟨none, [], 0, none, 0⟩

def after (elapsed : ℕ) : Reply := ⟨true, true, elapsed⟩

/-- A creator becomes online, and is busy after ten seconds. -/
def onlineThenBusy : List (Move Handler Reply) :=
  .spawn .becameOnline :: .spawn .becameBusy ::
    [.step 0 (after 0), .step 0 (after 0), .step 0 (after 1), .step 1 (after 9999),
      .step 1 (after 1), .step 1 (after 0), .step 1 (after 1)]

theorem online_counted_once_sample : CountedOnce newCreator (onlineRun newCreator onlineThenBusy) :=
  online_counted_once_run newCreator (fun y hy => nomatch hy) onlineThenBusy (by decide +kernel)

/-- Two handlers read the mark before either deletes it. -/
def busyTwice : List (Move Handler Reply) :=
  .spawn .becameOnline :: .spawn .becameBusy :: .spawn .becameBusy ::
    [.step 0 (after 0), .step 0 (after 0), .step 0 (after 0), .step 1 (after 10000),
      .step 2 (after 0), .step 1 (after 0), .step 2 (after 0), .step 1 (after 0), .step 2 (after 0),
      .step 1 (after 0), .step 2 (after 0)]

theorem online_counted_twice :
    (onlineRun newCreator busyTwice).store.onlineMs = 10000 ∧
      totalSeconds (onlineRun newCreator busyTwice).store.days = 20 ∧
      ¬CountedOnce newCreator (onlineRun newCreator busyTwice) := by
  refine ⟨by decide +kernel, by decide +kernel, ?_⟩
  intro h
  have hcounted := h.counted
  revert hcounted
  decide +kernel

end VibemeetBackend.Availability
