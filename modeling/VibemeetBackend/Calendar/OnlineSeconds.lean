import Mathlib.Data.Int.Interval
import VibemeetBackend.Availability.DailyOnline
import VibemeetBackend.Calendar.DateKeys

/-!
# Online seconds by day

`allocateSecondsByPeriodStartMs` of `creator-daily-online.service.ts`, with the bounds of a day as
`creator-tasks.config.ts` takes them, from the date key of the instant.
-/

namespace VibemeetBackend.Calendar

open Availability (CreatorDailyOnline incSeconds totalSeconds)
open Checkin (istDay istOffsetMs msPerDay)
open Moments (Text finiteNumber)

variable {fromMs toMs cursor t : ℤ} {day k : ℤ} {n fuel : ℕ} {out : List CreatorDailyOnline}

def getDailyPeriodBoundsForInstant (when : Option ℤ) : Option (Option ℤ × Option ℤ) := do
  let key ← istDateKey when
  istDayBounds key

/-- The loop, with `fuel` tests.  A day without an end makes a cursor that is not a number, after
which no test holds. -/
def allocateFrom (toMs : ℤ) : ℕ → ℤ → List CreatorDailyOnline → Option (List CreatorDailyOnline)
  | 0, _, _ => none
  | fuel + 1, cursor, out =>
    if cursor < toMs then do
      match ← getDailyPeriodBoundsForInstant (timeClip cursor) with
      | (some periodStart, some pEnd) =>
        let stop := min toMs pEnd
        let seconds := ((stop - cursor) / 1000).toNat
        allocateFrom toMs fuel stop
          (if 0 < seconds then incSeconds periodStart seconds out else out)
      | _ => some out
    else some out

def allocateSecondsByPeriodStartMs (fuel : ℕ) (fromMs toMs : ℤ) :
    Option (List CreatorDailyOnline) :=
  if toMs ≤ fromMs then some [] else allocateFrom toMs fuel fromMs []

/-! ### Days -/

/-- The last day that a `Date` can begin with; its end is no `Date`. -/
def lastDay : ℤ := 100000000

theorem istDay_spec (t : ℤ) : midnight (istDay t) ≤ t ∧ t < midnight (istDay t + 1) := by
  unfold midnight istDay istOffsetMs msPerDay
  omega

theorem midnight_lt_iff {day day' : ℤ} : midnight day < midnight day' ↔ day < day' := by
  unfold midnight msPerDay
  omega

theorem midnight_le_iff {day day' : ℤ} : midnight day ≤ midnight day' ↔ day ≤ day' := by
  rw [← not_lt, midnight_lt_iff, not_lt]

theorem le_istDay_iff : day ≤ istDay t ↔ midnight day ≤ t := by
  unfold midnight istDay istOffsetMs msPerDay
  omega

/-- **The day of an instant.** -/
theorem getDailyPeriodBounds_eq {t : ℤ} (h : 0 ≤ t) (h' : t ≤ maxTime) :
    getDailyPeriodBoundsForInstant (timeClip t) =
      some (some (midnight (istDay t)), timeClip (midnight (istDay t + 1))) := by
  have hclip : timeClip t = some t := if_pos ⟨by omega, h'⟩
  have hday : 0 ≤ istDay t ∧ istDay t ≤ lastDay := by
    unfold maxTime at h'
    unfold istDay istOffsetMs msPerDay lastDay
    omega
  have hyear : 1970 ≤ (Date.ofDay (istDay t)).year := by
    rw [Date.le_year_iff, Date.toDay_ofDay]
    exact hday.1
  have hprinted : (if (Date.ofDay (istDay t)).year ≤ 0 then 1 - (Date.ofDay (istDay t)).year
      else (Date.ofDay (istDay t)).year).toNat = (Date.ofDay (istDay t)).year.toNat := by
    rw [if_neg (by omega)]
  have hkeyDay : keyDay (Date.ofDay (istDay t)).year.toNat (Date.ofDay (istDay t)).month
      (Date.ofDay (istDay t)).day = istDay t := by
    rw [Date.keyDay_eq _ (by omega), Date.toDay_ofDay]
  have hread : finiteNumber (yearText (Date.ofDay (istDay t)).year) =
      some (((Date.ofDay (istDay t)).year.toNat : ℕ) : ℚ) := by
    unfold yearText
    rw [hprinted]
    exact Moments.finiteNumber_integerText (Int.ofNat _)
  have hdash : '-' ∉ yearText (Date.ofDay (istDay t)).year :=
    dash_notMem fun c hc => Moments.mem_toDigits hc
  have hmonth := (Date.ofDay (istDay t)).month_le
  have hday' := (Date.ofDay (istDay t)).day_le_31
  have hbounds := istDayBounds_parts hread hdash (by omega)
    ⟨(Date.ofDay (istDay t)).one_le_month, by omega⟩ ⟨(Date.ofDay (istDay t)).one_le_day, by omega⟩
    (by
      unfold lastDay at hday
      unfold InRange
      omega)
  rw [hkeyDay] at hbounds
  rw [hclip]
  exact hbounds

theorem getDailyPeriodBounds_arith (h : 0 ≤ t) (h' : t < midnight lastDay) :
    getDailyPeriodBoundsForInstant (timeClip t) =
      some (some (Availability.getDailyPeriodBoundsForInstant t).1,
        some (Availability.getDailyPeriodBoundsForInstant t).2) := by
  have hday : istDay t < lastDay := midnight_lt_iff.1 ((istDay_spec t).1.trans_lt h')
  have hday' : 0 ≤ istDay t := by
    unfold istDay istOffsetMs msPerDay
    omega
  have hstop : timeClip (midnight (istDay t + 1)) = some (midnight (istDay t + 1)) := by
    rw [timeClip_midnight]
    apply if_pos
    unfold lastDay at hday
    unfold InRange
    omega
  have hnext : midnight (istDay t + 1) = (Availability.getDailyPeriodBoundsForInstant t).2 := by
    unfold midnight Availability.getDailyPeriodBoundsForInstant
    ring
  rw [getDailyPeriodBounds_eq h (h'.le.trans (by decide)), hstop, hnext]
  rfl

/-! ### The loop -/

theorem allocateFrom_arith (hto : toMs ≤ midnight lastDay) (h : 0 ≤ cursor)
    (hfuel : (toMs - cursor).toNat ≤ fuel) (out : List CreatorDailyOnline) :
    allocateFrom toMs (fuel + 1) cursor out =
      some (Availability.allocateFrom toMs fuel cursor out) := by
  induction fuel generalizing cursor out with
  | zero => exact if_neg (by omega)
  | succ fuel ih =>
    by_cases hcursor : cursor < toMs
    · have hend := (Availability.getDailyPeriodBounds_spec cursor).2
      rw [allocateFrom, if_pos hcursor, getDailyPeriodBounds_arith h (hcursor.trans_le hto),
        Availability.allocateFrom, if_pos hcursor]
      apply ih
      · omega
      · omega
    · rw [Availability.allocateFrom_stop hcursor]
      exact if_neg hcursor

/-- **The loop ends**, with the seconds of the arithmetic. -/
theorem allocates (h : 0 ≤ fromMs) (hto : toMs ≤ midnight lastDay) :
    ∃ fuel, allocateSecondsByPeriodStartMs fuel fromMs toMs =
      some (Availability.allocateSecondsByPeriodStartMs fromMs toMs) := by
  refine ⟨(toMs - fromMs).toNat + 1, ?_⟩
  unfold allocateSecondsByPeriodStartMs
  split
  · unfold Availability.allocateSecondsByPeriodStartMs
    rw [Availability.allocateFrom_stop (by omega)]
  · exact allocateFrom_arith hto h le_rfl []

noncomputable def millisecondsInside (fromMs toMs day : ℤ) : Finset ℤ :=
  Finset.Ico fromMs toMs ∩ Finset.Ico (midnight day) (midnight (day + 1))

noncomputable def secondsInside (fromMs toMs day : ℤ) : ℕ :=
  (millisecondsInside fromMs toMs day).card / 1000

theorem card_millisecondsInside (fromMs toMs day : ℤ) :
    (millisecondsInside fromMs toMs day).card =
      (min toMs (midnight (day + 1)) - max fromMs (midnight day)).toNat := by
  unfold millisecondsInside
  rw [Finset.Ico_inter_Ico, Int.card_Ico]

noncomputable def dayEntry (fromMs toMs day : ℤ) : List CreatorDailyOnline :=
  if 0 < secondsInside fromMs toMs day then [⟨midnight day, secondsInside fromMs toMs day⟩] else []

/-- The entries of `n` days from `day` on. -/
noncomputable def daySeconds (fromMs toMs : ℤ) : ℕ → ℤ → List CreatorDailyOnline
  | 0, _ => []
  | n + 1, day => dayEntry fromMs toMs day ++ daySeconds fromMs toMs n (day + 1)

theorem secondsInside_eq_zero (h : toMs ≤ max fromMs (midnight day)) :
    secondsInside fromMs toMs day = 0 := by
  unfold secondsInside
  rw [card_millisecondsInside]
  omega

theorem daySeconds_eq_nil (h : toMs ≤ max fromMs (midnight day)) (n : ℕ) :
    daySeconds fromMs toMs n day = [] := by
  induction n generalizing day with
  | zero => rfl
  | succ n ih =>
    have hnext := midnight_le_iff.2 (show day ≤ day + 1 by omega)
    rw [daySeconds, dayEntry, secondsInside_eq_zero h, ih (h.trans (max_le_max le_rfl hnext))]
    rfl

theorem incSeconds_new {start : ℤ} (seconds : ℕ) (h : ∀ x ∈ out, x.periodStart < start) :
    incSeconds start seconds out = out ++ [⟨start, seconds⟩] := by
  induction out with
  | nil => rfl
  | cons x out ih =>
    have hx := h x List.mem_cons_self
    rw [incSeconds, if_neg hx.ne, ih fun y hy => h y (List.mem_cons_of_mem _ hy)]
    rfl

theorem mem_dayEntry {x : CreatorDailyOnline} : x ∈ dayEntry fromMs toMs day ↔
    0 < secondsInside fromMs toMs day ∧ x = ⟨midnight day, secondsInside fromMs toMs day⟩ := by
  unfold dayEntry
  split <;> simp [*]

theorem getDailyPeriodBounds_of_day (h : midnight day ≤ cursor) (h' : cursor < midnight (day + 1)) :
    Availability.getDailyPeriodBoundsForInstant cursor = (midnight day, midnight (day + 1)) := by
  have hlow : day ≤ istDay cursor := le_istDay_iff.2 h
  have hhigh : ¬day + 1 ≤ istDay cursor := by
    rw [le_istDay_iff]
    omega
  obtain rfl : istDay cursor = day := by omega
  unfold Availability.getDailyPeriodBoundsForInstant midnight
  ring_nf

theorem le_midnight_toNat (fromMs toMs : ℤ) :
    toMs ≤ midnight (istDay fromMs + (istDay (toMs - 1) + 1 - istDay fromMs).toNat) := by
  have hlast := (istDay_spec (toMs - 1)).2
  have hmono : midnight (istDay (toMs - 1) + 1) ≤
      midnight (istDay fromMs + (istDay (toMs - 1) + 1 - istDay fromMs).toNat) := by
    rw [midnight_le_iff]
    omega
  omega

/-- **The loop writes the entry of each day once.** -/
theorem allocateFrom_eq (hday : fromMs < midnight (day + 1)) (hto : toMs ≤ midnight (day + n))
    (hfuel : (toMs - max fromMs (midnight day)).toNat ≤ fuel)
    (hout : ∀ x ∈ out, x.periodStart < midnight day) :
    Availability.allocateFrom toMs fuel (max fromMs (midnight day)) out =
      out ++ daySeconds fromMs toMs n day := by
  induction n generalizing day fuel out with
  | zero =>
    rw [Nat.cast_zero, add_zero] at hto
    rw [Availability.allocateFrom_stop (by omega), daySeconds, List.append_nil]
  | succ n ih =>
    have hto' : toMs ≤ midnight (day + 1 + n) := by
      rwa [Nat.cast_succ, ← add_assoc, add_right_comm] at hto
    have hnext : midnight day < midnight (day + 1) := midnight_lt_iff.2 (by omega)
    by_cases hcursor : max fromMs (midnight day) < toMs
    · obtain ⟨fuel, rfl⟩ : ∃ m, fuel = m + 1 := ⟨fuel - 1, by omega⟩
      have hseconds : ((min toMs (midnight (day + 1)) - max fromMs (midnight day)) / 1000).toNat =
          secondsInside fromMs toMs day := by
        unfold secondsInside
        rw [card_millisecondsInside]
        omega
      have hentry : (if 0 < secondsInside fromMs toMs day then
          incSeconds (midnight day) (secondsInside fromMs toMs day) out else out) =
            out ++ dayEntry fromMs toMs day := by
        unfold dayEntry
        split
        · exact incSeconds_new _ hout
        · exact (List.append_nil out).symm
      rw [Availability.allocateFrom, if_pos hcursor,
        getDailyPeriodBounds_of_day (le_max_right _ _) (by omega)]
      dsimp only
      rw [hseconds, hentry, daySeconds, ← List.append_assoc]
      rcases le_or_gt toMs (midnight (day + 1)) with hlast | hmore
      · rw [min_eq_left hlast, Availability.allocateFrom_stop (lt_irrefl _),
          daySeconds_eq_nil (le_max_of_le_right hlast), List.append_nil]
      · have hstart : midnight (day + 1) = max fromMs (midnight (day + 1)) := by omega
        rw [min_eq_right hmore.le, hstart]
        apply ih
        · exact hday.trans (midnight_lt_iff.2 (by omega))
        · exact hto'
        · omega
        · intro x hx
          rcases List.mem_append.1 hx with hx | hx
          · exact (hout x hx).trans hnext
          · rw [(mem_dayEntry.1 hx).2]
            exact hnext
    · rw [Availability.allocateFrom_stop hcursor, daySeconds_eq_nil (not_lt.1 hcursor),
        List.append_nil]

theorem allocate_eq (fromMs toMs : ℤ) :
    Availability.allocateSecondsByPeriodStartMs fromMs toMs =
      daySeconds fromMs toMs (istDay (toMs - 1) + 1 - istDay fromMs).toNat (istDay fromMs) := by
  obtain ⟨hlow, hhigh⟩ := istDay_spec fromMs
  have hloop := allocateFrom_eq hhigh (le_midnight_toNat fromMs toMs) le_rfl
    fun x (hx : x ∈ ([] : List CreatorDailyOnline)) => absurd hx List.not_mem_nil
  rwa [max_eq_left hlow] at hloop

/-! ### The seconds of a day -/

def secondsAt (start : ℤ) (out : List CreatorDailyOnline) : ℕ :=
  totalSeconds (out.filter fun x => x.periodStart = start)

theorem mem_daySeconds {x : CreatorDailyOnline} (h : x ∈ daySeconds fromMs toMs n day) :
    ∃ k, day ≤ k ∧ x ∈ dayEntry fromMs toMs k := by
  induction n generalizing day with
  | zero => cases h
  | succ n ih =>
    rcases List.mem_append.1 h with h | h
    · exact ⟨day, le_rfl, h⟩
    · obtain ⟨k, hk, hx⟩ := ih h
      exact ⟨k, by omega, hx⟩

theorem daySeconds_sorted (fromMs toMs : ℤ) (n : ℕ) (day : ℤ) :
    (daySeconds fromMs toMs n day).Pairwise fun x y => x.periodStart < y.periodStart := by
  induction n generalizing day with
  | zero => exact List.Pairwise.nil
  | succ n ih =>
    rw [daySeconds, List.pairwise_append]
    refine ⟨?_, ih (day + 1), ?_⟩
    · unfold dayEntry
      split
      · exact List.pairwise_singleton _ _
      · exact List.Pairwise.nil
    · intro x hx y hy
      obtain ⟨k, hk, hy⟩ := mem_daySeconds hy
      rw [(mem_dayEntry.1 hx).2, (mem_dayEntry.1 hy).2]
      exact midnight_lt_iff.2 hk

theorem totalSeconds_append (out out' : List CreatorDailyOnline) :
    totalSeconds (out ++ out') = totalSeconds out + totalSeconds out' := by
  unfold totalSeconds
  rw [List.map_append, List.sum_append]

theorem totalSeconds_dayEntry (fromMs toMs day : ℤ) :
    totalSeconds (dayEntry fromMs toMs day) = secondsInside fromMs toMs day := by
  unfold dayEntry
  split
  · exact add_zero _
  · rename_i hzero
    exact (Nat.eq_zero_of_not_pos hzero).symm

theorem secondsAt_dayEntry (fromMs toMs day k : ℤ) :
    secondsAt (midnight k) (dayEntry fromMs toMs day) =
      if k = day then secondsInside fromMs toMs day else 0 := by
  unfold secondsAt
  split
  · rename_i h
    rw [h, List.filter_eq_self.2, totalSeconds_dayEntry]
    intro x hx
    simp [(mem_dayEntry.1 hx).2]
  · rename_i h
    rw [List.filter_eq_nil_iff.2]
    · rfl
    · intro x hx heq
      rw [(mem_dayEntry.1 hx).2, decide_eq_true_eq] at heq
      rw [← istDay_midnight k, ← heq, istDay_midnight] at h
      exact h rfl

theorem secondsAt_daySeconds (fromMs toMs : ℤ) (n : ℕ) (day k : ℤ) :
    secondsAt (midnight k) (daySeconds fromMs toMs n day) =
      if day ≤ k ∧ k < day + n then secondsInside fromMs toMs k else 0 := by
  induction n generalizing day with
  | zero =>
    rw [if_neg (by omega)]
    rfl
  | succ n ih =>
    have happend : secondsAt (midnight k) (daySeconds fromMs toMs (n + 1) day) =
        secondsAt (midnight k) (dayEntry fromMs toMs day) +
          secondsAt (midnight k) (daySeconds fromMs toMs n (day + 1)) := by
      unfold secondsAt
      rw [daySeconds, List.filter_append, totalSeconds_append]
    rw [happend, secondsAt_dayEntry, ih (day + 1)]
    push_cast
    by_cases hfirst : k = day
    · simp [(by omega)]
    · rw [if_neg hfirst, zero_add]
      exact if_congr (by omega) rfl rfl

/-- **Each piece is rounded down by itself**, so that less than a second a day is lost. -/
theorem totalSeconds_daySeconds (hday : fromMs < midnight (day + 1))
    (hto : toMs ≤ midnight (day + n)) :
    1000 * (totalSeconds (daySeconds fromMs toMs n day) : ℤ) ≤
        max 0 (toMs - max fromMs (midnight day)) ∧
      toMs - max fromMs (midnight day) ≤
        1000 * totalSeconds (daySeconds fromMs toMs n day) + 999 * n := by
  induction n generalizing day with
  | zero =>
    have hnone : totalSeconds (daySeconds fromMs toMs 0 day) = 0 := rfl
    rw [Nat.cast_zero, add_zero] at hto
    omega
  | succ n ih =>
    have hto' : toMs ≤ midnight (day + 1 + n) := by
      rwa [Nat.cast_succ, ← add_assoc, add_right_comm] at hto
    have hnext : midnight (day + 1) < midnight (day + 1 + 1) := midnight_lt_iff.2 (by omega)
    have hrest := ih (hday.trans hnext) hto'
    have hseconds : secondsInside fromMs toMs day =
        (min toMs (midnight (day + 1)) - max fromMs (midnight day)).toNat / 1000 := by
      unfold secondsInside
      rw [card_millisecondsInside]
    have hlater : midnight day < midnight (day + 1) := midnight_lt_iff.2 (by omega)
    rw [daySeconds, totalSeconds_append, totalSeconds_dayEntry, hseconds]
    push_cast
    omega

/-! ### The split -/

def midnightsCrossed (fromMs toMs : ℤ) : Set ℤ :=
  {instant | (∃ day, instant = midnight day) ∧ fromMs < instant ∧ instant < toMs}

theorem ncard_midnightsCrossed (fromMs toMs : ℤ) :
    (midnightsCrossed fromMs toMs).ncard = (istDay (toMs - 1) - istDay fromMs).toNat := by
  have hinj : Function.Injective midnight := by
    intro day day' h
    rw [← istDay_midnight day, h, istDay_midnight]
  have hset : midnightsCrossed fromMs toMs =
      (Finset.Ioc (istDay fromMs) (istDay (toMs - 1))).map ⟨midnight, hinj⟩ := by
    ext instant
    rw [Finset.coe_map, Set.mem_image]
    constructor
    · rintro ⟨⟨day, rfl⟩, hfrom, hto⟩
      refine ⟨day, ?_, rfl⟩
      rw [Finset.mem_coe, Finset.mem_Ioc, le_istDay_iff, ← not_le, le_istDay_iff]
      omega
    · rintro ⟨day, hday, rfl⟩
      rw [Finset.mem_coe, Finset.mem_Ioc, le_istDay_iff, ← not_le, le_istDay_iff] at hday
      refine ⟨⟨day, rfl⟩, ?_, ?_⟩
      · exact not_le.1 hday.1
      · exact Int.le_sub_one_iff.1 hday.2
  rw [hset, Set.ncard_coe_finset, Finset.card_map, Int.card_Ioc]

structure SplitsByDay (fromMs toMs : ℤ) (out : List CreatorDailyOnline) : Prop where
  nodup : (out.map (·.periodStart)).Nodup
  midnights : ∀ x ∈ out, ∃ day, x.periodStart = midnight day
  positive : ∀ x ∈ out, 0 < x.onlineSeconds
  seconds : ∀ day, secondsAt (midnight day) out = secondsInside fromMs toMs day

/-- No second too many, and at most one too few a midnight. -/
def SumsUp (fromMs toMs : ℤ) (out : List CreatorDailyOnline) : Prop :=
  (totalSeconds out : ℤ) ≤ (toMs - fromMs) / 1000 ∧
    (toMs - fromMs) / 1000 ≤ totalSeconds out + (midnightsCrossed fromMs toMs).ncard

theorem splitsByDay_allocate (fromMs toMs : ℤ) : SplitsByDay fromMs toMs
    (Availability.allocateSecondsByPeriodStartMs fromMs toMs) := by
  rw [allocate_eq]
  exact
    { nodup := by
        apply List.pairwise_map.2
        exact (daySeconds_sorted _ _ _ _).imp fun hlt => hlt.ne
      midnights := by
        intro x hx
        obtain ⟨k, -, hx⟩ := mem_daySeconds hx
        simp [(mem_dayEntry.1 hx).2]
      positive := by
        intro x hx
        obtain ⟨k, -, hx⟩ := mem_daySeconds hx
        obtain ⟨hpos, rfl⟩ := mem_dayEntry.1 hx
        exact hpos
      seconds := by
        intro day
        rw [secondsAt_daySeconds]
        split
        · rfl
        · -- Outside the days that the loop goes over the interval has no millisecond.
          rename_i hoverlap
          have hstart := (istDay_spec fromMs).1
          have hstop := le_midnight_toNat fromMs toMs
          symm
          rcases lt_or_ge day (istDay fromMs) with hbefore | hafter
          · have hend := midnight_le_iff.2 (Int.add_one_le_iff.2 hbefore)
            unfold secondsInside
            rw [card_millisecondsInside]
            omega
          · have hlate := midnight_le_iff.2 (not_lt.1 fun hlt => hoverlap ⟨hafter, hlt⟩)
            exact secondsInside_eq_zero (le_max_of_le_right (hstop.trans hlate)) }

theorem sumsUp_allocate (h : fromMs ≤ toMs) : SumsUp fromMs toMs
    (Availability.allocateSecondsByPeriodStartMs fromMs toMs) := by
  obtain ⟨hlow, hhigh⟩ := istDay_spec fromMs
  obtain ⟨hmost, hleast⟩ := totalSeconds_daySeconds hhigh (le_midnight_toNat fromMs toMs)
  unfold SumsUp
  rw [allocate_eq, ncard_midnightsCrossed]
  rw [max_eq_left hlow] at hmost hleast
  rcases h.eq_or_lt with rfl | hlt
  · omega
  · have hdays : istDay fromMs ≤ istDay (toMs - 1) := le_istDay_iff.2 (by omega)
    omega

def HasBounds (t start stop : ℤ) : Prop :=
  getDailyPeriodBoundsForInstant (timeClip t) = some (some start, some stop)

def InOneDay (t : ℤ) : Prop :=
  ∃ start stop, HasBounds t start stop ∧ start ≤ t ∧ t < stop ∧
    ∀ t', 0 ≤ t' → (start ≤ t' ∧ t' < stop ↔ t' < midnight lastDay ∧ HasBounds t' start stop)

theorem hasBounds (h : 0 ≤ t) (h' : t < midnight lastDay) :
    HasBounds t (midnight (istDay t)) (midnight (istDay t + 1)) := by
  obtain ⟨hlow, hhigh⟩ := istDay_spec t
  unfold HasBounds
  rw [getDailyPeriodBounds_arith h h', getDailyPeriodBounds_of_day hlow hhigh]

theorem inOneDay (h : 0 ≤ t) (h' : t < midnight lastDay) : InOneDay t := by
  obtain ⟨hlow, hhigh⟩ := istDay_spec t
  refine ⟨_, _, hasBounds h h', hlow, hhigh, fun t' ht' => ?_⟩
  have hbelow : midnight (istDay t + 1) ≤ midnight lastDay :=
    midnight_le_iff.2 (Int.add_one_le_iff.2 (midnight_lt_iff.1 (hlow.trans_lt h')))
  constructor
  · rintro ⟨hstart, hstop⟩
    refine ⟨hstop.trans_le hbelow, ?_⟩
    unfold HasBounds
    rw [getDailyPeriodBounds_arith ht' (hstop.trans_le hbelow),
      getDailyPeriodBounds_of_day hstart hstop]
  · rintro ⟨hlast, hsame⟩
    have hown := (hasBounds ht' hlast).symm.trans hsame
    obtain ⟨hstart, hstop⟩ := Prod.ext_iff.1 (Option.some.inj hown)
    rw [← Option.some.inj hstart, ← Option.some.inj hstop]
    exact istDay_spec t'

/-- **An interval is split over its days**, up to the last day that a `Date` can end. -/
theorem online_seconds_split (hfrom : 0 ≤ fromMs) (hto : toMs ≤ midnight lastDay) :
    (∃ fuel out, allocateSecondsByPeriodStartMs fuel fromMs toMs = some out ∧
      SplitsByDay fromMs toMs out ∧ (fromMs ≤ toMs → SumsUp fromMs toMs out)) ∧
    ∀ t, 0 ≤ t → t < midnight lastDay → InOneDay t := by
  obtain ⟨fuel, hfuel⟩ := allocates hfrom hto
  exact ⟨⟨fuel, _, hfuel, splitsByDay_allocate fromMs toMs, sumsUp_allocate⟩,
    fun t h h' => inOneDay h h'⟩

theorem online_seconds_split_midnight :
    (0 : ℤ) ≤ 1783189740500 ∧ (1783189860400 : ℤ) ≤ midnight lastDay ∧
      ∃ fuel out, allocateSecondsByPeriodStartMs fuel 1783189740500 1783189860400 = some out ∧
        SplitsByDay 1783189740500 1783189860400 out ∧ SumsUp 1783189740500 1783189860400 out := by
  have hfrom : (0 : ℤ) ≤ 1783189740500 := by decide
  have hto : (1783189860400 : ℤ) ≤ midnight lastDay := by decide
  obtain ⟨⟨fuel, out, hout, hsplits, hsums⟩, -⟩ := online_seconds_split hfrom hto
  exact ⟨hfrom, hto, fuel, out, hout, hsplits, hsums (by decide)⟩

theorem secondsInside_of_le (h : midnight day ≤ fromMs) (h' : toMs ≤ midnight (day + 1)) :
    secondsInside fromMs toMs day = (toMs - fromMs).toNat / 1000 := by
  unfold secondsInside
  rw [card_millisecondsInside, min_eq_left h', max_eq_left h]

theorem allocateFrom_endless {start : ℤ} {out' : List CreatorDailyOnline}
    (hbounds : getDailyPeriodBoundsForInstant (timeClip cursor) = some (some start, none))
    (h : allocateFrom toMs fuel cursor out = some out') : out' = out := by
  cases fuel <;> simp_all [allocateFrom]

theorem last_day_lost :
    (¬∃ fuel out, allocateSecondsByPeriodStartMs fuel 8639999980200000 8639999980201000 = some out ∧
      SplitsByDay 8639999980200000 8639999980201000 out) ∧
    ¬∃ fuel out, allocateSecondsByPeriodStartMs fuel 1000 0 = some out ∧ SumsUp 1000 0 out := by
  constructor
  · rintro ⟨fuel, out, hout, hsplits⟩
    have hbounds : getDailyPeriodBoundsForInstant (timeClip 8639999980200000) =
        some (some (midnight lastDay), none) := by
      decide +kernel
    have hlength : (8639999980201000 - 8639999980200000 : ℤ).toNat = 1000 := by
      norm_num
      rfl
    have hnone : secondsAt (midnight lastDay) [] = 0 := rfl
    have hseconds := hsplits.seconds lastDay
    rw [allocateSecondsByPeriodStartMs, if_neg (by norm_num)] at hout
    rw [allocateFrom_endless hbounds hout, hnone, secondsInside_of_le (by decide) (by decide),
      hlength] at hseconds
    cases hseconds
  · rintro ⟨fuel, out, -, hmost, -⟩
    omega

end VibemeetBackend.Calendar
