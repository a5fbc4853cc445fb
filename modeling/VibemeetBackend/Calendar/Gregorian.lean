import Mathlib.Data.Nat.Find
import Mathlib.Tactic

/-!
# The proleptic Gregorian calendar

Days are counted from the first of January 1970, and years run on before the year 1 as 0, −1, …
-/

namespace VibemeetBackend.Calendar

variable {year year' n : ℤ} {month month' : ℕ}

/-! ### Years -/

def Leap (year : ℤ) : Prop := year % 4 = 0 ∧ (year % 100 ≠ 0 ∨ year % 400 = 0)

instance (year : ℤ) : Decidable (Leap year) := inferInstanceAs (Decidable (_ ∧ _))

def dayFromYear (year : ℤ) : ℤ :=
  365 * (year - 1970) + (year - 1969) / 4 - (year - 1901) / 100 + (year - 1601) / 400

/-- The days before a month of a common year, whose thirteenth month is the next January. -/
def commonDays : ℕ → ℤ
  | 2 => 31 | 3 => 59 | 4 => 90 | 5 => 120 | 6 => 151 | 7 => 181 | 8 => 212 | 9 => 243
  | 10 => 273 | 11 => 304 | 12 => 334 | 13 => 365 | _ => 0

def monthStart (year : ℤ) (month : ℕ) : ℤ :=
  commonDays month + if 3 ≤ month ∧ Leap year then 1 else 0

theorem monthStart_thirteen (year : ℤ) :
    monthStart year 13 = 365 + if Leap year then 1 else 0 := by
  simp [monthStart, commonDays]

theorem dayFromYear_succ (year : ℤ) :
    dayFromYear (year + 1) = dayFromYear year + monthStart year 13 := by
  rw [monthStart_thirteen]
  unfold dayFromYear
  by_cases h : Leap year
  · rw [if_pos h]
    unfold Leap at h
    omega
  · rw [if_neg h]
    unfold Leap at h
    omega

theorem dayFromYear_le (h : year < year') : dayFromYear (year + 1) ≤ dayFromYear year' := by
  unfold dayFromYear
  omega

def yearOf (n : ℤ) : ℤ :=
  let year := 1970 + 400 * n / 146097
  if dayFromYear (year + 1) ≤ n then year + 1 else if dayFromYear year ≤ n then year else year - 1

theorem yearOf_spec (n : ℤ) : dayFromYear (yearOf n) ≤ n ∧ n < dayFromYear (yearOf n + 1) := by
  unfold yearOf
  have hlow : dayFromYear (1970 + 400 * n / 146097 - 1) ≤ n := by
    unfold dayFromYear
    omega
  have hhigh : n < dayFromYear (1970 + 400 * n / 146097 + 1 + 1) := by
    unfold dayFromYear
    omega
  dsimp only
  split
  · rename_i h
    exact ⟨h, hhigh⟩
  · split <;> simp_all

theorem yearOf_unique (h : dayFromYear year ≤ n) (h' : n < dayFromYear (year + 1)) :
    yearOf n = year := by
  obtain ⟨hle, hlt⟩ := yearOf_spec n
  rcases lt_trichotomy (yearOf n) year with hyear | hyear | hyear
  · have := dayFromYear_le hyear
    omega
  · exact hyear
  · have := dayFromYear_le hyear
    omega

/-! ### Months -/

theorem monthStart_bounds (year : ℤ) (month : ℕ) :
    0 ≤ monthStart year month ∧ monthStart year month ≤ 366 := by
  have hcommon : 0 ≤ commonDays month ∧ commonDays month ≤ 365 := by
    unfold commonDays
    split <;> omega
  unfold monthStart
  split <;> omega

theorem monthStart_one (year : ℤ) : monthStart year 1 = 0 := rfl

theorem monthStart_lt (year : ℤ) (h : 1 ≤ month) (h' : month ≤ 12) :
    monthStart year month < monthStart year (month + 1) := by
  unfold monthStart
  interval_cases month <;> simp only [commonDays] <;> split <;> split <;> omega

theorem monthStart_le (year : ℤ) (h : 1 ≤ month) (hle : month ≤ month') (h' : month' ≤ 13) :
    monthStart year month ≤ monthStart year month' := by
  induction month', hle using Nat.le_induction with
  | base => exact le_rfl
  | succ month' hle ih =>
    exact (ih (by omega)).trans (monthStart_lt year (h.trans hle) (by omega)).le

def monthLength (year : ℤ) (month : ℕ) : ℤ := monthStart year (month + 1) - monthStart year month

theorem monthLength_le (year : ℤ) (h : 1 ≤ month) (h' : month ≤ 12) :
    monthLength year month ≤ 31 := by
  unfold monthLength monthStart
  by_cases hleap : Leap year
  · interval_cases month <;> simp [commonDays, hleap]
  · interval_cases month <;> simp [commonDays, hleap]

/-- The month of the `r`-th day of a year. -/
def monthOf (year r : ℤ) : ℕ := Nat.findGreatest (fun month => monthStart year month ≤ r) 12

theorem monthOf_spec {r : ℤ} (h : 0 ≤ r) (h' : r < monthStart year 13) :
    1 ≤ monthOf year r ∧ monthOf year r ≤ 12 ∧ monthStart year (monthOf year r) ≤ r ∧
      r < monthStart year (monthOf year r + 1) := by
  have hone : (fun month => monthStart year month ≤ r) 1 := h
  have hle : monthOf year r ≤ 12 := Nat.findGreatest_le 12
  refine ⟨Nat.le_findGreatest (by omega) hone, hle, ?_, ?_⟩
  · exact Nat.findGreatest_spec (P := fun month => monthStart year month ≤ r) (by omega) hone
  · by_contra hnot
    rcases Nat.lt_or_ge (monthOf year r) 12 with hlt | hge
    · exact Nat.findGreatest_is_greatest (P := fun month => monthStart year month ≤ r)
        (Nat.lt_succ_self _) hlt (not_lt.1 hnot)
    · rw [le_antisymm hle hge] at hnot
      exact hnot h'

/-! ### Dates -/

@[ext]
structure Date where
  year : ℤ
  month : ℕ
  day : ℕ
  one_le_month : 1 ≤ month
  month_le : month ≤ 12
  one_le_day : 1 ≤ day
  day_le : (day : ℤ) ≤ monthLength year month
  deriving DecidableEq

variable (d : Date)

namespace Date

variable {d d' : Date}

def toDay (d : Date) : ℤ := dayFromYear d.year + monthStart d.year d.month + d.day - 1

def ofDay (n : ℤ) : Date :=
  have hyear := yearOf_spec n
  have hsucc := dayFromYear_succ (yearOf n)
  have hmonth := @monthOf_spec (yearOf n) (n - dayFromYear (yearOf n)) (by omega) (by omega)
  { year := yearOf n
    month := monthOf (yearOf n) (n - dayFromYear (yearOf n))
    day := (n - dayFromYear (yearOf n) -
      monthStart (yearOf n) (monthOf (yearOf n) (n - dayFromYear (yearOf n))) + 1).toNat
    one_le_month := hmonth.1
    month_le := hmonth.2.1
    one_le_day := by omega
    day_le := by
      unfold monthLength
      omega }

theorem toDay_ofDay (n : ℤ) : (ofDay n).toDay = n := by
  have hyear := yearOf_spec n
  have hsucc := dayFromYear_succ (yearOf n)
  have hmonth := @monthOf_spec (yearOf n) (n - dayFromYear (yearOf n)) (by omega) (by omega)
  unfold toDay ofDay
  dsimp only
  omega

theorem dayFromYear_le_toDay : dayFromYear d.year ≤ d.toDay := by
  have hstart := monthStart_le d.year le_rfl d.one_le_month (d.month_le.trans (by omega))
  have hday := d.one_le_day
  rw [monthStart_one] at hstart
  unfold toDay
  omega

theorem toDay_lt_monthEnd : d.toDay < dayFromYear d.year + monthStart d.year (d.month + 1) := by
  have hday := d.day_le
  unfold monthLength at hday
  unfold toDay
  omega

theorem toDay_lt_dayFromYear : d.toDay < dayFromYear (d.year + 1) := by
  have hlt := d.toDay_lt_monthEnd
  have hmonth := d.month_le
  have hle : monthStart d.year (d.month + 1) ≤ monthStart d.year 13 :=
    monthStart_le d.year (by omega) (by omega) le_rfl
  rw [dayFromYear_succ]
  omega

def Before (d d' : Date) : Prop :=
  d.year < d'.year ∨ d.year = d'.year ∧
    (d.month < d'.month ∨ d.month = d'.month ∧ d.day < d'.day)

theorem Before.toDay_lt (h : d.Before d') : d.toDay < d'.toDay := by
  rcases h with hyear | ⟨hyear, hmonth | ⟨hmonth, hday⟩⟩
  · have hle := dayFromYear_le hyear
    have hlt := d.toDay_lt_dayFromYear
    have hge := d'.dayFromYear_le_toDay
    omega
  · have hlt := d.toDay_lt_monthEnd
    have hpos := d'.one_le_day
    have hmonth' := d'.month_le
    have hle : monthStart d.year (d.month + 1) ≤ monthStart d.year d'.month :=
      monthStart_le d.year (by omega) hmonth (by omega)
    unfold toDay at hlt ⊢
    rw [hyear] at hle hlt ⊢
    omega
  · unfold toDay
    rw [hyear, hmonth]
    omega

theorem before_trichotomy (d d' : Date) : d.Before d' ∨ d = d' ∨ d'.Before d := by
  unfold Before
  by_cases h : d.year = d'.year ∧ d.month = d'.month ∧ d.day = d'.day
  · exact .inr (.inl (Date.ext h.1 h.2.1 h.2.2))
  · omega

/-- **Dates are ordered by year, month and day.** -/
theorem toDay_lt_iff : d.toDay < d'.toDay ↔ d.Before d' := by
  constructor
  · intro h
    rcases before_trichotomy d d' with hbefore | rfl | hafter
    · exact hbefore
    · exact absurd h (lt_irrefl _)
    · exact absurd h hafter.toDay_lt.asymm
  · exact Before.toDay_lt

theorem toDay_injective : Function.Injective toDay := by
  intro d d' h
  rcases before_trichotomy d d' with hbefore | heq | hafter
  · exact absurd h hbefore.toDay_lt.ne
  · exact heq
  · exact absurd h hafter.toDay_lt.ne'

def equivDay : Date ≃ ℤ where
  toFun := toDay
  invFun := ofDay
  left_inv d := toDay_injective (toDay_ofDay d.toDay)
  right_inv := toDay_ofDay

theorem ofDay_toDay : ofDay d.toDay = d := equivDay.left_inv d

end Date

/-! ### Days of the month that run over -/

def makeDay (year month day : ℤ) : ℤ :=
  dayFromYear (year + month / 12) + monthStart (year + month / 12) ((month % 12).toNat + 1) +
    day - 1

theorem makeDay_date : makeDay d.year (d.month - 1) d.day = d.toDay := by
  have hone := d.one_le_month
  have hle := d.month_le
  have hdiv : ((d.month : ℤ) - 1) / 12 = 0 := by omega
  have hmod : (((d.month : ℤ) - 1) % 12).toNat + 1 = d.month := by omega
  unfold makeDay
  rw [hdiv, hmod, add_zero]
  rfl

end VibemeetBackend.Calendar
