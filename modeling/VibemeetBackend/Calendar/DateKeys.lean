import VibemeetBackend.Calendar.IstTime

/-!
# Which date keys the arithmetic is sound on

A key of eight digits is accepted whatever its month and its day.
-/

namespace VibemeetBackend.Calendar

open Checkin (istDay)
open Moments (Text)

variable {y m d : ℕ} {day days : ℤ} {toKey : Text}

variable {c c' : Date}

/-! ### Dates and their keys -/

namespace Date

def key (c : Date) : Text := digitsKey c.year.toNat c.month c.day

def HasKey (c : Date) : Prop := 1 ≤ c.year ∧ c.year ≤ 9999

theorem day_le_31 (c : Date) : c.day ≤ 31 := by
  have hlength := monthLength_le c.year c.one_le_month c.month_le
  have hday := c.day_le
  omega

theorem HasKey.valid (hc : c.HasKey) : isValidIstDateKey c.key = true := by
  have hday := c.day_le_31
  have hone := c.one_le_month
  have hone' := c.one_le_day
  have hmonth := c.month_le
  obtain ⟨hlow, hhigh⟩ := hc
  exact isValidIstDateKey_iff.2 ⟨_, _, _, by omega, by omega, by omega, rfl⟩

/-- **Keys are ordered as their dates.** -/
theorem key_lt_iff (hc : c.HasKey) (hc' : c'.HasKey) : c.key < c'.key ↔ c.toDay < c'.toDay := by
  have hday := c.day_le_31
  have hday' := c'.day_le_31
  have hmonth := c.month_le
  have hmonth' := c'.month_le
  obtain ⟨hlow, hhigh⟩ := hc
  obtain ⟨hlow', hhigh'⟩ := hc'
  rw [toDay_lt_iff]
  unfold key Before
  rw [digitsKey_lt (by omega) (by omega) (by omega) (by omega) (by omega) (by omega)]
  omega

theorem key_injective (hc : c.HasKey) (hc' : c'.HasKey) (h : c.key = c'.key) : c = c' := by
  apply toDay_injective
  apply le_antisymm
  · apply not_lt.1
    simp [← key_lt_iff hc' hc, h]
  · apply not_lt.1
    simp [← key_lt_iff hc hc', h]

theorem key_le_iff (hc : c.HasKey) (hc' : c'.HasKey) : c.key ≤ c'.key ↔ c.toDay ≤ c'.toDay := by
  rw [← not_lt, key_lt_iff hc' hc, not_lt]

theorem le_year_iff {year : ℤ} : year ≤ c.year ↔ dayFromYear year ≤ c.toDay := by
  have hlow := c.dayFromYear_le_toDay
  have hhigh := c.toDay_lt_dayFromYear
  constructor
  · intro h
    rcases h.eq_or_lt with rfl | hlt
    · exact hlow
    · have hle := dayFromYear_le hlt
      have hlength := monthStart_bounds year 13
      rw [dayFromYear_succ] at hle
      omega
  · intro h
    by_contra hlt
    have hle := dayFromYear_le (not_le.1 hlt)
    omega

theorem hasKey_iff : c.HasKey ↔ dayFromYear 1 ≤ c.toDay ∧ c.toDay < dayFromYear 10000 := by
  rw [← le_year_iff, ← not_le, ← le_year_iff]
  unfold HasKey
  omega

theorem keyDay_eq (c : Date) (h : 100 ≤ c.year) : keyDay c.year.toNat c.month c.day = c.toDay := by
  rw [← makeDay_date c]
  unfold keyDay century
  rw [if_neg (by omega), Int.toNat_of_nonneg (by omega)]

def printedYear (c : Date) : ℕ := (if c.year ≤ 0 then 1 - c.year else c.year).toNat

theorem printedYear_ofDay (n : ℤ) :
    (ofDay n).printedYear = (if yearOf n ≤ 0 then 1 - yearOf n else yearOf n).toNat := rfl

theorem dateText_eq (c : Date) (h : 1000 ≤ c.printedYear) (h' : c.printedYear ≤ 9999) :
    dateText c = digitsKey c.printedYear c.month c.day := by
  unfold dateText digitsKey
  rw [← toDigits_fourDigits h (by omega)]
  rfl

theorem dateText_key (c : Date) (h : 1000 ≤ c.year) (h' : c.year ≤ 9999) :
    dateText c = c.key := by
  have hprinted : c.printedYear = c.year.toNat := by
    unfold printedYear
    rw [if_neg (by omega)]
  rw [dateText_eq c (by omega) (by omega), hprinted, key]

end Date

variable {n : ℕ}

theorem toDigits_head (h : 1 ≤ n) : ∃ a text, Nat.toDigits 10 n = a :: text ∧ '0' < a := by
  induction n using Nat.strong_induction_on with
  | h n ih =>
    by_cases hsmall : n < 10
    · refine ⟨Nat.digitChar n, [], Nat.toDigits_of_lt_base hsmall, ?_⟩
      exact (digitChar_lt 0 (by omega) n hsmall).2 h
    · obtain ⟨a, text, htext, ha⟩ := ih (n / 10) (by omega) (by omega)
      refine ⟨a, text ++ [Nat.digitChar (n % 10)], ?_, ha⟩
      rw [Nat.toDigits_of_base_le (by omega) (by omega), htext, List.cons_append]

theorem dateText_head (c : Date) : ∃ a text, dateText c = a :: text ∧ '0' < a := by
  obtain ⟨a, text, htext, ha⟩ : ∃ a text, yearText c.year = a :: text ∧ '0' < a := by
    apply toDigits_head
    split <;> omega
  refine ⟨a, text ++ '-' :: (twoDigits c.month ++ '-' :: twoDigits c.day), ?_, ha⟩
  rw [dateText, htext, List.cons_append]

theorem ofDigitChars_yearText (c : Date) :
    Nat.ofDigitChars 10 (yearText c.year) 0 = c.printedYear :=
  Nat.ofDigitChars_ten_toDigits

theorem dateText_year {year month : Text} (hmonth : month.length = 6)
    (h : dateText c = year ++ month) : yearText c.year = year :=
  List.append_inj_left' h hmonth.symm

theorem printedYear_eq (h : dateText c = dateText c') : c.printedYear = c'.printedYear := by
  simp [← ofDigitChars_yearText, dateText_year rfl h]

theorem valid_dateText :
    isValidIstDateKey (dateText c) = true ↔ 1000 ≤ c.printedYear ∧ c.printedYear ≤ 9999 := by
  constructor
  · intro hvalid
    obtain ⟨y, m, d, hy, hm, hd, hkey⟩ := isValidIstDateKey_iff.1 hvalid
    have hyear : c.printedYear = y := by
      rw [← ofDigitChars_yearText, dateText_year rfl hkey, ofDigitChars_fourDigits (by omega)]
    refine ⟨?_, by omega⟩
    obtain ⟨a, text, htext, ha⟩ := dateText_head c
    rw [hkey] at htext
    obtain rfl : Nat.digitChar (y / 1000) = a := (List.cons_eq_cons.1 htext).1
    have hpos := (digitChar_lt 0 (by omega) (y / 1000) (by omega)).1 ha
    omega
  · rintro ⟨hlow, hhigh⟩
    have hday := c.day_le_31
    have hmonth := c.month_le
    rw [c.dateText_eq hlow hhigh]
    exact isValidIstDateKey_iff.2 ⟨_, _, _, by omega, ⟨c.one_le_month, by omega⟩,
      ⟨c.one_le_day, by omega⟩, rfl⟩

/-! ### The day of a key -/

/-- The key is accepted, and its day is `day`. -/
def KeyOf (key : Text) (day : ℤ) : Prop :=
  ∃ y m d, (1 ≤ y ∧ y ≤ 9999) ∧ (1 ≤ m ∧ m ≤ 99) ∧ (1 ≤ d ∧ d ≤ 99) ∧ key = digitsKey y m d ∧
    day = keyDay y m d

variable {key key₁ key₂ fromKey : Text}

theorem exists_keyOf (h : isValidIstDateKey key = true) : ∃ day, KeyOf key day := by
  obtain ⟨y, m, d, hy, hm, hd, rfl⟩ := isValidIstDateKey_iff.1 h
  exact ⟨_, y, m, d, hy, hm, hd, rfl, rfl⟩

namespace KeyOf

theorem bounds (h : KeyOf key day) : dayFromYear 100 ≤ day ∧ day < 4000000 := by
  obtain ⟨y, m, d, hy, hm, hd, -, rfl⟩ := h
  exact keyDay_bounds hy hm hd

theorem istDayBounds_eq (h : KeyOf key day) :
    istDayBounds key = some (some (midnight day), some (midnight (day + 1))) := by
  obtain ⟨y, m, d, hy, hm, hd, rfl, rfl⟩ := h
  exact istDayBounds_digitsKey hy hm hd

theorem addIstDays_eq (h : KeyOf key day) (days : ℤ) : addIstDays key days =
    if InRange (day + days) then some (dateText (Date.ofDay (day + days))) else none := by
  obtain ⟨y, m, d, hy, hm, hd, rfl, rfl⟩ := h
  exact addIstDays_digitsKey hy hm hd days

theorem of_date (h : 100 ≤ c.year) (h' : c.year ≤ 9999) : KeyOf c.key c.toDay := by
  have hday := c.day_le_31
  have hone := c.one_le_month
  have hone' := c.one_le_day
  have hmonth := c.month_le
  exact ⟨_, _, _, by omega, by omega, by omega, rfl, (c.keyDay_eq h).symm⟩

end KeyOf

/-! ### Round trips -/

/-- **A key is that of the start of its day when it is a date from the year 1000 on.** -/
theorem roundTrip_iff (h : isValidIstDateKey key = true) :
    ((istDayBounds key).bind fun bounds => istDateKey bounds.1) = some key ↔
      ∃ c : Date, 1000 ≤ c.year ∧ c.year ≤ 9999 ∧ key = c.key := by
  obtain ⟨day, hday⟩ := exists_keyOf h
  have hstart : ((istDayBounds key).bind fun bounds => istDateKey bounds.1) =
      some (dateText (Date.ofDay day)) := by
    rw [hday.istDayBounds_eq, Option.bind_some]
    show some (dateText (Date.ofDay (istDay (midnight day)))) = _
    rw [istDay_midnight]
  rw [hstart]
  constructor
  · intro heq
    have hkey := Option.some.inj heq
    rw [← hkey] at h
    obtain ⟨hlow, hhigh⟩ := valid_dateText.1 h
    have hyear : 100 ≤ (Date.ofDay day).year := by
      rw [Date.le_year_iff, Date.toDay_ofDay]
      exact hday.bounds.1
    unfold Date.printedYear at hlow hhigh
    refine ⟨Date.ofDay day, by omega, by omega, ?_⟩
    rw [← hkey, Date.dateText_key _ (by omega) (by omega)]
  · rintro ⟨c, hlow, hhigh, rfl⟩
    have hsame : day = c.toDay := by
      have hbounds := hday.istDayBounds_eq
      rw [(KeyOf.of_date (by omega) hhigh).istDayBounds_eq] at hbounds
      have hmidnight := Option.some.inj (Prod.ext_iff.1 (Option.some.inj hbounds)).1
      rw [← istDay_midnight day, ← hmidnight, istDay_midnight]
    rw [hsame, Date.ofDay_toDay, Date.dateText_key c hlow hhigh]

/-! ### Added days -/

/-- Days are added in two steps as in one, where the keys are accepted. -/
def Additive (key : Text) (a : ℤ) : Prop :=
  ∀ b key₁ key₂, addIstDays key a = some key₁ → isValidIstDateKey key₁ = true →
    addIstDays key (a + b) = some key₂ → isValidIstDateKey key₂ = true →
      addIstDays key₁ b = some key₂

/-- The `a`-th day after the start of a key is not before the year 1. -/
def InEra (key : Text) (a : ℤ) : Prop :=
  ∀ start stop, istDayBounds key = some (some start, stop) →
    1 ≤ (Date.ofDay (istDay start + a)).year

theorem inEra_iff {a : ℤ} (h : KeyOf key day) : InEra key a ↔ 1 ≤ (Date.ofDay (day + a)).year := by
  unfold InEra
  rw [h.istDayBounds_eq]
  constructor
  · intro hall
    have hyear := hall _ _ rfl
    rwa [istDay_midnight] at hyear
  · rintro hyear start stop heq
    obtain rfl := Option.some.inj (Prod.ext_iff.1 (Option.some.inj heq)).1
    rwa [istDay_midnight]

theorem additive_of_inEra {a : ℤ} (h : KeyOf key day)
    (hera : ∀ key₁, addIstDays key a = some key₁ → isValidIstDateKey key₁ = true → InEra key a) :
    Additive key a := by
  intro b key₁ key₂ h₁ hvalid₁ h₂ _
  have hyear := (inEra_iff h).1 (hera key₁ h₁ hvalid₁)
  rw [h.addIstDays_eq] at h₁ h₂
  obtain ⟨hrange₁, hkey₁⟩ := Option.ite_none_right_eq_some.1 h₁
  obtain ⟨hrange₂, hkey₂⟩ := Option.ite_none_right_eq_some.1 h₂
  have hkey₁ := Option.some.inj hkey₁
  rw [← hkey₁] at hvalid₁ ⊢
  obtain ⟨hlow, hhigh⟩ := valid_dateText.1 hvalid₁
  unfold Date.printedYear at hlow hhigh
  have hkeyOf : KeyOf (Date.ofDay (day + a)).key (Date.ofDay (day + a)).toDay :=
    .of_date (by omega) (by omega)
  rw [Date.dateText_key _ (by omega) (by omega), hkeyOf.addIstDays_eq, Date.toDay_ofDay, add_assoc,
    if_pos hrange₂]
  exact hkey₂

/-- The step from a date before the year 1 to another year: both ways of adding it are keys, of
different years. -/
theorem exists_step (hera : c.year ≤ 0) (hlow : 1000 ≤ c.printedYear)
    (hhigh : c.printedYear ≤ 9999) : ∃ b : ℤ, ∃ year : ℤ,
      keyDay c.printedYear c.month c.day + b = dayFromYear year ∧ 1001 ≤ year ∧ year ≤ 10000 ∧
        -5000000 < c.toDay + b ∧ c.toDay + b < 4000000 ∧
        1000 ≤ (Date.ofDay (c.toDay + b)).printedYear ∧
        (Date.ofDay (c.toDay + b)).printedYear ≤ 9999 ∧
        ((Date.ofDay (c.toDay + b)).printedYear : ℤ) ≠ year := by
  have hone := c.one_le_month
  have hmonth := c.month_le
  have hprinted : (c.printedYear : ℤ) = 1 - c.year := by
    unfold Date.printedYear
    omega
  have hday : keyDay c.printedYear c.month c.day =
      dayFromYear (1 - c.year) + monthStart (1 - c.year) c.month + c.day - 1 := by
    have hdiv : ((c.month : ℤ) - 1) / 12 = 0 := by omega
    have hmod : (((c.month : ℤ) - 1) % 12).toNat + 1 = c.month := by omega
    unfold keyDay makeDay century
    rw [if_neg (by omega), hdiv, hmod, add_zero, hprinted]
  have hleap : ∀ year, monthStart year c.month = commonDays c.month ∨
      monthStart year c.month = commonDays c.month + 1 := by
    intro year
    unfold monthStart
    split
    · exact .inr rfl
    · exact .inl (add_zero _)
  by_cases hfirst : c.year = -999
  · -- The year is printed as the first that a key has room for: a step of two thousand years.
    have hcommon : monthStart (-999) c.month = monthStart (1 - -999) c.month := by
      unfold monthStart
      rw [if_neg fun h => absurd h.2 (by decide), if_neg fun h => absurd h.2 (by decide)]
    refine ⟨dayFromYear 3001 - keyDay c.printedYear c.month c.day, 3001, by omega, by omega,
      by omega, ?_⟩
    have hsum : c.toDay + (dayFromYear 3001 - keyDay c.printedYear c.month c.day) =
        dayFromYear 3001 - dayFromYear 1000 + dayFromYear (-999) := by
      rw [hday]
      unfold Date.toDay
      rw [hfirst, hcommon, sub_neg_eq_add]
      norm_num
      ring
    have hyear : yearOf (dayFromYear 3001 - dayFromYear 1000 + dayFromYear (-999)) = 1002 := by
      decide
    rw [hsum, Date.printedYear_ofDay, hyear]
    unfold dayFromYear
    omega
  · refine ⟨dayFromYear (1 - c.year + 1) - keyDay c.printedYear c.month c.day, 1 - c.year + 1,
      by omega, by omega, by omega, ?_⟩
    have hsum : c.toDay + (dayFromYear (1 - c.year + 1) - keyDay c.printedYear c.month c.day) =
        dayFromYear c.year + monthStart c.year c.month - monthStart (1 - c.year) c.month +
          monthStart (1 - c.year) 13 := by
      rw [hday, dayFromYear_succ]
      unfold Date.toDay
      ring
    have hnext : yearOf (c.toDay + (dayFromYear (1 - c.year + 1) -
        keyDay c.printedYear c.month c.day)) = c.year ∨
        yearOf (c.toDay + (dayFromYear (1 - c.year + 1) - keyDay c.printedYear c.month c.day)) =
          c.year + 1 := by
      rw [hsum]
      have hlength := monthStart_thirteen (1 - c.year)
      have hlength' := dayFromYear_succ c.year
      rw [monthStart_thirteen] at hlength'
      by_cases hlt : dayFromYear c.year + monthStart c.year c.month -
          monthStart (1 - c.year) c.month + monthStart (1 - c.year) 13 < dayFromYear (c.year + 1)
      · left
        apply yearOf_unique
        · have hshort := hleap c.year
          have hshort' := hleap (1 - c.year)
          split at hlength <;> omega
        · exact hlt
      · right
        apply yearOf_unique (not_lt.1 hlt)
        have hsecond := dayFromYear_succ (c.year + 1)
        rw [monthStart_thirteen] at hsecond
        have hshort := hleap c.year
        have hshort' := hleap (1 - c.year)
        split at hlength <;> split at hlength' <;> split at hsecond <;> omega
    have hbounds : -4900000 < dayFromYear c.year ∧ dayFromYear c.year < 0 := by
      unfold dayFromYear
      omega
    have hshort := hleap c.year
    have hshort' := hleap (1 - c.year)
    have hlength := monthStart_bounds (1 - c.year) 13
    rw [Date.printedYear_ofDay]
    refine ⟨by omega, by omega, ?_⟩
    rcases hnext with hnext | hnext
    · omega
    · rw [hnext, if_pos (by omega)]
      omega

/-- **Days add up**, but not before the year 1. -/
theorem additive_iff {a : ℤ} (h : isValidIstDateKey key = true) : Additive key a ↔
    ∀ key₁, addIstDays key a = some key₁ → isValidIstDateKey key₁ = true → InEra key a := by
  obtain ⟨day, hday⟩ := exists_keyOf h
  refine ⟨?_, additive_of_inEra hday⟩
  intro hadd key₁ h₁ hvalid₁
  by_contra hnot
  rw [inEra_iff hday] at hnot
  have hstep := h₁
  rw [hday.addIstDays_eq] at hstep
  obtain ⟨-, hkey₁⟩ := Option.ite_none_right_eq_some.1 hstep
  cases hkey₁
  obtain ⟨hlow, hhigh⟩ := valid_dateText.1 hvalid₁
  obtain ⟨b, year, hb, hlow', hhigh', hleft, hright, hpos, htop, hne⟩ :=
    exists_step (by omega) hlow hhigh
  rw [Date.toDay_ofDay] at hleft hright hpos htop hne
  have h₂ : addIstDays key (a + b) = some (dateText (Date.ofDay (day + a + b))) := by
    rw [hday.addIstDays_eq, ← add_assoc]
    exact if_pos (by unfold InRange; omega)
  have hsum := hadd b _ _ h₁ hvalid₁ h₂ (valid_dateText.2 ⟨hpos, htop⟩)
  have hday' := (Date.ofDay (day + a)).day_le_31
  have hmonth' := (Date.ofDay (day + a)).month_le
  rw [Date.dateText_eq _ hlow hhigh, addIstDays_digitsKey (by omega)
    ⟨(Date.ofDay (day + a)).one_le_month, by omega⟩ ⟨(Date.ofDay (day + a)).one_le_day, by omega⟩,
    hb] at hsum
  have hyear := printedYear_eq (Option.some.inj (Option.ite_none_right_eq_some.1 hsum).2)
  apply hne
  have hfirst : yearOf (dayFromYear year) = year := by
    apply yearOf_unique le_rfl
    have hlength := monthStart_thirteen year
    rw [dayFromYear_succ]
    split at hlength <;> omega
  rw [← hyear, Date.printedYear_ofDay, hfirst, if_neg (by omega)]
  omega

/-! ### Ranges -/

def IsCalendarKey (key : Text) : Prop := ∃ c : Date, c.HasKey ∧ key = c.key

/-- The calendar dates from one key to another, in order, each once. -/
structure Listed (fromKey toKey : Text) (keys : List Text) : Prop where
  mem_iff : ∀ key, key ∈ keys ↔ IsCalendarKey key ∧ fromKey ≤ key ∧ key ≤ toKey
  rising : keys.Pairwise (· < ·)

def ListsRange (fromKey toKey : Text) : Prop :=
  ∃ fuel keys, iterIstDateKeys toKey fuel fromKey = some keys ∧ Listed fromKey toKey keys

def lastKey : Text := digitsKey 9999 12 31

theorem listed_nil (h : ¬ fromKey ≤ toKey) : Listed fromKey toKey [] where
  mem_iff key := by
    grind
  rising := List.Pairwise.nil

variable {keys : List Text}

theorem listed_cons (hc : c.HasKey) (hc' : c'.HasKey) (hnext : c'.toDay = c.toDay + 1)
    (hle : c.key ≤ toKey) (h : Listed c'.key toKey keys) :
    Listed c.key toKey (c.key :: keys) where
  mem_iff key := by
    rw [List.mem_cons, h.mem_iff]
    constructor
    · rintro (rfl | ⟨⟨x, hx, rfl⟩, hfrom, hto⟩)
      · exact ⟨⟨c, hc, rfl⟩, le_rfl, hle⟩
      · rw [Date.key_le_iff hc' hx] at hfrom
        refine ⟨⟨x, hx, rfl⟩, ?_, hto⟩
        rw [Date.key_le_iff hc hx]
        omega
    · rintro ⟨⟨x, hx, rfl⟩, hfrom, hto⟩
      rw [Date.key_le_iff hc hx] at hfrom
      rcases hfrom.eq_or_lt with heq | hlt
      · exact .inl (congrArg Date.key (Date.toDay_injective heq).symm)
      · refine .inr ⟨⟨x, hx, rfl⟩, ?_, hto⟩
        rw [Date.key_le_iff hc' hx]
        omega
  rising := by
    rw [List.pairwise_cons]
    refine ⟨?_, h.rising⟩
    intro key hkey
    obtain ⟨⟨x, hx, rfl⟩, hfrom, -⟩ := (h.mem_iff key).1 hkey
    rw [Date.key_le_iff hc' hx] at hfrom
    rw [Date.key_lt_iff hc hx]
    omega

def lastDate : Date := Date.ofDay (dayFromYear 10000 - 1)

theorem lastDate_key : lastDate.key = lastKey := by decide +kernel

theorem lastDate_toDay : lastDate.toDay = dayFromYear 10000 - 1 := Date.toDay_ofDay _

theorem lastDate_hasKey : lastDate.HasKey := ⟨by decide +kernel, by decide +kernel⟩

theorem iterIstDateKeys_of_lt (h : toKey < key) : iterIstDateKeys toKey (n + 1) key = some [] := by
  rw [iterIstDateKeys, if_neg (not_le.2 h)]

theorem iterIstDateKeys_of_le {next : Text} (h : key ≤ toKey)
    (hnext : addIstDays key 1 = some next) :
    iterIstDateKeys toKey (n + 1) key = (iterIstDateKeys toKey n next).map (key :: ·) := by
  rw [iterIstDateKeys, if_pos h, hnext]
  show ((iterIstDateKeys toKey n next).bind fun keys => some (key :: keys)) = _
  cases iterIstDateKeys toKey n next with
  | _ => rfl

theorem addIstDays_one (h : 100 ≤ c.year) (h' : c.HasKey) :
    addIstDays c.key 1 = some (dateText (Date.ofDay (c.toDay + 1))) := by
  have hday := KeyOf.of_date h h'.2
  rw [hday.addIstDays_eq]
  obtain ⟨hlow, hhigh⟩ := hday.bounds
  apply if_pos
  unfold dayFromYear at hlow
  unfold InRange
  omega

theorem next_key (h : dayFromYear 1000 - 1 ≤ c.toDay) (hlt : c.toDay < lastDate.toDay) :
    (Date.ofDay (c.toDay + 1)).HasKey ∧
      dateText (Date.ofDay (c.toDay + 1)) = (Date.ofDay (c.toDay + 1)).key := by
  rw [lastDate_toDay] at hlt
  have hone : dayFromYear 1 ≤ dayFromYear 1000 := by decide
  have hkey : (Date.ofDay (c.toDay + 1)).HasKey := by
    rw [Date.hasKey_iff, Date.toDay_ofDay]
    omega
  refine ⟨hkey, Date.dateText_key _ ?_ hkey.2⟩
  rw [Date.le_year_iff, Date.toDay_ofDay]
  omega

theorem lists_of_date (hto : toKey < lastKey) (n : ℕ) (hc : c.HasKey)
    (hstart : dayFromYear 1000 - 1 ≤ c.toDay) (hn : lastDate.toDay - c.toDay ≤ n) :
    ∃ keys, iterIstDateKeys toKey (n + 1) c.key = some keys ∧ Listed c.key toKey keys := by
  have hyear : 100 ≤ c.year := by
    rw [Date.le_year_iff]
    have hle : dayFromYear 100 ≤ dayFromYear 1000 - 1 := by decide
    omega
  have hdone : ∀ n, toKey < c.key →
      ∃ keys, iterIstDateKeys toKey (n + 1) c.key = some keys ∧ Listed c.key toKey keys :=
    fun n h => ⟨[], iterIstDateKeys_of_lt h, listed_nil (not_le.2 h)⟩
  rw [← lastDate_key] at hto
  induction n generalizing c with
  | zero =>
    apply hdone
    apply hto.trans_le
    rw [Date.key_le_iff lastDate_hasKey hc]
    omega
  | succ n ih =>
    rcases lt_or_ge toKey c.key with hlt | hle
    · exact hdone _ hlt
    · have hbefore : c.toDay < lastDate.toDay :=
        (Date.key_lt_iff hc lastDate_hasKey).1 (hle.trans_lt hto)
      obtain ⟨hnext, htext⟩ := next_key hstart hbefore
      have hday := Date.toDay_ofDay (c.toDay + 1)
      obtain ⟨keys, hkeys, hlisted⟩ := ih hnext (by omega) (by omega) (by
        rw [Date.le_year_iff] at hyear ⊢
        omega) fun n h => ⟨[], iterIstDateKeys_of_lt h, listed_nil (not_le.2 h)⟩
      refine ⟨c.key :: keys, ?_, listed_cons hc hnext hday hle hlisted⟩
      rw [iterIstDateKeys_of_le hle (addIstDays_one hyear hc), htext, hkeys]
      rfl

theorem mem_self (hle : key ≤ toKey) (h : iterIstDateKeys toKey n key = some keys) :
    key ∈ keys := by
  cases n with
  | zero => cases h
  | succ n =>
    rw [iterIstDateKeys, if_pos hle] at h
    obtain ⟨next, -, hbind⟩ := Option.bind_eq_some_iff.1 h
    obtain ⟨rest, -, heq⟩ := Option.bind_eq_some_iff.1 hbind
    cases heq
    exact List.mem_cons_self

theorem mem_iterIstDateKeys {cur : Text} (h : iterIstDateKeys toKey n cur = some keys)
    (hkey : key ∈ keys) : key = cur ∨ ∃ c : Date, key = dateText c := by
  induction n generalizing cur keys with
  | zero => cases h
  | succ n ih =>
    rw [iterIstDateKeys] at h
    split at h
    · obtain ⟨next, hnext, hbind⟩ := Option.bind_eq_some_iff.1 h
      obtain ⟨rest, hrest, heq⟩ := Option.bind_eq_some_iff.1 hbind
      cases heq
      rcases List.mem_cons.1 hkey with hfirst | hlater
      · exact .inl hfirst
      · right
        rcases ih hrest hlater with rfl | hprinted
        · obtain ⟨bounds, -, hadded⟩ := Option.bind_eq_some_iff.1 hnext
          obtain ⟨t, -, htext⟩ := Option.map_eq_some_iff.1 hadded
          exact ⟨_, htext.symm⟩
        · exact hprinted
    · cases h
      cases hkey

theorem lt_dateText {x : Date} (h : c.year ≤ 999) (hto : key ≤ c.key) : key < dateText x := by
  obtain ⟨a, text, htext, ha⟩ := dateText_head x
  have hzero : c.key = '0' :: c.key.tail := by
    have hdigit : c.year.toNat / 1000 = 0 := by omega
    unfold Date.key digitsKey fourDigits
    rw [hdigit]
    rfl
  apply hto.trans_lt
  rw [hzero, htext, List.cons_lt_cons_iff]
  exact .inl ha

theorem overrun (hto : lastKey ≤ toKey) (hc : c.HasKey) (hstart : dayFromYear 1000 - 1 ≤ c.toDay)
    (h : iterIstDateKeys toKey n c.key = some keys) :
    dateText (Date.ofDay (dayFromYear 10000)) ∈ keys := by
  have hyear : 100 ≤ c.year := by
    rw [Date.le_year_iff]
    have hle : dayFromYear 100 ≤ dayFromYear 1000 - 1 := by decide
    omega
  induction n generalizing c keys with
  | zero => cases h
  | succ n ih =>
    have hlast : c.toDay ≤ lastDate.toDay := by
      have hbefore := (Date.hasKey_iff.1 hc).2
      rw [lastDate_toDay]
      omega
    have hle : c.key ≤ toKey := by
      apply le_trans _ hto
      rw [← lastDate_key, Date.key_le_iff hc lastDate_hasKey]
      exact hlast
    rw [iterIstDateKeys_of_le hle (addIstDays_one hyear hc)] at h
    obtain ⟨rest, hrest, rfl⟩ := Option.map_eq_some_iff.1 h
    apply List.mem_cons_of_mem
    rcases hlast.eq_or_lt with heq | hlt
    · rw [heq, lastDate_toDay, Int.sub_add_cancel] at hrest
      have hover : dateText (Date.ofDay (dayFromYear 10000)) < lastKey := by decide +kernel
      exact mem_self (hover.le.trans hto) hrest
    · obtain ⟨hnext, htext⟩ := next_key hstart hlt
      rw [htext] at hrest
      have hday := Date.toDay_ofDay (c.toDay + 1)
      apply ih hnext _ hrest
      · rw [Date.le_year_iff] at hyear ⊢
        omega
      · omega

theorem next_early (hc : c.HasKey) (h : c.toDay < dayFromYear 1000 - 1) :
    (Date.ofDay (c.toDay + 1)).HasKey ∧ (Date.ofDay (c.toDay + 1)).year ≤ 999 := by
  have hday := Date.toDay_ofDay (c.toDay + 1)
  have hyears : dayFromYear 1000 < dayFromYear 10000 := by decide
  have hlow := (Date.hasKey_iff.1 hc).1
  constructor
  · rw [Date.hasKey_iff]
    omega
  · by_contra hlate
    have hyear : 1000 ≤ (Date.ofDay (c.toDay + 1)).year := by omega
    rw [Date.le_year_iff] at hyear
    omega

theorem lists_single (hc : c.HasKey) (hearly : c.toDay < dayFromYear 1000 - 1)
    (hle : c.key ≤ toKey) (hto : toKey < (Date.ofDay (c.toDay + 1)).key) :
    ListsRange c.key toKey := by
  have hday := Date.toDay_ofDay (c.toDay + 1)
  obtain ⟨hnext, hyear⟩ := next_early hc hearly
  obtain ⟨day, hkey⟩ := exists_keyOf hc.valid
  have hadd : addIstDays c.key 1 = some (dateText (Date.ofDay (day + 1))) := by
    obtain ⟨hlow, hhigh⟩ := hkey.bounds
    rw [hkey.addIstDays_eq]
    apply if_pos
    unfold dayFromYear at hlow
    unfold InRange
    omega
  refine ⟨2, [c.key], ?_, ?_⟩
  · rw [iterIstDateKeys_of_le hle hadd, iterIstDateKeys_of_lt (lt_dateText hyear hto.le)]
    rfl
  · exact listed_cons hc hnext hday hle (listed_nil (not_le.2 hto))

/-- **Which ranges are listed exactly.** -/
theorem lists_iff (hfrom : isValidIstDateKey fromKey = true) : ListsRange fromKey toKey ↔
    toKey < fromKey ∨ ∃ c : Date, c.HasKey ∧ fromKey = c.key ∧ toKey < lastKey ∧
      (dayFromYear 1000 - 1 ≤ c.toDay ∨ toKey < (Date.ofDay (c.toDay + 1)).key) := by
  constructor
  · rintro ⟨n, keys, hkeys, hlisted⟩
    rcases lt_or_ge toKey fromKey with hlt | hle
    · exact .inl hlt
    obtain ⟨⟨c, hc, rfl⟩, -, -⟩ := (hlisted.mem_iff fromKey).1 (mem_self hle hkeys)
    have hday := Date.toDay_ofDay (c.toDay + 1)
    refine .inr ⟨c, hc, rfl, ?_⟩
    by_cases hstart : dayFromYear 1000 - 1 ≤ c.toDay
    · refine ⟨?_, .inl hstart⟩
      by_contra hlate
      have hmem := overrun (not_lt.1 hlate) hc hstart hkeys
      obtain ⟨x, hx, hkey⟩ := ((hlisted.mem_iff _).1 hmem).1
      have hvalid := hx.valid
      rw [← hkey, valid_dateText] at hvalid
      revert hvalid
      decide +kernel
    · obtain ⟨hnext, hyear⟩ := next_early hc (not_le.1 hstart)
      have hto : toKey < (Date.ofDay (c.toDay + 1)).key := by
        by_contra hlate
        have hle' := (Date.key_le_iff hc hnext).2 (by omega)
        have hmem := (hlisted.mem_iff _).2 ⟨⟨_, hnext, rfl⟩, hle', not_lt.1 hlate⟩
        rcases mem_iterIstDateKeys hkeys hmem with heq | ⟨x, heq⟩
        · have hsame := congrArg Date.toDay (Date.key_injective hnext hc heq)
          omega
        · exact absurd heq (lt_dateText hyear le_rfl).ne
      refine ⟨hto.trans_le ?_, .inr hto⟩
      have hyears : dayFromYear 1000 < dayFromYear 10000 := by decide
      rw [← lastDate_key, Date.key_le_iff hnext lastDate_hasKey, lastDate_toDay]
      omega
  · rintro (hlt | ⟨c, hc, rfl, hto, hstart⟩)
    · exact ⟨1, [], iterIstDateKeys_of_lt hlt, listed_nil (not_le.2 hlt)⟩
    · rcases lt_or_ge toKey c.key with hlt | hle
      · exact ⟨1, [], iterIstDateKeys_of_lt hlt, listed_nil (not_le.2 hlt)⟩
      by_cases hearly : c.toDay < dayFromYear 1000 - 1
      · exact lists_single hc hearly hle (hstart.resolve_left (by omega))
      · obtain ⟨keys, hkeys, hlisted⟩ := lists_of_date hto (lastDate.toDay - c.toDay).toNat hc
          (by omega) (by omega)
        exact ⟨_, keys, hkeys, hlisted⟩

/-- **On which accepted keys the arithmetic is sound**: a key comes back from its day when it is a
date from the year 1000 on; days add up in two steps as in one unless the first leads before the
year 1; and a range is listed exactly when it is empty, or begins with a date, ends before
9999-12-31 and has no second date unless that is printed with four digits. -/
theorem date_keys_sound_iff {key : Text} (hkey : isValidIstDateKey key = true) (a : ℤ)
    (toKey : Text) :
    (((istDayBounds key).bind fun bounds => istDateKey bounds.1) = some key ↔
      ∃ c : Date, 1000 ≤ c.year ∧ c.year ≤ 9999 ∧ key = c.key) ∧
    (Additive key a ↔
      ∀ key₁, addIstDays key a = some key₁ → isValidIstDateKey key₁ = true → InEra key a) ∧
    (isValidIstDateKey toKey = true →
      (ListsRange key toKey ↔ toKey < key ∨ ∃ c : Date, c.HasKey ∧ key = c.key ∧
        toKey < lastKey ∧
          (dayFromYear 1000 - 1 ≤ c.toDay ∨ toKey < (Date.ofDay (c.toDay + 1)).key))) := by
  refine ⟨?_, ?_, ?_⟩
  · exact roundTrip_iff hkey
  · exact additive_iff hkey
  · intro _
    exact lists_iff hkey

def july : Date := Date.ofDay 20637

theorem july_sound :
    isValidIstDateKey july.key = true ∧ july.key = "2026-07-03".toList ∧
      ((istDayBounds july.key).bind fun bounds => istDateKey bounds.1) = some july.key ∧
      ListsRange july.key "2026-07-05".toList := by
  have hkey : july.key = "2026-07-03".toList := by decide +kernel
  have hyear : july.year = 2026 := by decide +kernel
  have hvalid : isValidIstDateKey july.key = true := by decide +kernel
  have hsound := date_keys_sound_iff hvalid 0 "2026-07-05".toList
  refine ⟨hvalid, hkey, ?_, ?_⟩
  · exact hsound.1.2 ⟨july, by omega, by omega, rfl⟩
  · apply (hsound.2.2 (by decide +kernel)).2
    refine .inr ⟨july, ⟨by omega, by omega⟩, rfl, by decide +kernel, .inl ?_⟩
    decide +kernel

/-- The 31st of February is accepted and rolls over; the days up to the day that it stands for are
left out; and a key that is two thousand years before the year 1 is taken for another. -/
theorem impossible_date_accepted :
    (¬ ∀ key, isValidIstDateKey key = true →
      ((istDayBounds key).bind fun bounds => istDateKey bounds.1) = some key) ∧
    iterIstDateKeys "2026-03-03".toList 2 "2026-02-31".toList = some ["2026-02-31".toList] ∧
    addIstDays "2026-07-05".toList (-1470000) = some "2000-10-14".toList ∧
    addIstDays "2000-10-14".toList 366 = some "2001-10-15".toList ∧
    addIstDays "2026-07-05".toList (-1470000 + 366) = some "1999-10-15".toList := by
  refine ⟨?_, ?_, ?_, ?_, ?_⟩
  · intro h
    have hback := h "2026-02-31".toList (by decide +kernel)
    revert hback
    decide +kernel
  · decide +kernel
  · decide +kernel
  · decide +kernel
  · decide +kernel

end VibemeetBackend.Calendar
