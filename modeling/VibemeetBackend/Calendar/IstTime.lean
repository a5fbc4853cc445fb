import Mathlib.Data.Char
import Mathlib.Data.List.Lex
import VibemeetBackend.Calendar.Gregorian
import VibemeetBackend.Checkin.Service
import VibemeetBackend.Moments.Cursor

/-!
# Dates and date keys in IST

`utils/ist-time.ts`: the bounds of an IST day, the key of an instant, days added to a key, the keys
of a range and the check of a key.  A `Date` is its time value, and none when it is invalid; a
function that throws gives no result.

`Intl` takes Asia/Kolkata five and a half hours ahead of UTC, prints years without padding and
counts those before the year 1 backwards.
-/

namespace VibemeetBackend.Calendar

open Checkin (istDay istOffsetMs msPerDay)
open Moments (Text finiteNumber)

/-! ### Dates of ECMAScript -/

def maxTime : ℤ := 8640000000000000

def timeClip (t : ℤ) : Option ℤ := if -maxTime ≤ t ∧ t ≤ maxTime then some t else none

/-- `ToIntegerOrInfinity`, of a finite number. -/
def truncate (x : ℚ) : ℤ := if x < 0 then -⌊-x⌋ else ⌊x⌋

/-- `Date.UTC`, at midnight: the years from 0 to 99 are those of the twentieth century. -/
def dateUTC (year month day : ℚ) : Option ℤ :=
  let y := truncate year
  timeClip (msPerDay *
    makeDay (if 0 ≤ y ∧ y ≤ 99 then 1900 + y else y) (truncate month) (truncate day))

/-! ### Keys -/

def twoDigits (n : ℕ) : Text := [Nat.digitChar (n / 10), Nat.digitChar (n % 10)]

def fourDigits (n : ℕ) : Text :=
  [Nat.digitChar (n / 1000), Nat.digitChar (n / 100 % 10), Nat.digitChar (n / 10 % 10),
    Nat.digitChar (n % 10)]

def yearText (year : ℤ) : Text := Nat.toDigits 10 (if year ≤ 0 then 1 - year else year).toNat

def dateText (d : Date) : Text :=
  yearText d.year ++ '-' :: (twoDigits d.month ++ '-' :: twoDigits d.day)

def istDateKey (date : Option ℤ) : Option Text := date.map fun t => dateText (Date.ofDay (istDay t))

def istDayBounds (dateKey : Text) : Option (Option ℤ × Option ℤ) :=
  match (dateKey.splitOn '-').map finiteNumber with
  | some y :: some m :: some d :: _ =>
    if y = 0 ∨ m = 0 ∨ d = 0 then none
    else
      let start := (dateUTC y (m - 1) d).bind fun t => timeClip (t - istOffsetMs)
      some (start, start.bind fun t => timeClip (t + msPerDay))
  | _ => none

def addIstDays (dateKey : Text) (days : ℤ) : Option Text := do
  let (start, _) ← istDayBounds dateKey
  istDateKey (start.bind fun t => timeClip (t + days * msPerDay))

/-- `iterIstDateKeys`, when the loop ends within `fuel` comparisons. -/
def iterIstDateKeys (toKey : Text) : ℕ → Text → Option (List Text)
  | 0, _ => none
  | fuel + 1, cur =>
    if cur ≤ toKey then do
      let next ← addIstDays cur 1
      let keys ← iterIstDateKeys toKey fuel next
      return cur :: keys
    else some []

/-- `IST_DATE_KEY_RE.test`. -/
def matchesKey : Text → Bool
  | [a, b, c, d, '-', e, f, '-', g, h] => [a, b, c, d, e, f, g, h].all Char.isDigit
  | _ => false

def isValidIstDateKey (value : Text) : Bool := matchesKey value && (istDayBounds value).isSome

example : istDateKey (some 1783191600000) = some "2026-07-05".toList ∧
    istDayBounds "2026-07-05".toList = some (some 1783189800000, some 1783276200000) ∧
    addIstDays "2026-07-04".toList 1 = some "2026-07-05".toList ∧
    iterIstDateKeys "2026-07-05".toList 4 "2026-07-03".toList =
      some ["2026-07-03".toList, "2026-07-04".toList, "2026-07-05".toList] := by
  decide +kernel

/-! ### Digits -/

theorem digitChar_lt : ∀ a < 10, ∀ b < 10, (Nat.digitChar a < Nat.digitChar b ↔ a < b) := by decide

theorem digitChar_inj : ∀ a < 10, ∀ b < 10, (Nat.digitChar a = Nat.digitChar b ↔ a = b) := by decide

theorem digitChar_spec :
    ∀ a < 10, (Nat.digitChar a).isDigit = true ∧ (Nat.digitChar a).toNat = 48 + a := by
  decide

theorem exists_digitChar {c : Char} (h : c.isDigit = true) : ∃ a < 10, c = Nat.digitChar a := by
  obtain ⟨-, hlt⟩ := Moments.digitValue_of_isDigit h
  have hcode : 48 ≤ c.toNat ∧ c.toNat ≤ 57 := by
    simpa [Char.isDigit, Char.le_def, UInt32.le_iff_toNat_le] using h
  refine ⟨c.toNat - 48, hlt, ?_⟩
  apply Char.toNat_inj.1
  rw [(digitChar_spec _ hlt).2]
  omega

variable {n : ℕ}

theorem isDigit_fourDigits (hn : n < 10000) : ∀ c ∈ fourDigits n, c.isDigit = true := by
  have h := fun a ha => (digitChar_spec a ha).1
  simp only [fourDigits, List.forall_mem_cons, List.not_mem_nil, false_implies, implies_true,
    and_true]
  exact ⟨h _ (by omega), h _ (by omega), h _ (by omega), h _ (by omega)⟩

theorem isDigit_twoDigits (hn : n < 100) : ∀ c ∈ twoDigits n, c.isDigit = true := by
  have h := fun a ha => (digitChar_spec a ha).1
  simp only [twoDigits, List.forall_mem_cons, List.not_mem_nil, false_implies, implies_true,
    and_true]
  exact ⟨h _ (by omega), h _ (by omega)⟩

variable {text : Text}

theorem finiteNumber_digits (hne : text ≠ []) (h : ∀ c ∈ text, c.isDigit = true) :
    finiteNumber text = some ((Nat.ofDigitChars 10 text 0 : ℕ) : ℚ) := by
  have hsign : ∀ c ds, text = c :: ds → c ≠ '-' ∧ c ≠ '+' ∧ Moments.radixOf c = none := by
    rintro c ds rfl
    have hc : c.isDigit = true := h c List.mem_cons_self
    refine ⟨?_, ?_, Moments.Printed.radixOf (.inl hc)⟩
    · rintro rfl
      cases hc
    · rintro rfl
      cases hc
  rw [finiteNumber, Moments.trim_printed fun c hc => .inl (h c hc)]
  have hsigned : Moments.signedDecimal text = some ((Nat.ofDigitChars 10 text 0 : ℕ) : ℚ) := by
    rw [← Moments.unsignedDecimal_digits hne h]
    apply Moments.signedDecimal.eq_3
    · rintro ds rfl
      exact (hsign _ _ rfl).1 rfl
    · rintro ds rfl
      exact (hsign _ _ rfl).2.1 rfl
  split
  · exact absurd rfl hne
  · rename_i c ds
    have hc : c.isDigit = true := h c (List.mem_cons_of_mem _ List.mem_cons_self)
    rw [Moments.Printed.radixOf (.inl hc)]
    exact hsigned
  · exact hsigned

theorem ofDigitChars_fourDigits (hn : n < 10000) : Nat.ofDigitChars 10 (fourDigits n) 0 = n := by
  have h := fun a ha => (digitChar_spec a ha).2
  rw [fourDigits]
  simp only [Nat.ofDigitChars_cons, Nat.ofDigitChars_nil]
  rw [h _ (by omega), h _ (by omega), h _ (by omega), h _ (by omega)]
  show 10 * (10 * (10 * (10 * 0 + (48 + _ - 48)) + (48 + _ - 48)) + (48 + _ - 48)) +
    (48 + _ - 48) = n
  omega

theorem ofDigitChars_twoDigits (hn : n < 100) : Nat.ofDigitChars 10 (twoDigits n) 0 = n := by
  have h := fun a ha => (digitChar_spec a ha).2
  rw [twoDigits]
  simp only [Nat.ofDigitChars_cons, Nat.ofDigitChars_nil]
  rw [h _ (by omega), h _ (by omega)]
  show 10 * (10 * 0 + (48 + _ - 48)) + (48 + _ - 48) = n
  omega

theorem finiteNumber_fourDigits (hn : n < 10000) : finiteNumber (fourDigits n) = some (n : ℚ) := by
  have hne : fourDigits n ≠ [] := List.cons_ne_nil _ _
  rw [finiteNumber_digits hne (isDigit_fourDigits hn), ofDigitChars_fourDigits hn]

theorem finiteNumber_twoDigits (hn : n < 100) : finiteNumber (twoDigits n) = some (n : ℚ) := by
  have hne : twoDigits n ≠ [] := List.cons_ne_nil _ _
  rw [finiteNumber_digits hne (isDigit_twoDigits hn), ofDigitChars_twoDigits hn]

theorem toDigits_fourDigits (h : 1000 ≤ n) (h' : n < 10000) : Nat.toDigits 10 n = fourDigits n := by
  rw [Nat.toDigits_of_base_le (by omega) (by omega), Nat.toDigits_of_base_le (by omega) (by omega),
    Nat.toDigits_of_base_le (by omega) (by omega), Nat.toDigits_of_lt_base (by omega), fourDigits]
  have hthousand : n / 10 / 10 / 10 = n / 1000 := by omega
  have hhundred : n / 10 / 10 = n / 100 := by omega
  rw [hthousand, hhundred]
  rfl

/-! ### Keys of eight digits -/

def digitsKey (year month day : ℕ) : Text :=
  fourDigits year ++ '-' :: (twoDigits month ++ '-' :: twoDigits day)

variable {y m d y' m' d' : ℕ}

theorem dash_notMem (h : ∀ c ∈ text, c.isDigit = true) : '-' ∉ text :=
  fun hmem => Bool.noConfusion (h '-' hmem)

theorem splitOn_parts {year : Text} (hyear : '-' ∉ year) (hm : m < 100) (hd : d < 100) :
    (year ++ '-' :: (twoDigits m ++ '-' :: twoDigits d)).splitOn '-' =
      [year, twoDigits m, twoDigits d] := by
  have hall : ∀ l ∈ [year, twoDigits m, twoDigits d], '-' ∉ l := by
    simp only [List.forall_mem_cons, List.not_mem_nil, false_implies, implies_true, and_true]
    exact ⟨hyear, dash_notMem (isDigit_twoDigits hm), dash_notMem (isDigit_twoDigits hd)⟩
  rw [← List.splitOn_intercalate '-' hall (List.cons_ne_nil _ _)]
  apply congrArg
  simp [List.intercalate]

def century (year : ℕ) : ℤ := if year ≤ 99 then 1900 + year else year

def keyDay (year month day : ℕ) : ℤ := makeDay (century year) (month - 1) day

theorem keyDay_bounds (hy : 1 ≤ y ∧ y ≤ 9999) (hm : 1 ≤ m ∧ m ≤ 99) (hd : 1 ≤ d ∧ d ≤ 99) :
    dayFromYear 100 ≤ keyDay y m d ∧ keyDay y m d < 4000000 := by
  have h := monthStart_bounds (century y + ((m : ℤ) - 1) / 12) ((((m : ℤ) - 1) % 12).toNat + 1)
  unfold keyDay makeDay
  generalize monthStart _ _ = start at h ⊢
  unfold century dayFromYear
  split <;> omega

theorem truncate_intCast (n : ℤ) : truncate n = n := by
  unfold truncate
  split
  · rw [← Int.cast_neg, Int.floor_intCast, neg_neg]
  · rw [Int.floor_intCast]

def midnight (day : ℤ) : ℤ := day * msPerDay - istOffsetMs

theorem istDay_midnight (day : ℤ) : istDay (midnight day) = day := by
  unfold istDay midnight istOffsetMs msPerDay
  omega

/-- The days that a `Date` can begin with. -/
def InRange (day : ℤ) : Prop := -99999999 ≤ day ∧ day ≤ 100000000

instance (day : ℤ) : Decidable (InRange day) := inferInstanceAs (Decidable (_ ∧ _))

theorem timeClip_midnight (day : ℤ) :
    timeClip (midnight day) = if InRange day then some (midnight day) else none := by
  unfold timeClip
  apply if_congr ?_ rfl rfl
  unfold InRange midnight maxTime msPerDay istOffsetMs
  omega

/-- **The bounds of a day**, by its number. -/
theorem istDayBounds_parts {year : Text} (hyear : finiteNumber year = some (y : ℚ))
    (hdash : '-' ∉ year) (hy : 1 ≤ y) (hm : 1 ≤ m ∧ m ≤ 99) (hd : 1 ≤ d ∧ d ≤ 99)
    (hrange : InRange (keyDay y m d)) :
    istDayBounds (year ++ '-' :: (twoDigits m ++ '-' :: twoDigits d)) =
      some (some (midnight (keyDay y m d)), timeClip (midnight (keyDay y m d + 1))) := by
  have hutc : dateUTC y ((m : ℚ) - 1) d = some (msPerDay * keyDay y m d) := by
    have hyear : truncate (y : ℚ) = y := by exact_mod_cast truncate_intCast y
    have hmonth : truncate ((m : ℚ) - 1) = (m : ℤ) - 1 := by exact_mod_cast truncate_intCast (m - 1)
    have hday : truncate (d : ℚ) = d := by exact_mod_cast truncate_intCast d
    have hcentury : (if 0 ≤ (y : ℤ) ∧ (y : ℤ) ≤ 99 then 1900 + (y : ℤ) else y) = century y :=
      if_congr (by omega) rfl rfl
    unfold dateUTC
    dsimp only
    rw [hyear, hmonth, hday, hcentury]
    apply if_pos
    unfold InRange keyDay at hrange
    unfold msPerDay maxTime
    omega
  have hstart : timeClip (msPerDay * keyDay y m d - istOffsetMs) =
      some (midnight (keyDay y m d)) := by
    rw [mul_comm]
    exact (timeClip_midnight _).trans (if_pos hrange)
  have hstop : midnight (keyDay y m d) + msPerDay = midnight (keyDay y m d + 1) := by
    unfold midnight
    ring
  unfold istDayBounds
  rw [splitOn_parts hdash (by omega) (by omega)]
  simp only [List.map_cons, List.map_nil, hyear,
    finiteNumber_twoDigits (show m < 100 by omega), finiteNumber_twoDigits (show d < 100 by omega)]
  rw [if_neg (by norm_cast; omega), hutc]
  simp only [Option.bind_some, hstart, hstop]

theorem istDayBounds_digitsKey (hy : 1 ≤ y ∧ y ≤ 9999) (hm : 1 ≤ m ∧ m ≤ 99)
    (hd : 1 ≤ d ∧ d ≤ 99) : istDayBounds (digitsKey y m d) =
      some (some (midnight (keyDay y m d)), some (midnight (keyDay y m d + 1))) := by
  obtain ⟨hlow, hhigh⟩ := keyDay_bounds hy hm hd
  unfold dayFromYear at hlow
  have hclip : timeClip (midnight (keyDay y m d + 1)) = some (midnight (keyDay y m d + 1)) :=
    (timeClip_midnight _).trans (if_pos (by unfold InRange; omega))
  rw [← hclip]
  exact istDayBounds_parts (finiteNumber_fourDigits (by omega))
    (dash_notMem (isDigit_fourDigits (by omega))) hy.1 hm hd (by unfold InRange; omega)

theorem istDateKey_midnight (day : ℤ) :
    istDateKey (timeClip (midnight day)) =
      if InRange day then some (dateText (Date.ofDay day)) else none := by
  rw [timeClip_midnight]
  split
  · rw [istDateKey, Option.map_some, istDay_midnight]
  · rfl

/-- **Days added to a key.** -/
theorem addIstDays_digitsKey (hy : 1 ≤ y ∧ y ≤ 9999) (hm : 1 ≤ m ∧ m ≤ 99) (hd : 1 ≤ d ∧ d ≤ 99)
    (days : ℤ) : addIstDays (digitsKey y m d) days =
      if InRange (keyDay y m d + days) then some (dateText (Date.ofDay (keyDay y m d + days)))
      else none := by
  have hmidnight : midnight (keyDay y m d) + days * msPerDay = midnight (keyDay y m d + days) := by
    unfold midnight
    ring
  unfold addIstDays
  rw [istDayBounds_digitsKey hy hm hd]
  show istDateKey (timeClip (midnight (keyDay y m d) + days * msPerDay)) = _
  rw [hmidnight, istDateKey_midnight]

theorem matchesKey_digitsKey (hy : y < 10000) (hm : m < 100) (hd : d < 100) :
    matchesKey (digitsKey y m d) = true := by
  have h := fun a ha => (digitChar_spec a ha).1
  show List.all [_, _, _, _, _, _, _, _] Char.isDigit = true
  simp only [List.all_cons, List.all_nil, Bool.and_true, Bool.and_eq_true]
  exact ⟨h _ (by omega), h _ (by omega), h _ (by omega), h _ (by omega), h _ (by omega),
    h _ (by omega), h _ (by omega), h _ (by omega)⟩

theorem exists_digitsKey (h : matchesKey text = true) :
    ∃ y < 10000, ∃ m < 100, ∃ d < 100, text = digitsKey y m d := by
  unfold matchesKey at h
  split at h
  · simp only [List.all_cons, List.all_nil, Bool.and_true, Bool.and_eq_true] at h
    obtain ⟨h₁, h₂, h₃, h₄, h₅, h₆, h₇, h₈⟩ := h
    obtain ⟨a, ha, rfl⟩ := exists_digitChar h₁
    obtain ⟨b, hb, rfl⟩ := exists_digitChar h₂
    obtain ⟨c, hc, rfl⟩ := exists_digitChar h₃
    obtain ⟨d, hd, rfl⟩ := exists_digitChar h₄
    obtain ⟨e, he, rfl⟩ := exists_digitChar h₅
    obtain ⟨f, hf, rfl⟩ := exists_digitChar h₆
    obtain ⟨g, hg, rfl⟩ := exists_digitChar h₇
    obtain ⟨i, hi, rfl⟩ := exists_digitChar h₈
    refine ⟨1000 * a + 100 * b + 10 * c + d, by omega, 10 * e + f, by omega, 10 * g + i, by omega,
      ?_⟩
    have hyear : (1000 * a + 100 * b + 10 * c + d) / 1000 = a ∧
        (1000 * a + 100 * b + 10 * c + d) / 100 % 10 = b ∧
        (1000 * a + 100 * b + 10 * c + d) / 10 % 10 = c ∧
        (1000 * a + 100 * b + 10 * c + d) % 10 = d := by omega
    have htwo : ∀ x, ∀ y < 10, (10 * x + y) / 10 = x ∧ (10 * x + y) % 10 = y := by omega
    unfold digitsKey fourDigits twoDigits
    rw [hyear.1, hyear.2.1, hyear.2.2.1, hyear.2.2.2, (htwo e f hf).1, (htwo e f hf).2,
      (htwo g i hi).1, (htwo g i hi).2]
    rfl
  · cases h

/-- **Which keys are accepted.** -/
theorem isValidIstDateKey_iff : isValidIstDateKey text = true ↔
    ∃ y m d, (1 ≤ y ∧ y ≤ 9999) ∧ (1 ≤ m ∧ m ≤ 99) ∧ (1 ≤ d ∧ d ≤ 99) ∧ text = digitsKey y m d := by
  unfold isValidIstDateKey
  rw [Bool.and_eq_true]
  constructor
  · rintro ⟨hmatches, hsome⟩
    obtain ⟨y, hy, m, hm, d, hd, rfl⟩ := exists_digitsKey hmatches
    by_cases hzero : y = 0 ∨ m = 0 ∨ d = 0
    · have hnone : istDayBounds (digitsKey y m d) = none := by
        unfold istDayBounds
        rw [digitsKey, splitOn_parts (dash_notMem (isDigit_fourDigits hy)) hm hd]
        simp only [List.map_cons, List.map_nil, finiteNumber_fourDigits hy,
          finiteNumber_twoDigits hm, finiteNumber_twoDigits hd]
        exact if_pos (by exact_mod_cast hzero)
      simp [hnone] at hsome
    · exact ⟨y, m, d, by omega, by omega, by omega, rfl⟩
  · rintro ⟨y, m, d, hy, hm, hd, rfl⟩
    rw [istDayBounds_digitsKey hy hm hd]
    exact ⟨matchesKey_digitsKey (by omega) (by omega) (by omega), rfl⟩

theorem digitChar_cons_lt {a b : ℕ} {s t : Text} (ha : a < 10) (hb : b < 10) :
    Nat.digitChar a :: s < Nat.digitChar b :: t ↔ a < b ∨ a = b ∧ s < t := by
  rw [List.cons_lt_cons_iff, digitChar_lt a ha b hb, digitChar_inj a ha b hb]

theorem fourDigits_append_lt {s t : Text} (hy : y < 10000) (hy' : y' < 10000) :
    fourDigits y ++ s < fourDigits y' ++ t ↔ y < y' ∨ y = y' ∧ s < t := by
  simp only [fourDigits, List.cons_append, List.nil_append]
  rw [digitChar_cons_lt (by omega) (by omega), digitChar_cons_lt (by omega) (by omega),
    digitChar_cons_lt (by omega) (by omega), digitChar_cons_lt (by omega) (by omega)]
  by_cases h : s < t
  · simp only [h, and_true]
    omega
  · simp only [h, and_false, or_false]
    omega

theorem twoDigits_append_lt {s t : Text} (hm : m < 100) (hm' : m' < 100) :
    twoDigits m ++ s < twoDigits m' ++ t ↔ m < m' ∨ m = m' ∧ s < t := by
  simp only [twoDigits, List.cons_append, List.nil_append]
  rw [digitChar_cons_lt (by omega) (by omega), digitChar_cons_lt (by omega) (by omega)]
  by_cases h : s < t
  · simp only [h, and_true]
    omega
  · simp only [h, and_false, or_false]
    omega

/-- **Keys compare as their numbers.** -/
theorem digitsKey_lt (hy : y < 10000) (hm : m < 100) (hd : d < 100) (hy' : y' < 10000)
    (hm' : m' < 100) (hd' : d' < 100) : digitsKey y m d < digitsKey y' m' d' ↔
      y < y' ∨ y = y' ∧ (m < m' ∨ m = m' ∧ d < d') := by
  have hdash : ∀ {s t : Text}, '-' :: s < '-' :: t ↔ s < t := by
    intro s t
    rw [List.cons_lt_cons_iff]
    simp
  have hday : twoDigits d < twoDigits d' ↔ d < d' := by
    have h : twoDigits d ++ [] < twoDigits d' ++ [] ↔ _ := twoDigits_append_lt hd hd'
    rw [List.append_nil, List.append_nil] at h
    rw [h]
    simp
  unfold digitsKey
  rw [fourDigits_append_lt hy hy', hdash, twoDigits_append_lt hm hm', hdash, hday]

end VibemeetBackend.Calendar
