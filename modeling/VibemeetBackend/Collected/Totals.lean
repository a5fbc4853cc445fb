import VibemeetBackend.Collected.Page

/-!
# Totals by currency

The totals of `scanRazorpayCollectedPayments`, a `Map` from currencies in the order in which they
were first met, and `majorAmount`.
-/

namespace VibemeetBackend.Collected

open Billing (isTrimmed)
open Moments

/-! ### Sums -/

structure Bucket where
  amount : ℤ
  paymentCount : ℕ

abbrev Totals := List (Text × Bucket)

/-- `totals.get(currency) ?? { amount: 0n, paymentCount: 0 }`. -/
def bucketOf (currency : Text) (totals : Totals) : Bucket :=
  ((totals.find? fun x => x.1 == currency).map (·.2)).getD ⟨0, 0⟩

/-- `totals.set`. -/
def setBucket (currency : Text) (bucket : Bucket) : Totals → Totals
  | [] => [(currency, bucket)]
  | x :: totals =>
    if x.1 = currency then (currency, bucket) :: totals else x :: setBucket currency bucket totals

def addPayment (totals : Totals) (currency : Text) (amount : ℤ) : Totals :=
  let bucket := bucketOf currency totals
  setBucket currency ⟨bucket.amount + amount, bucket.paymentCount + 1⟩ totals

theorem bucketOf_set (currency c : Text) (bucket : Bucket) (totals : Totals) :
    bucketOf c (setBucket currency bucket totals) =
      if c = currency then bucket else bucketOf c totals := by
  induction totals with
  | nil =>
    unfold setBucket bucketOf
    by_cases h : c = currency
    · simp [h]
    · simp [h, Ne.symm h]
  | cons x totals ih =>
    unfold setBucket
    unfold bucketOf at ih ⊢
    by_cases hx : x.1 = currency
    · rw [if_pos hx]
      by_cases h : c = currency
      · simp [h]
      · simp [h, Ne.symm h, hx]
    · rw [if_neg hx]
      by_cases h : c = x.1
      · subst h
        simp [hx]
      · simp only [List.find?_cons, beq_eq_false_iff_ne.2 (Ne.symm h)]
        exact ih

theorem keys_set (currency : Text) (bucket : Bucket) (totals : Totals) :
    (setBucket currency bucket totals).map (·.1) =
      if currency ∈ totals.map (·.1) then totals.map (·.1) else totals.map (·.1) ++ [currency] := by
  induction totals with
  | nil => rfl
  | cons x totals ih =>
    unfold setBucket
    by_cases hx : x.1 = currency
    · simp [hx]
    · rw [if_neg hx, List.map_cons, ih]
      have hmem : currency ∈ (x :: totals).map (·.1) ↔ currency ∈ totals.map (·.1) := by
        simp [Ne.symm hx]
      rw [if_congr hmem rfl rfl]
      split <;> rfl

theorem bucketOf_mem {totals : Totals} (h : (totals.map (·.1)).Nodup) {x : Text × Bucket}
    (hx : x ∈ totals) : bucketOf x.1 totals = x.2 := by
  induction totals with
  | nil => cases hx
  | cons y totals ih =>
    rw [List.map_cons, List.nodup_cons] at h
    unfold bucketOf at ih ⊢
    rcases List.mem_cons.1 hx with rfl | hx
    · simp
    · have hne : y.1 ≠ x.1 := by
        intro heq
        exact h.1 (heq ▸ List.mem_map_of_mem hx)
      rw [List.find?_cons_of_neg (by simpa using hne)]
      exact ih h.2 hx

section Tally

variable (toUpperCase : Text → Text)

def tally (counted : List ProviderPayment) : Totals :=
  counted.foldl (fun totals p => addPayment totals (p.upperCurrency toUpperCase) p.subunits) []

def inCurrency (currency : Text) (counted : List ProviderPayment) : List ProviderPayment :=
  counted.filter fun p => p.upperCurrency toUpperCase == currency

theorem tally_snoc (counted : List ProviderPayment) (p : ProviderPayment) :
    tally toUpperCase (counted ++ [p]) =
      addPayment (tally toUpperCase counted) (p.upperCurrency toUpperCase) p.subunits := by
  unfold tally
  rw [List.foldl_append]
  rfl

/-- **The totals of a currency.** -/
theorem bucketOf_tally (currency : Text) (counted : List ProviderPayment) :
    bucketOf currency (tally toUpperCase counted) =
      ⟨((inCurrency toUpperCase currency counted).map (·.subunits)).sum,
        (inCurrency toUpperCase currency counted).length⟩ := by
  induction counted using List.reverseRecOn with
  | nil => rfl
  | append_singleton counted p ih =>
    rw [tally_snoc, addPayment, bucketOf_set]
    unfold inCurrency at ih ⊢
    rw [List.filter_append]
    by_cases h : currency = p.upperCurrency toUpperCase
    · rw [if_pos h, ← h, ih, List.filter_cons_of_pos (by simp [h])]
      simp
    · rw [if_neg h, ih, List.filter_cons_of_neg (by simpa using Ne.symm h)]
      simp

theorem mem_keys_tally {currency : Text} {counted : List ProviderPayment} :
    currency ∈ (tally toUpperCase counted).map (·.1) ↔
      ∃ p ∈ counted, p.upperCurrency toUpperCase = currency := by
  induction counted using List.reverseRecOn with
  | nil => simp [tally]
  | append_singleton counted p ih =>
    rw [tally_snoc, addPayment, keys_set]
    have hsnoc : (∃ q ∈ counted ++ [p], q.upperCurrency toUpperCase = currency) ↔
        (∃ q ∈ counted, q.upperCurrency toUpperCase = currency) ∨
          p.upperCurrency toUpperCase = currency := by
      simp [or_and_right, exists_or]
    rw [hsnoc, ← ih]
    split
    · rename_i hmem
      refine ⟨.inl, ?_⟩
      rintro (h | rfl)
      · exact h
      · exact hmem
    · rw [List.mem_append, List.mem_singleton, eq_comm (a := currency)]

theorem nodup_keys_tally (counted : List ProviderPayment) :
    ((tally toUpperCase counted).map (·.1)).Nodup := by
  induction counted using List.reverseRecOn with
  | nil => exact List.nodup_nil
  | append_singleton counted p ih =>
    rw [tally_snoc, addPayment, keys_set]
    split
    · exact ih
    · rename_i hmem
      rw [← List.concat_eq_append]
      exact ih.concat hmem

end Tally

/-! ### Major amounts -/

/-- `String(cents).padStart(2, '0')`. -/
def twoCents (cents : ℕ) : Text := List.leftpad 2 '0' (Nat.toDigits 10 cents)

def majorAmount (subunits : ℤ) : Text :=
  let absolute := subunits.natAbs
  (if subunits < 0 then ['-'] else []) ++
    (Nat.toDigits 10 (absolute / 100) ++ '.' :: twoCents (absolute % 100))

theorem isDigit_twoCents {cents : ℕ} {c : Char} (h : c ∈ twoCents cents) : c.isDigit = true := by
  rcases List.mem_append.1 h with h | h
  · rw [(List.mem_replicate.1 h).2]
    rfl
  · exact mem_toDigits h

theorem twoCents_spec : ∀ cents < 100, (twoCents cents).length = 2 ∧
    Nat.ofDigitChars 10 (twoCents cents) 0 = cents := by
  decide +kernel

theorem unsignedDecimal_point {whole fraction : Text} (hne : whole ≠ [])
    (hwhole : ∀ c ∈ whole, c.isDigit = true) (hfraction : ∀ c ∈ fraction, c.isDigit = true) :
    unsignedDecimal (whole ++ '.' :: fraction) =
      some (((Nat.ofDigitChars 10 whole 0 : ℕ) : ℚ) +
        ((Nat.ofDigitChars 10 fraction 0 : ℕ) : ℚ) / 10 ^ fraction.length) := by
  have hdigit : ∀ c : Char, c.isDigit = true → (!isExponent c) = true ∧ (c != '.') = true := by
    intro c hc
    have he := Printed.ne (.inl hc) (d := 'e') (by simp [Printed])
    have hE := Printed.ne (.inl hc) (d := 'E') (by simp [Printed])
    have hpoint := Printed.ne (.inl hc) (d := '.') (by simp [Printed])
    exact ⟨by simp [isExponent, he, hE], by simpa using hpoint⟩
  have hmantissa : ∀ c ∈ whole ++ '.' :: fraction, (!isExponent c) = true := by
    intro c hc
    rcases List.mem_append.1 hc with hc | hc
    · exact (hdigit c (hwhole c hc)).1
    · rcases List.mem_cons.1 hc with rfl | hc
      · rfl
      · exact (hdigit c (hfraction c hc)).1
  have hpoint : ∀ c ∈ whole, (c != '.') = true := fun c hc => (hdigit c (hwhole c hc)).2
  have htake : (whole ++ '.' :: fraction).takeWhile (· != '.') = whole := by
    rw [List.takeWhile_append_of_pos hpoint, List.takeWhile_cons_of_neg (by decide),
      List.append_nil]
  have hdrop : (whole ++ '.' :: fraction).dropWhile (· != '.') = '.' :: fraction := by
    rw [List.dropWhile_append_of_pos hpoint, List.dropWhile_cons_of_neg (by decide)]
  have hrest : (whole ++ '.' :: fraction).dropWhile (fun c => !isExponent c) = [] :=
    List.dropWhile_eq_nil_iff.2 hmantissa
  unfold unsignedDecimal
  rw [List.takeWhile_eq_self_iff.2 hmantissa, hrest]
  dsimp only
  rw [htake, hdrop, List.drop_one, List.tail_cons, if_neg fun h => hne h.1,
    readDigits_ofDigitChars hwhole, readDigits_ofDigitChars hfraction]
  simp [exponent]

/-- A character of an amount without its sign. -/
def Decimal (c : Char) : Prop := c.isDigit = true ∨ c = '.'

theorem Decimal.spec {c : Char} (h : Decimal c) :
    isTrimmed c = false ∧ radixOf c = none ∧ c ≠ '-' ∧ c ≠ '+' := by
  rcases h with h | rfl
  · refine ⟨Printed.not_trimmed (.inl h), Printed.radixOf (.inl h), ?_, ?_⟩
    · rintro rfl
      cases h
    · rintro rfl
      cases h
  · decide

theorem trim_of_untrimmed {text : Text} (h : ∀ c ∈ text, isTrimmed c = false) :
    trim text = text := by
  have hdrop : ∀ text : Text, (∀ c ∈ text, isTrimmed c = false) →
      text.dropWhile isTrimmed = text := by
    simp_all
  rw [trim, hdrop text h, hdrop _ fun c hc => h c (List.mem_reverse.1 hc), List.reverse_reverse]

theorem finiteNumber_unsigned {text : Text} (hne : text ≠ []) (h : ∀ c ∈ text, Decimal c) :
    finiteNumber text = unsignedDecimal text := by
  have hsigned : signedDecimal text = unsignedDecimal text := by
    apply signedDecimal.eq_3
    · rintro ds rfl
      exact (h _ List.mem_cons_self).spec.2.2.1 rfl
    · rintro ds rfl
      exact (h _ List.mem_cons_self).spec.2.2.2 rfl
  rw [finiteNumber, trim_of_untrimmed fun c hc => (h c hc).spec.1]
  split
  · exact absurd rfl hne
  · rename_i c ds
    rw [(h c (List.mem_cons_of_mem _ List.mem_cons_self)).spec.2.1]
    exact hsigned
  · exact hsigned

theorem finiteNumber_negative {text : Text} (h : ∀ c ∈ text, Decimal c) :
    finiteNumber ('-' :: text) = (unsignedDecimal text).map fun x => -x := by
  have htrimmed : ∀ c ∈ '-' :: text, isTrimmed c = false := by
    rw [List.forall_mem_cons]
    exact ⟨rfl, fun c hc => (h c hc).spec.1⟩
  rw [finiteNumber, trim_of_untrimmed htrimmed]
  rfl

/-- **A major amount denotes a hundredth of the amount.** -/
theorem finiteNumber_majorAmount (subunits : ℤ) :
    finiteNumber (majorAmount subunits) = some ((subunits : ℚ) / 100) := by
  have hcents := twoCents_spec (subunits.natAbs % 100) (Nat.mod_lt _ (by omega))
  have hwhole : ∀ c ∈ Nat.toDigits 10 (subunits.natAbs / 100), c.isDigit = true :=
    fun c => mem_toDigits
  have hchars : ∀ c ∈ Nat.toDigits 10 (subunits.natAbs / 100) ++
      '.' :: twoCents (subunits.natAbs % 100), Decimal c := by
    intro c hc
    rcases List.mem_append.1 hc with hc | hc
    · exact .inl (hwhole c hc)
    · exact (List.mem_cons.1 hc).elim .inr fun hc => .inl (isDigit_twoCents hc)
  have hread : unsignedDecimal (Nat.toDigits 10 (subunits.natAbs / 100) ++
      '.' :: twoCents (subunits.natAbs % 100)) = some ((subunits.natAbs : ℚ) / 100) := by
    have hsplit : ((subunits.natAbs / 100 : ℕ) : ℚ) * 100 + ((subunits.natAbs % 100 : ℕ) : ℚ) =
        subunits.natAbs := by
      exact_mod_cast Nat.div_add_mod' subunits.natAbs 100
    rw [unsignedDecimal_point Nat.toDigits_ne_nil hwhole fun c => isDigit_twoCents,
      Nat.ofDigitChars_ten_toDigits, hcents.1, hcents.2, ← hsplit]
    congr 1
    ring
  unfold majorAmount
  split
  · rename_i hneg
    have habs : (subunits.natAbs : ℚ) = -subunits := by
      rw [Nat.cast_natAbs, abs_of_neg hneg, Int.cast_neg]
    rw [List.singleton_append, finiteNumber_negative hchars, hread, habs, Option.map_some]
    congr 1
    ring
  · rename_i hpos
    have habs : (subunits.natAbs : ℚ) = subunits := by
      rw [Nat.cast_natAbs, abs_of_nonneg (not_lt.1 hpos)]
    rw [List.nil_append, finiteNumber_unsigned (by simp) hchars, hread, habs]

end VibemeetBackend.Collected
