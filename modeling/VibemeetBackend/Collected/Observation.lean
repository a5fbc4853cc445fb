import VibemeetBackend.Collected.Page

/-!
# Observations of captured payments

`normalizeCapturedPaymentObservation` of `razorpay-captured-payment-projection.service.ts`.  A
payment is seen in two ways: a page of the provider is parsed first, which upper-cases the currency,
and a webhook hands the payment over as it is.  Both come to the same row.

`toUpperCase` is applied to each character by itself; white space stays what it is, nothing becomes
white space, and what is upper-cased stays.  The setters of the schema, which trim the currency and
upper-case it once more, leave such a text as it is.
-/

namespace VibemeetBackend.Collected

open Billing (isTrimmed)
open Moments (Text trim utf16Length)

/-! ### Upper case -/

/-- `toUpperCase`, by characters. -/
structure UpperCase where
  char : Char → Text
  trimmed : ∀ c, isTrimmed c = true → char c = [c]
  kept : ∀ c, isTrimmed c = false → char c ≠ [] ∧ ∀ d ∈ char c, isTrimmed d = false
  idem : ∀ c, ∀ d ∈ char c, char d = [d]

theorem dropWhile_flatMap {f : Char → Text} (htrimmed : ∀ c, isTrimmed c = true → f c = [c])
    (hkept : ∀ c, isTrimmed c = false → f c ≠ [] ∧ ∀ d ∈ f c, isTrimmed d = false) (text : Text) :
    (text.flatMap f).dropWhile isTrimmed = (text.dropWhile isTrimmed).flatMap f := by
  induction text with
  | nil => rfl
  | cons c text ih =>
    rw [List.flatMap_cons]
    cases hc : isTrimmed c with
    | true =>
      simp [htrimmed c hc, List.dropWhile_cons_of_pos hc, ih]
    | false =>
      obtain ⟨hne, hall⟩ := hkept c hc
      obtain ⟨d, ds, hd⟩ := List.exists_cons_of_ne_nil hne
      have hhead : ¬isTrimmed d = true := by
        simp [hall d (hd ▸ List.mem_cons_self)]
      simp_all

namespace UpperCase

variable (upper : UpperCase)

def text (text : Text) : Text := text.flatMap upper.char

theorem text_text (t : Text) : upper.text (upper.text t) = upper.text t := by
  unfold text
  rw [List.flatMap_assoc]
  congr 1
  funext c
  have hchars : ∀ ds : Text, (∀ d ∈ ds, upper.char d = [d]) → ds.flatMap upper.char = ds := by
    intro ds h
    induction ds with
    | nil => rfl
    | cons d ds ih =>
      rw [List.forall_mem_cons] at h
      rw [List.flatMap_cons, h.1, ih h.2, List.singleton_append]
  exact hchars _ (upper.idem c)

/-- **White space is trimmed before or after.** -/
theorem trim_text (t : Text) : trim (upper.text t) = upper.text (trim t) := by
  have hreverse : ∀ t : Text, (t.flatMap upper.char).reverse =
      t.reverse.flatMap fun c => (upper.char c).reverse := by
    intro t
    exact List.reverse_flatMap
  have hback : ∀ t : Text, (t.flatMap fun c => (upper.char c).reverse).dropWhile isTrimmed =
      (t.dropWhile isTrimmed).flatMap fun c => (upper.char c).reverse := by
    intro t
    apply dropWhile_flatMap
    · intro c hc
      rw [upper.trimmed c hc, List.reverse_singleton]
    · intro c hc
      obtain ⟨hne, hall⟩ := upper.kept c hc
      exact ⟨mt List.reverse_eq_nil_iff.1 hne, fun d hd => hall d (List.mem_reverse.1 hd)⟩
  unfold trim text
  rw [dropWhile_flatMap upper.trimmed upper.kept, hreverse, hback]
  have htwice := hreverse (List.dropWhile isTrimmed (List.dropWhile isTrimmed t).reverse).reverse
  rw [List.reverse_reverse] at htwice
  rw [← htwice, List.reverse_reverse]

end UpperCase

/-! ### The check -/

structure CapturedPaymentObservation where
  id : Text
  amount : ℤ
  currency : Text
  created_at : ℤ

def normalizeCapturedPaymentObservation (toUpperCase : Text → Text) (raw : JsValue) :
    Option CapturedPaymentObservation :=
  match raw.field "captured", raw.field "id", raw.field "amount", raw.field "currency",
    raw.field "created_at" with
  | .boolean true, .string id, .number amount, .string currency, .number created_at =>
    if id = [] ∨ isSafeInteger amount = false ∨ amount < 0 ∨ utf16Length (trim currency) ≠ 3 ∨
        isInteger created_at = false ∨ created_at ≤ 0 then none
    else some ⟨id, amount.num, toUpperCase (trim currency), created_at.num⟩
  | _, _, _, _, _ => none

def RazorpayPaymentForCollected.value (item : RazorpayPaymentForCollected) : JsValue :=
  .object [("id", .string item.id), ("amount", .number item.amount),
    ("currency", .string item.currency), ("captured", .boolean item.captured),
    ("status", (item.status.map JsValue.string).getD .undefined),
    ("created_at", .number item.created_at)]

/-! ### Rows -/

structure RazorpayCapturedPayment where
  paymentId : Text
  amountSubunits : ℤ
  currency : Text
  paymentCreatedAt : ℤ

def CapturedPaymentObservation.row (o : CapturedPaymentObservation) : RazorpayCapturedPayment :=
  ⟨o.id, o.amount, o.currency, o.created_at * 1000⟩

namespace ProviderPayment

variable (upper : UpperCase) (p : ProviderPayment)

def rowCurrency : Text := trim (p.upperCurrency upper.text)

def row : RazorpayCapturedPayment :=
  ⟨p.id, p.subunits, p.rowCurrency upper, p.created_at * 1000⟩

/-- A captured payment that a backfill records. -/
structure Valid : Prop where
  id : p.id ≠ []
  wellFormed : p.WellFormed
  captured : p.isCaptured = true
  currency : utf16Length (p.rowCurrency upper) = 3
  created_at : 0 < p.created_at

end ProviderPayment

section Rows

variable {upper : UpperCase} {p : ProviderPayment} {item : RazorpayPaymentForCollected}
  {o : CapturedPaymentObservation}

theorem value_fields (item : RazorpayPaymentForCollected) :
    item.value.field "id" = .string item.id ∧ item.value.field "amount" = .number item.amount ∧
      item.value.field "currency" = .string item.currency ∧
      item.value.field "captured" = .boolean item.captured ∧
      item.value.field "created_at" = .number item.created_at := by
  simp [RazorpayPaymentForCollected.value, JsValue.field]

/-- **What is observed on a page.** -/
theorem normalize_value (hitem : Parsed upper.text item p)
    (h : normalizeCapturedPaymentObservation upper.text item.value = some o) :
    p.isCaptured = true ∧ o.row = p.row upper := by
  obtain ⟨hid, hamount, hcurrency, hcaptured, hcreated⟩ := value_fields item
  unfold normalizeCapturedPaymentObservation at h
  rw [hid, hamount, hcurrency, hcaptured, hcreated] at h
  cases hcap : item.captured with
  | false =>
    simp [hcap] at h
  | true =>
    rw [hcap] at h
    obtain ⟨-, h⟩ := Option.ite_none_left_eq_some.1 h
    cases h
    refine ⟨hitem.captured.symm.trans hcap, ?_⟩
    unfold CapturedPaymentObservation.row ProviderPayment.row ProviderPayment.rowCurrency
    have hupper : upper.text (trim (p.upperCurrency upper.text)) =
        trim (p.upperCurrency upper.text) := by
      obtain ⟨text, htext⟩ := hitem.wellFormed.currency
      simp [ProviderPayment.upperCurrency, htext, upper.trim_text, upper.text_text]
    simp [hitem.id, hitem.currency, hupper, hitem.amount, hitem.created_at]

theorem normalize_value_of_valid (hitem : Parsed upper.text item p) (h : p.Valid upper) :
    ∃ o, normalizeCapturedPaymentObservation upper.text item.value = some o := by
  obtain ⟨hid, hamount, hcurrency, hcaptured, hcreated⟩ := value_fields item
  unfold normalizeCapturedPaymentObservation
  rw [hid, hamount, hcurrency, hcaptured, hcreated, hitem.captured, h.captured]
  dsimp only
  rw [if_neg]
  · exact ⟨_, rfl⟩
  · obtain ⟨⟨n, hn, hnumber⟩, -, -⟩ := h.wellFormed
    have hsubunits : p.subunits = n := by
      simp [ProviderPayment.subunits, hnumber]
    have hsafe : isSafeInteger ((n : ℤ) : ℚ) = true := by
      exact_mod_cast isSafeInteger_natCast hn
    have hpos : ¬(((n : ℤ) : ℚ) < 0) := by
      exact_mod_cast not_lt.2 (Nat.cast_nonneg (α := ℤ) n)
    have hlater : ¬((p.created_at : ℚ) ≤ 0) := by
      exact_mod_cast not_le.2 h.created_at
    have hlength : utf16Length (trim item.currency) = 3 := by
      rw [hitem.currency]
      exact h.currency
    rw [hitem.id, hitem.amount, hitem.created_at, hsubunits, hsafe, hlength,
      isInteger_intCast p.created_at]
    simp only [h.id, hpos, hlater, Bool.true_eq_false, ne_eq, not_true_eq_false, or_self,
      not_false_eq_true]

/-- **What is observed in a payment that is handed over.** -/
theorem normalize_entry
    (h : normalizeCapturedPaymentObservation upper.text p.entry = some o) :
    p.isCaptured = true ∧ o.row = p.row upper := by
  obtain ⟨-, hid, hamount, hcurrency, hcaptured, hcreated⟩ := shows_entry p
  unfold normalizeCapturedPaymentObservation at h
  rw [hid, hamount, hcurrency, hcaptured, hcreated] at h
  split at h
  · rename_i id amount currency created_at hcap hid hamount' hcurrency' hcreated'
    obtain ⟨-, h⟩ := Option.ite_none_left_eq_some.1 h
    cases h
    cases hid
    cases hcreated'
    simp [CapturedPaymentObservation.row, ProviderPayment.row, ProviderPayment.rowCurrency,
      ProviderPayment.isCaptured, ProviderPayment.subunits, ProviderPayment.upperCurrency, hcap,
      hamount', hcurrency', upper.trim_text]
  · cases h

end Rows

end VibemeetBackend.Collected
