import Mathlib.Data.Char
import Mathlib.Data.List.Lex
import Mathlib.Data.Rat.Floor
import VibemeetBackend.Moments.Cursor
import VibemeetBackend.Paging.Growing

/-!
# Pages of the payments of the provider

`parseRazorpayPaymentPage` of `admin-razorpay-collected.service.ts`, and the provider that serves
the pages: its payments are listed newest first, a payment keeps its amount, its currency and its
captured flag, and its status may change between two requests.

`toUpperCase` may be any function of the text.
-/

namespace VibemeetBackend.Collected

open Moments (Text)
open Paging

/-! ### Values -/

inductive JsValue where
  | undefined
  | null
  | boolean (b : Bool)
  | number (x : ℚ)
  | string (text : Text)
  | array (items : List JsValue)
  | object (fields : List (String × JsValue))

namespace JsValue

/-- `value && typeof value === 'object'`. -/
def isObject : JsValue → Bool
  | array _ | object _ => true
  | _ => false

def field (name : String) : JsValue → JsValue
  | object fields => ((fields.find? fun x => x.1 == name).map (·.2)).getD undefined
  | _ => undefined

end JsValue

def isInteger (x : ℚ) : Bool := x.den == 1

/-- `Number.MAX_SAFE_INTEGER`. -/
def maxSafeInteger : ℤ := 9007199254740991

def isSafeInteger (x : ℚ) : Bool := isInteger x && decide (|x| ≤ maxSafeInteger)

/-! ### Errors -/

inductive ErrorCode where
  | notConfigured
  | providerAuth
  | providerRateLimit
  | providerUnavailable
  | providerMalformed
  | scanLimit
  | scanBusy

structure RazorpayCollectedError where
  code : ErrorCode
  message : String
  status : ℕ := 503

def malformed (message : String) : RazorpayCollectedError := ⟨.providerMalformed, message, 503⟩

/-! ### Payments -/

structure RazorpayPaymentForCollected where
  id : Text
  amount : ℤ
  currency : Text
  captured : Bool
  status : Option Text
  created_at : ℤ

section Parse

variable (toUpperCase : Text → Text)

def parsePayment (entry : JsValue) : Except RazorpayCollectedError RazorpayPaymentForCollected :=
  if entry.isObject = false then
    .error (malformed "Razorpay returned an invalid payment.")
  else
    match entry.field "id", entry.field "amount", entry.field "currency", entry.field "captured",
      entry.field "created_at" with
    | .string id, .number amount, .string currency, .boolean captured, .number created_at =>
      if isSafeInteger amount = false ∨ amount < 0 ∨ isInteger created_at = false then
        .error (malformed "Razorpay returned an invalid payment shape.")
      else
        .ok
          { id := id
            amount := amount.num
            currency := toUpperCase currency
            captured := captured
            status :=
              match entry.field "status" with
              | .string text => some text
              | _ => none
            created_at := created_at.num }
    | _, _, _, _, _ => .error (malformed "Razorpay returned an invalid payment shape.")

def parseRazorpayPaymentPage (raw : JsValue) :
    Except RazorpayCollectedError (List RazorpayPaymentForCollected) :=
  if raw.isObject = false then
    .error (malformed "Razorpay returned an invalid payments page.")
  else
    match raw.field "items" with
    | .array items => items.mapM (parsePayment toUpperCase)
    | _ => .error (malformed "Razorpay returned an invalid payments page.")

end Parse

/-! ### The provider -/

/-- `PAGE_SIZE`. -/
def pageSize : ℕ := 100

/-- A payment of the provider.  It has an id and a second; its other fields may be malformed. -/
structure ProviderPayment where
  id : Text
  amount : JsValue
  currency : JsValue
  captured : JsValue
  created_at : ℤ

def inSeconds (fromSecond : Option ℤ) (toSecond : ℤ) (p : ProviderPayment) : Bool :=
  decide ((∀ second ∈ fromSecond, second ≤ p.created_at) ∧ p.created_at ≤ toSecond)

structure Shows (entry : JsValue) (p : ProviderPayment) : Prop where
  object : entry.isObject = true
  id : entry.field "id" = .string p.id
  amount : entry.field "amount" = p.amount
  currency : entry.field "currency" = p.currency
  captured : entry.field "captured" = p.captured
  created_at : entry.field "created_at" = .number p.created_at

/-- The response for the payments `rows`. -/
def Serves (raw : JsValue) (rows : List ProviderPayment) : Prop :=
  raw.isObject = true ∧ ∃ entries, raw.field "items" = .array entries ∧
    List.Forall₂ Shows entries rows

def ProviderPayment.entry (p : ProviderPayment) : JsValue :=
  .object [("id", .string p.id), ("amount", p.amount), ("currency", p.currency),
    ("captured", p.captured), ("created_at", .number p.created_at)]

def response (rows : List ProviderPayment) : JsValue :=
  .object [("items", .array (rows.map ProviderPayment.entry))]

theorem shows_entry (p : ProviderPayment) : Shows p.entry p := by
  constructor <;> simp [ProviderPayment.entry, JsValue.field, JsValue.isObject]

theorem serves_response (rows : List ProviderPayment) : Serves (response rows) rows := by
  refine ⟨rfl, rows.map ProviderPayment.entry, ?_, ?_⟩
  · simp [response, JsValue.field]
  · rw [List.forall₂_map_left_iff]
    exact List.forall₂_same.2 fun p _ => shows_entry p

namespace ProviderPayment

structure WellFormed (p : ProviderPayment) : Prop where
  amount : ∃ n : ℕ, (n : ℤ) ≤ maxSafeInteger ∧ p.amount = .number n
  currency : ∃ text, p.currency = .string text
  captured : ∃ b, p.captured = .boolean b

def subunits (p : ProviderPayment) : ℤ :=
  match p.amount with
  | .number x => x.num
  | _ => 0

def upperCurrency (toUpperCase : Text → Text) (p : ProviderPayment) : Text :=
  match p.currency with
  | .string text => toUpperCase text
  | _ => []

def isCaptured (p : ProviderPayment) : Bool :=
  match p.captured with
  | .boolean b => b
  | _ => false

end ProviderPayment

structure Parsed (toUpperCase : Text → Text) (item : RazorpayPaymentForCollected)
    (p : ProviderPayment) : Prop where
  id : item.id = p.id
  amount : item.amount = p.subunits
  currency : item.currency = p.upperCurrency toUpperCase
  captured : item.captured = p.isCaptured
  created_at : item.created_at = p.created_at
  wellFormed : p.WellFormed

section Parsed

variable {toUpperCase : Text → Text} {entry : JsValue} {p : ProviderPayment}
  {item : RazorpayPaymentForCollected} {rows : List ProviderPayment}
  {items : List RazorpayPaymentForCollected} {raw : JsValue}

theorem isInteger_intCast (n : ℤ) : isInteger n = true := by
  rfl

theorem exists_nat_of_safe {x : ℚ} (h : isSafeInteger x = true) (hpos : ¬x < 0) :
    ∃ n : ℕ, (n : ℤ) ≤ maxSafeInteger ∧ x = n := by
  unfold isSafeInteger isInteger at h
  rw [Bool.and_eq_true, beq_iff_eq, decide_eq_true_eq] at h
  obtain ⟨hint, hle⟩ := h
  obtain ⟨n, rfl⟩ : ∃ n : ℤ, x = n := ⟨x.num, (Rat.den_eq_one_iff x).1 hint |>.symm⟩
  have hn : 0 ≤ n := by exact_mod_cast not_lt.1 hpos
  rw [abs_of_nonneg (by exact_mod_cast hn)] at hle
  refine ⟨n.toNat, ?_, ?_⟩
  · rw [Int.toNat_of_nonneg hn]
    exact_mod_cast hle
  · exact_mod_cast (Int.toNat_of_nonneg hn).symm

theorem isSafeInteger_natCast {n : ℕ} (h : (n : ℤ) ≤ maxSafeInteger) :
    isSafeInteger n = true := by
  unfold isSafeInteger
  rw [Bool.and_eq_true, decide_eq_true_eq, abs_of_nonneg (Nat.cast_nonneg n)]
  exact ⟨isInteger_intCast n, by exact_mod_cast h⟩

theorem bind_eq_ok_iff {ε α β : Type} {x : Except ε α} {f : α → Except ε β} {b : β} :
    x >>= f = .ok b ↔ ∃ a, x = .ok a ∧ f a = .ok b := by
  constructor
  · intro h
    cases x with
    | error e => cases h
    | ok a => exact ⟨a, rfl, h⟩
  · rintro ⟨a, rfl, h⟩
    exact h

theorem parsePayment_shows (hshows : Shows entry p)
    (h : parsePayment toUpperCase entry = .ok item) : Parsed toUpperCase item p := by
  unfold parsePayment at h
  rw [if_neg (by rw [hshows.object]; exact Bool.noConfusion), hshows.id, hshows.amount,
    hshows.currency, hshows.captured, hshows.created_at] at h
  split at h
  · rename_i id amount currency captured created_at hid hamount hcurrency hcaptured hcreated
    split at h
    · cases h
    · rename_i hchecks
      rw [not_or, not_or, Bool.not_eq_false] at hchecks
      obtain ⟨n, hn, rfl⟩ := exists_nat_of_safe hchecks.1 hchecks.2.1
      cases hid
      cases hcreated
      cases h
      exact
        { id := rfl
          amount := by rw [ProviderPayment.subunits, hamount]
          currency := by rw [ProviderPayment.upperCurrency, hcurrency]
          captured := by rw [ProviderPayment.isCaptured, hcaptured]
          created_at := Rat.num_intCast _
          wellFormed := ⟨⟨n, hn, hamount⟩, ⟨_, hcurrency⟩, ⟨_, hcaptured⟩⟩ }
  · cases h

theorem parsePayment_of_wellFormed (hshows : Shows entry p) (h : p.WellFormed) :
    ∃ item, parsePayment toUpperCase entry = .ok item := by
  obtain ⟨⟨n, hn, hamount⟩, ⟨text, hcurrency⟩, ⟨b, hcaptured⟩⟩ := h
  unfold parsePayment
  rw [if_neg (by rw [hshows.object]; exact Bool.noConfusion), hshows.id, hshows.amount,
    hshows.currency, hshows.captured, hshows.created_at, hamount, hcurrency, hcaptured]
  dsimp only
  rw [if_neg]
  · exact ⟨_, rfl⟩
  · rw [not_or, not_or, Bool.not_eq_false, Bool.not_eq_false]
    exact ⟨isSafeInteger_natCast hn, not_lt.2 (Nat.cast_nonneg n), isInteger_intCast p.created_at⟩

/-- **The items of a page are those of its payments.** -/
theorem parseRazorpayPaymentPage_serves (hserves : Serves raw rows)
    (h : parseRazorpayPaymentPage toUpperCase raw = .ok items) :
    List.Forall₂ (Parsed toUpperCase) items rows := by
  obtain ⟨hobject, entries, hitems, hrows⟩ := hserves
  unfold parseRazorpayPaymentPage at h
  rw [if_neg (by rw [hobject]; exact Bool.noConfusion), hitems] at h
  dsimp only at h
  clear hitems
  induction hrows generalizing items with
  | nil =>
    cases h
    exact .nil
  | cons hshows hrows ih =>
    rw [List.mapM_cons] at h
    obtain ⟨item, hitem, h⟩ := bind_eq_ok_iff.1 h
    obtain ⟨rest, hrest, h⟩ := bind_eq_ok_iff.1 h
    cases h
    exact .cons (parsePayment_shows hshows hitem) (ih hrest)

theorem parseRazorpayPaymentPage_of_wellFormed (toUpperCase : Text → Text)
    (hserves : Serves raw rows) (h : ∀ p ∈ rows, p.WellFormed) :
    ∃ items, parseRazorpayPaymentPage toUpperCase raw = .ok items := by
  obtain ⟨hobject, entries, hitems, hrows⟩ := hserves
  unfold parseRazorpayPaymentPage
  rw [if_neg (by rw [hobject]; exact Bool.noConfusion), hitems]
  dsimp only
  clear hitems
  induction hrows with
  | nil => exact ⟨[], rfl⟩
  | cons hshows hrows ih =>
    obtain ⟨item, hitem⟩ := parsePayment_of_wellFormed hshows (h _ List.mem_cons_self)
    obtain ⟨rest, hrest⟩ := ih fun p hp => h p (List.mem_cons_of_mem _ hp)
    refine ⟨item :: rest, ?_⟩
    rw [List.mapM_cons]
    exact bind_eq_ok_iff.2 ⟨item, hitem, bind_eq_ok_iff.2 ⟨rest, hrest, rfl⟩⟩

end Parsed

end VibemeetBackend.Collected
