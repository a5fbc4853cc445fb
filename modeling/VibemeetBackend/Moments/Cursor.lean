import Mathlib.Data.List.TakeWhile
import VibemeetBackend.Billing.Session

/-!
# The text of a popular-feed cursor

A cursor is `score:id`, the place of the last moment shown.  Texts are lists of characters.
The scores that the server prints are integers (`Date.now()`); a cursor that comes in is read
by `Number`, exactly where JavaScript rounds to a double.
-/

namespace VibemeetBackend.Moments

open Billing (isTrimmed)

abbrev Text := List Char

/-- `text.length`: a character outside the basic plane counts twice. -/
def utf16Length (text : Text) : ℕ := (text.map fun c => if c.toNat < 0x10000 then 1 else 2).sum

/-! ### Numbers -/

def digitValue (c : Char) : Option ℕ :=
  if '0' ≤ c ∧ c ≤ '9' then some (c.toNat - 48)
  else if 'a' ≤ c ∧ c ≤ 'f' then some (c.toNat - 87)
  else if 'A' ≤ c ∧ c ≤ 'F' then some (c.toNat - 55)
  else none

/-- The value of digits in base `b`, read on from `n`. -/
def readDigits (b : ℕ) : ℕ → Text → Option ℕ
  | n, [] => some n
  | n, c :: cs =>
    match digitValue c with
    | none => none
    | some d => if d < b then readDigits b (n * b + d) cs else none

def digits (b : ℕ) (text : Text) : Option ℕ :=
  if text = [] then none else readDigits b 0 text

/-- What follows the mantissa: nothing, or an `e` with its digits. -/
def exponent : Text → Option ℤ
  | [] => some 0
  | _ :: '-' :: ds => (digits 10 ds).map fun n => -(n : ℤ)
  | _ :: '+' :: ds => (digits 10 ds).map Nat.cast
  | _ :: ds => (digits 10 ds).map Nat.cast

def isExponent (c : Char) : Bool := c == 'e' || c == 'E'

def unsignedDecimal (text : Text) : Option ℚ :=
  let mantissa := text.takeWhile fun c => !isExponent c
  let whole := mantissa.takeWhile (· != '.')
  let fraction := (mantissa.dropWhile (· != '.')).drop 1
  if whole = [] ∧ fraction = [] then none
  else
    match readDigits 10 0 whole, readDigits 10 0 fraction,
      exponent (text.dropWhile fun c => !isExponent c) with
    | some w, some f, some e => some ((w + f / 10 ^ fraction.length) * (10 : ℚ) ^ e)
    | _, _, _ => none

def signedDecimal : Text → Option ℚ
  | '-' :: text => (unsignedDecimal text).map fun x => -x
  | '+' :: text => unsignedDecimal text
  | text => unsignedDecimal text

def radixOf (c : Char) : Option ℕ :=
  if c = 'x' ∨ c = 'X' then some 16
  else if c = 'o' ∨ c = 'O' then some 8
  else if c = 'b' ∨ c = 'B' then some 2
  else none

def trim (text : Text) : Text := ((text.dropWhile isTrimmed).reverse.dropWhile isTrimmed).reverse

/-- `Number(text)`, when `Number.isFinite` holds of it. -/
def finiteNumber (text : Text) : Option ℚ :=
  match trim text with
  | [] => some 0
  | '0' :: c :: ds =>
    match radixOf c with
    | some b => (digits b ds).map Nat.cast
    | none => signedDecimal ('0' :: c :: ds)
  | text => signedDecimal text

def integerText : ℤ → Text
  | .ofNat n => Nat.toDigits 10 n
  | .negSucc n => '-' :: Nat.toDigits 10 (n + 1)

/-! ### Ids -/

/-- An `ObjectId`: twelve bytes, compared as one number. -/
abbrev ObjectId := Fin (16 ^ 24)

instance objectIds_neZero : NeZero (16 ^ 24) := Nat.instNeZeroHPow

def hexDigit (d : ℕ) : Char := Char.ofNat (if d < 10 then 48 + d else 87 + d)

/-- The last `n` hexadecimal digits. -/
def hexText : ℕ → ℕ → Text
  | 0, _ => []
  | n + 1, x => hexText n (x / 16) ++ [hexDigit (x % 16)]

def ObjectId.toText (id : ObjectId) : Text := hexText 24 id

def readObjectId (text : Text) : Option ObjectId :=
  if text.length = 24 then (digits 16 text).map (Fin.ofNat (16 ^ 24)) else none

/-! ### Cursors -/

structure PopularFeedCursor where
  feedScore : ℚ
  id : ObjectId

def encodePopularFeedCursor (feedScore : ℤ) (id : ObjectId) : Text :=
  integerText feedScore ++ ':' :: ObjectId.toText id

/-- Split at the last `:`, which may not be the first character. -/
def decodePopularFeedCursor (cursor : Text) : Option PopularFeedCursor :=
  let id := (cursor.reverse.takeWhile (· != ':')).reverse
  let front := ((cursor.reverse.dropWhile (· != ':')).drop 1).reverse
  if front = [] then none
  else
    match finiteNumber front, readObjectId id with
    | some feedScore, some id => some ⟨feedScore, id⟩
    | _, _ => none

/-! ### Reading back what was printed -/

theorem readDigits_append (b n : ℕ) (s t : Text) :
    readDigits b n (s ++ t) = (readDigits b n s).bind fun m => readDigits b m t := by
  induction s generalizing n with
  | nil => rfl
  | cons c s ih =>
    rw [List.cons_append, readDigits, readDigits]
    cases digitValue c with
    | none => rfl
    | some d =>
      by_cases hd : d < b
      · simp [hd, ih]
      · simp [hd]

theorem digitValue_hexDigit : ∀ d < 16, digitValue (hexDigit d) = some d := by decide

theorem readDigits_hexText (n x : ℕ) : readDigits 16 0 (hexText n x) = some (x % 16 ^ n) := by
  induction n generalizing x with
  | zero => simp [hexText, readDigits, Nat.mod_one]
  | succ n ih =>
    have hd : x % 16 < 16 := Nat.mod_lt _ (by norm_num)
    rw [hexText, readDigits_append, ih]
    show readDigits 16 _ [hexDigit (x % 16)] = _
    simp [readDigits, digitValue_hexDigit _ hd, hd, pow_succ', Nat.mod_mul, mul_comm, add_comm]

theorem hexText_length (n x : ℕ) : (hexText n x).length = n := by
  induction n generalizing x with
  | zero => rfl
  | succ n ih => simp [hexText, ih]

theorem readObjectId_toText (id : ObjectId) : readObjectId (ObjectId.toText id) = some id := by
  have hlen : (ObjectId.toText id).length = 24 := hexText_length 24 id
  have hne : ObjectId.toText id ≠ [] := by
    intro h
    simp [h] at hlen
  rw [readObjectId, if_pos hlen, digits, if_neg hne, ObjectId.toText, readDigits_hexText,
    Nat.mod_eq_of_lt id.isLt, Option.map_some]
  simp

theorem hexDigit_ne : ∀ d < 16, hexDigit d ≠ ':' := by decide

variable {c : Char}

theorem mem_hexText {n x : ℕ} (h : c ∈ hexText n x) : c ≠ ':' := by
  induction n generalizing x with
  | zero => cases h
  | succ n ih =>
    rcases List.mem_append.1 h with h | h
    · exact ih h
    · rw [List.mem_singleton.1 h]
      exact hexDigit_ne _ (Nat.mod_lt _ (by norm_num))

theorem mem_toDigits {n : ℕ} (h : c ∈ Nat.toDigits 10 n) : c.isDigit = true :=
  Nat.isDigit_of_mem_toDigits (by norm_num) (by norm_num) h

theorem digitValue_of_isDigit (h : c.isDigit = true) :
    digitValue c = some (c.toNat - 48) ∧ c.toNat - 48 < 10 := by
  obtain ⟨h0, h9⟩ : '0' ≤ c ∧ c ≤ '9' := by simpa [Char.isDigit, Char.le_def] using h
  have h48 : 48 ≤ c.toNat := h0
  have h57 : c.toNat ≤ 57 := h9
  exact ⟨by rw [digitValue, if_pos ⟨h0, h9⟩], by omega⟩

variable {text : Text}

theorem readDigits_ofDigitChars (h : ∀ c ∈ text, c.isDigit = true) (n : ℕ) :
    readDigits 10 n text = some (Nat.ofDigitChars 10 text n) := by
  induction text generalizing n with
  | nil => rfl
  | cons c text ih =>
    obtain ⟨hvalue, hlt⟩ := digitValue_of_isDigit (h c (by simp))
    rw [readDigits, hvalue]
    show (if c.toNat - 48 < 10 then readDigits 10 (n * 10 + (c.toNat - 48)) text else none) = _
    simp [hlt, ih fun a ha => h a (by simp [ha]), Nat.ofDigitChars_cons, mul_comm]

def Printed (c : Char) : Prop := c.isDigit = true ∨ c = '-'

theorem Printed.code (h : Printed c) : (48 ≤ c.toNat ∧ c.toNat ≤ 57) ∨ c = '-' := by
  apply h.imp_left
  intro hd
  obtain ⟨h0, h9⟩ : '0' ≤ c ∧ c ≤ '9' := by simpa [Char.isDigit, Char.le_def] using hd
  exact ⟨h0, h9⟩

theorem Printed.ne {d : Char} (h : Printed c) (hd : ¬ Printed d) : c ≠ d := by
  intro heq
  exact hd (heq ▸ h)

theorem Printed.not_trimmed (h : Printed c) : isTrimmed c = false := by
  rcases h.code with ⟨h48, h57⟩ | rfl
  · simp only [isTrimmed, Bool.or_eq_false_iff, Bool.and_eq_false_iff, decide_eq_false_iff_not,
      beq_eq_false_iff_ne]
    omega
  · decide

theorem Printed.radixOf (h : Printed c) : radixOf c = none := by
  have hx : ∀ d ∈ ['x', 'X', 'o', 'O', 'b', 'B'], c ≠ d := fun d hd =>
    h.ne (by revert d; simp [Printed])
  simp [Moments.radixOf, hx]

theorem integerText_printed {n : ℤ} (h : c ∈ integerText n) : Printed c := by
  cases n with
  | ofNat n => exact .inl (mem_toDigits h)
  | negSucc n =>
    rcases List.mem_cons.1 h with h | h
    · exact .inr h
    · exact .inl (mem_toDigits h)

theorem integerText_ne_nil (n : ℤ) : integerText n ≠ [] := by
  cases n with
  | ofNat n => exact Nat.toDigits_ne_nil
  | negSucc n => exact List.cons_ne_nil _ _

theorem dropWhile_trimmed (h : ∀ c ∈ text, Printed c) : text.dropWhile isTrimmed = text := by
  cases text with
  | nil => rfl
  | cons c text => rw [List.dropWhile_cons, (h c (by simp)).not_trimmed, if_neg (by simp)]

theorem trim_printed (h : ∀ c ∈ text, Printed c) : trim text = text := by
  rw [trim, dropWhile_trimmed h, dropWhile_trimmed fun c hc => h c (List.mem_reverse.1 hc),
    List.reverse_reverse]

theorem unsignedDecimal_digits (hne : text ≠ []) (h : ∀ c ∈ text, c.isDigit = true) :
    unsignedDecimal text = some ((Nat.ofDigitChars 10 text 0 : ℕ) : ℚ) := by
  have hmantissa : ∀ c ∈ text, (!isExponent c) = true := by
    intro c hc
    have he := (Printed.ne (.inl (h c hc)) (d := 'e') (by simp [Printed]))
    have hE := (Printed.ne (.inl (h c hc)) (d := 'E') (by simp [Printed]))
    simp [isExponent, he, hE]
  have hwhole : ∀ c ∈ text, (c != '.') = true := by
    intro c hc
    simpa using Printed.ne (.inl (h c hc)) (d := '.') (by simp [Printed])
  have hrest : text.dropWhile (fun c => !isExponent c) = [] := List.dropWhile_eq_nil_iff.2 hmantissa
  have hfraction : text.dropWhile (· != '.') = [] := List.dropWhile_eq_nil_iff.2 hwhole
  rw [unsignedDecimal, List.takeWhile_eq_self_iff.2 hmantissa, hrest, hfraction,
    List.takeWhile_eq_self_iff.2 hwhole, readDigits_ofDigitChars h]
  simp [hne, readDigits, exponent]

theorem signedDecimal_integerText (n : ℤ) : signedDecimal (integerText n) = some (n : ℚ) := by
  cases n with
  | ofNat n =>
    have hdigits : ∀ c ∈ Nat.toDigits 10 n, c.isDigit = true := fun c => mem_toDigits
    show signedDecimal (Nat.toDigits 10 n) = _
    have hread : unsignedDecimal (Nat.toDigits 10 n) = some (n : ℚ) := by
      rw [unsignedDecimal_digits Nat.toDigits_ne_nil hdigits, Nat.ofDigitChars_ten_toDigits]
    cases hds : Nat.toDigits 10 n with
    | nil => exact absurd hds Nat.toDigits_ne_nil
    | cons c ds =>
      have hc : c.isDigit = true := hdigits c (by simp [hds])
      rw [signedDecimal.eq_3 (c :: ds)]
      · rw [← hds, hread]
        rfl
      · rintro ds' heq
        rw [(List.cons_eq_cons.1 heq).1] at hc
        revert hc
        decide
      · rintro ds' heq
        rw [(List.cons_eq_cons.1 heq).1] at hc
        revert hc
        decide
  | negSucc n =>
    show (unsignedDecimal (Nat.toDigits 10 (n + 1))).map (fun x => -x) = _
    rw [unsignedDecimal_digits Nat.toDigits_ne_nil fun c => mem_toDigits,
      Nat.ofDigitChars_ten_toDigits, Option.map_some, Int.cast_negSucc]

theorem finiteNumber_integerText (n : ℤ) : finiteNumber (integerText n) = some (n : ℚ) := by
  have hprinted : ∀ c ∈ integerText n, Printed c := fun c => integerText_printed
  rw [← signedDecimal_integerText n, finiteNumber, trim_printed hprinted]
  split
  · next h => exact absurd h (integerText_ne_nil n)
  · next c ds h =>
      rw [(hprinted c (by simp [h])).radixOf, h]
  · rfl

theorem split_last {id : Text} (h : ∀ c ∈ id, c ≠ ':') (front : Text) :
    ((front ++ ':' :: id).reverse.takeWhile (· != ':')).reverse = id ∧
      (((front ++ ':' :: id).reverse.dropWhile (· != ':')).drop 1).reverse = front := by
  have hid : ∀ c ∈ id.reverse, (c != ':') = true := by
    intro c hc
    simpa using h c (List.mem_reverse.1 hc)
  have hrev : (front ++ ':' :: id).reverse = id.reverse ++ ':' :: front.reverse := by simp
  rw [hrev, List.takeWhile_append_of_pos hid, List.dropWhile_append_of_pos hid]
  simp

theorem decode_encode (feedScore : ℤ) (id : ObjectId) :
    decodePopularFeedCursor (encodePopularFeedCursor feedScore id) = some ⟨feedScore, id⟩ := by
  have hdigits : ∀ c ∈ hexText 24 id, c ≠ ':' := fun c => mem_hexText (n := 24) (x := id) (c := c)
  obtain ⟨hid, hfront⟩ := split_last hdigits (integerText feedScore)
  simp only [decodePopularFeedCursor, encodePopularFeedCursor, ObjectId.toText, hid, hfront,
    integerText_ne_nil, if_false, finiteNumber_integerText]
  have hread : readObjectId (hexText 24 id) = some id := readObjectId_toText id
  rw [hread]

end VibemeetBackend.Moments
