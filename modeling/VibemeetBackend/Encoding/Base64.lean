import Mathlib.Data.List.Basic

/-!
# Base64

Bytes as sequences of sextets, and sextets as characters, with a decoder that takes the low byte of
each UTF-16 code unit, stops at the first `=` and skips what is outside the alphabet.  It reads the
standard alphabet and the one for URLs.
-/

namespace VibemeetBackend.Encoding

/-- The sextets of some bytes, the last one filled with zeros. -/
def sextets : List UInt8 → List ℕ
  | [] => []
  | [a] => [a.toNat / 4, a.toNat % 4 * 16]
  | [a, b] => [a.toNat / 4, a.toNat % 4 * 16 + b.toNat / 16, b.toNat % 16 * 4]
  | a :: b :: c :: rest =>
    a.toNat / 4 :: (a.toNat % 4 * 16 + b.toNat / 16) :: (b.toNat % 16 * 4 + c.toNat / 64) ::
      c.toNat % 64 :: sextets rest

/-- The bytes of some sextets; a single one at the end has none. -/
def bytes : List ℕ → List UInt8
  | a :: b :: c :: d :: rest =>
    UInt8.ofNat (a * 4 + b / 16) :: UInt8.ofNat (b % 16 * 16 + c / 4) ::
      UInt8.ofNat (c % 4 * 64 + d) :: bytes rest
  | [a, b, c] => [UInt8.ofNat (a * 4 + b / 16), UInt8.ofNat (b % 16 * 16 + c / 4)]
  | [a, b] => [UInt8.ofNat (a * 4 + b / 16)]
  | _ => []

theorem ofNat_eq_of_toNat {n : ℕ} {a : UInt8} (h : n = a.toNat) : UInt8.ofNat n = a := by
  rw [h, UInt8.ofNat_toNat]

theorem bytes_sextets (bs : List UInt8) : bytes (sextets bs) = bs := by
  induction bs using sextets.induct with
  | case1 => rfl
  | case2 a =>
    have ha := a.toNat_lt
    simp only [sextets, bytes]
    rw [ofNat_eq_of_toNat (a := a) (by omega)]
  | case3 a b =>
    have ha := a.toNat_lt
    have hb := b.toNat_lt
    simp only [sextets, bytes]
    rw [ofNat_eq_of_toNat (a := a) (by omega), ofNat_eq_of_toNat (a := b) (by omega)]
  | case4 a b c rest ih =>
    have ha := a.toNat_lt
    have hb := b.toNat_lt
    have hc := c.toNat_lt
    simp only [sextets, bytes, ih]
    rw [ofNat_eq_of_toNat (a := a) (by omega), ofNat_eq_of_toNat (a := b) (by omega),
      ofNat_eq_of_toNat (a := c) (by omega)]

theorem sextets_lt (bs : List UInt8) : ∀ n ∈ sextets bs, n < 64 := by
  induction bs using sextets.induct with
  | case1 => exact fun n hn => (nomatch hn)
  | case2 a =>
    have ha := a.toNat_lt
    simp only [sextets, List.forall_mem_cons, List.not_mem_nil, false_imp_iff, implies_true,
      and_true]
    omega
  | case3 a b =>
    have ha := a.toNat_lt
    have hb := b.toNat_lt
    simp only [sextets, List.forall_mem_cons, List.not_mem_nil, false_imp_iff, implies_true,
      and_true]
    omega
  | case4 a b c rest ih =>
    have ha := a.toNat_lt
    have hb := b.toNat_lt
    have hc := c.toNat_lt
    simp only [sextets, List.forall_mem_cons]
    refine ⟨?_, ?_, ?_, ?_, ih⟩ <;> omega

theorem sextets_length (bs : List UInt8) : (sextets bs).length = (bs.length * 4 + 2) / 3 := by
  induction bs using sextets.induct with
  | case1 => rfl
  | case2 a => simp [sextets]
  | case3 a b => simp [sextets]
  | case4 a b c rest ih =>
    simp only [sextets, List.length_cons, ih]
    omega

/-! ### Characters -/

def sextetChar (n : ℕ) : Char :=
  if n < 26 then Char.ofNat (65 + n)
  else if n < 52 then Char.ofNat (71 + n)
  else if n < 62 then Char.ofNat (n - 4)
  else if n = 62 then '+'
  else '/'

def charSextet (c : Char) : Option ℕ :=
  if 'A' ≤ c ∧ c ≤ 'Z' then some (c.toNat - 65)
  else if 'a' ≤ c ∧ c ≤ 'z' then some (c.toNat - 71)
  else if '0' ≤ c ∧ c ≤ '9' then some (c.toNat + 4)
  else if c = '+' ∨ c = '-' then some 62
  else if c = '/' ∨ c = '_' then some 63
  else none

def padding (n : ℕ) : ℕ :=
  match n % 3 with
  | 1 => 2
  | 2 => 1
  | _ => 0

def encode (bs : List UInt8) : List Char :=
  (sextets bs).map sextetChar ++ List.replicate (padding bs.length) '='

/-- The low bytes of the code units of a character. -/
def lowBytes (c : Char) : List Char :=
  if c.toNat < 0x10000 then [Char.ofNat (c.toNat % 256)]
  else [Char.ofNat ((c.toNat - 0x10000) / 0x400 % 256), Char.ofNat (c.toNat % 256)]

def decode (text : List Char) : List UInt8 :=
  bytes (((text.flatMap lowBytes).takeWhile (· ≠ '=')).filterMap charSextet)

theorem toNat_lt_of_charSextet {c : Char} {n : ℕ} (h : charSextet c = some n) : c.toNat < 256 := by
  have hle : ∀ d : Char, c ≤ d → c.toNat ≤ d.toNat := fun d hd => hd
  by_contra hge
  have hno : ∀ d : Char, d.toNat < 256 → ¬c ≤ d := fun d hd hcd =>
    hge (Nat.lt_of_le_of_lt (hle d hcd) hd)
  have hne : ∀ d : Char, d.toNat < 256 → c ≠ d := fun d hd hcd => hge (hcd ▸ hd)
  simp [charSextet, hno 'Z' (by decide), hno 'z' (by decide), hno '9' (by decide),
    hne '+' (by decide), hne '-' (by decide), hne '/' (by decide), hne '_' (by decide)] at h

theorem lowBytes_of_charSextet {c : Char} {n : ℕ} (h : charSextet c = some n) :
    lowBytes c = [c] := by
  have hlt := toNat_lt_of_charSextet h
  rw [lowBytes, if_pos (by omega), Nat.mod_eq_of_lt hlt, Char.ofNat_toNat]

variable {f : ℕ → Char}

theorem lowBytes_chars (hf : ∀ n < 64, charSextet (f n) = some n) {ns : List ℕ}
    (hns : ∀ n ∈ ns, n < 64) : (ns.map f).flatMap lowBytes = ns.map f := by
  induction ns with
  | nil => rfl
  | cons n ns ih =>
    have hn := lowBytes_of_charSextet (hf n (hns n List.mem_cons_self))
    rw [List.map_cons, List.flatMap_cons, hn, ih fun m hm => hns m (List.mem_cons_of_mem n hm)]
    rfl

theorem filterMap_chars (hf : ∀ n < 64, charSextet (f n) = some n) {ns : List ℕ}
    (hns : ∀ n ∈ ns, n < 64) : (ns.map f).filterMap charSextet = ns := by
  induction ns with
  | nil => rfl
  | cons n ns ih =>
    have hn := hf n (hns n List.mem_cons_self)
    rw [List.map_cons, List.filterMap_cons_some hn, ih fun m hm => hns m (List.mem_cons_of_mem n hm)]

/-- Characters that stand for the sextets of some bytes decode to them, padded or not. -/
theorem decode_chars (hf : ∀ n < 64, charSextet (f n) = some n) (bs : List UInt8) (k : ℕ) :
    decode ((sextets bs).map f ++ List.replicate k '=') = bs := by
  have hpad : ((List.replicate k '=').flatMap lowBytes).takeWhile (· ≠ '=') = [] := by
    cases k with
    | zero => rfl
    | succ k => rfl
  have hkeep : ∀ c ∈ (sextets bs).map f, decide (c ≠ '=') = true := by
    intro c hc
    obtain ⟨n, hn, rfl⟩ := List.mem_map.1 hc
    have hsome := hf n (sextets_lt bs n hn)
    apply decide_eq_true
    rintro heq
    rw [heq] at hsome
    cases hsome
  rw [decode, List.flatMap_append, lowBytes_chars hf (sextets_lt bs),
    List.takeWhile_append_of_pos hkeep, hpad, List.append_nil,
    filterMap_chars hf (sextets_lt bs), bytes_sextets]

end VibemeetBackend.Encoding
