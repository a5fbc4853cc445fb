import Mathlib.Data.List.Infix
import Mathlib.Tactic

/-!
# Percent-encoding

Texts are lists of characters.  A percent-encode set holds every character that is not visible ASCII
and leaves the escapes themselves alone, so encoding twice is encoding once.
-/

namespace VibemeetBackend.Encoding

abbrev Text := List Char

def hexDigit (n : ℕ) : Char := Char.ofNat (if n < 10 then 48 + n else 55 + n)

def escape (n : ℕ) : Text := ['%', hexDigit (n / 16), hexDigit (n % 16)]

def isVisible (c : Char) : Bool := 0x20 < c.toNat && c.toNat < 0x7F

structure EncodeSet where
  marked : Char → Bool
  hidden : ∀ c, isVisible c = false → marked c = true
  percent : marked '%' = false
  digits : ∀ n < 16, marked (hexDigit n) = false

def utf8 (c : Char) : List ℕ := (String.utf8EncodeChar c).map UInt8.toNat

def EncodeSet.encodeChar (S : EncodeSet) (c : Char) : Text :=
  if S.marked c = true then (utf8 c).flatMap escape else [c]

def EncodeSet.encode (S : EncodeSet) (t : Text) : Text := t.flatMap S.encodeChar

/-- `Buffer.byteLength(text, 'utf8')`. -/
def byteLength (t : Text) : ℕ := (t.map Char.utf8Size).sum

def EncodeSet.size (S : EncodeSet) (t : Text) : ℕ :=
  (t.map fun c => if S.marked c = true then 3 * c.utf8Size else 1).sum

variable {S : EncodeSet} {c : Char} {t : Text}

/-! ### Bytes and escapes -/

theorem mem_utf8 {b : ℕ} (h : b ∈ utf8 c) : b < 256 ∧ (b = c.toNat ∨ 128 ≤ b) := by
  obtain ⟨u, hu, rfl⟩ := List.mem_map.1 h
  refine ⟨u.toNat_lt, ?_⟩
  unfold String.utf8EncodeChar at hu
  dsimp only at hu
  split at hu
  · rename_i hc
    obtain rfl := List.mem_singleton.1 hu
    left
    show (UInt8.ofNat c.val.toNat).toNat = c.val.toNat
    rw [UInt8.toNat_ofNat']
    omega
  · right
    split at hu
    · simp only [List.mem_cons, List.not_mem_nil, or_false] at hu
      rcases hu with rfl | rfl <;> rw [UInt8.toNat_ofNat'] <;> omega
    · split at hu
      · simp only [List.mem_cons, List.not_mem_nil, or_false] at hu
        rcases hu with rfl | rfl | rfl <;> rw [UInt8.toNat_ofNat'] <;> omega
      · simp only [List.mem_cons, List.not_mem_nil, or_false] at hu
        rcases hu with rfl | rfl | rfl | rfl <;> rw [UInt8.toNat_ofNat'] <;> omega

theorem hexDigit_visible : ∀ n < 16, isVisible (hexDigit n) = true := by decide

theorem toLower_hexDigit_ne : ∀ n < 16, (hexDigit n).toLower ≠ '%' := by decide

theorem toLower_hexDigit_inj :
    ∀ m < 16, ∀ n < 16, (hexDigit m).toLower = (hexDigit n).toLower → m = n := by decide

theorem mem_escape {b : ℕ} (hb : b < 256) (h : c ∈ escape b) :
    isVisible c = true ∧ S.marked c = false := by
  have hhigh : b / 16 < 16 := by omega
  have hlow : b % 16 < 16 := by omega
  simp only [escape, List.mem_cons, List.not_mem_nil, or_false] at h
  rcases h with rfl | rfl | rfl
  · exact ⟨rfl, S.percent⟩
  · exact ⟨hexDigit_visible _ hhigh, S.digits _ hhigh⟩
  · exact ⟨hexDigit_visible _ hlow, S.digits _ hlow⟩

/-! ### Encoded texts -/

theorem encode_cons (c : Char) (t : Text) : S.encode (c :: t) = S.encodeChar c ++ S.encode t := rfl

theorem encodeChar_unmarked (h : S.marked c = false) : S.encodeChar c = [c] := by
  unfold EncodeSet.encodeChar
  rw [if_neg (Bool.eq_false_iff.1 h)]

theorem encodeChar_marked (h : S.marked c = true) : S.encodeChar c = (utf8 c).flatMap escape :=
  if_pos h

theorem mem_encode (h : c ∈ S.encode t) :
    isVisible c = true ∧ S.marked c = false ∧
      (c ∈ t ∨ c = '%' ∨ ∃ n < 16, c = hexDigit n) := by
  obtain ⟨d, hd, hc⟩ := List.mem_flatMap.1 h
  by_cases hmarked : S.marked d = true
  · rw [encodeChar_marked hmarked] at hc
    obtain ⟨b, hb, hescape⟩ := List.mem_flatMap.1 hc
    obtain ⟨hlt, -⟩ := mem_utf8 hb
    obtain ⟨hvisible, hfree⟩ := mem_escape (S := S) hlt hescape
    refine ⟨hvisible, hfree, .inr ?_⟩
    simp only [escape, List.mem_cons, List.not_mem_nil, or_false] at hescape
    rcases hescape with rfl | rfl | rfl
    · exact .inl rfl
    · exact .inr ⟨b / 16, by omega, rfl⟩
    · exact .inr ⟨b % 16, by omega, rfl⟩
  · have hfree : S.marked d = false := Bool.eq_false_iff.2 hmarked
    rw [encodeChar_unmarked hfree] at hc
    obtain rfl := List.mem_singleton.1 hc
    refine ⟨?_, hfree, .inl hd⟩
    by_contra hhidden
    exact hmarked (S.hidden c (Bool.eq_false_iff.2 hhidden))

theorem encode_of_unmarked (h : ∀ c ∈ t, S.marked c = false) : S.encode t = t := by
  induction t with
  | nil => rfl
  | cons c t ih =>
    rw [encode_cons, encodeChar_unmarked (h c List.mem_cons_self),
      ih fun d hd => h d (List.mem_cons_of_mem _ hd)]
    rfl

@[simp] theorem encode_nil : S.encode [] = [] := rfl

theorem utf8_length (c : Char) : (utf8 c).length = c.utf8Size := by
  rw [utf8, List.length_map, String.length_utf8EncodeChar]

theorem exists_mem_utf8 (c : Char) : ∃ b, b ∈ utf8 c := by
  apply List.exists_mem_of_ne_nil
  intro hnil
  have hlength := utf8_length c
  have hpos := c.utf8Size_pos
  rw [hnil, List.length_nil] at hlength
  omega

theorem escape_infix_encode {b : ℕ} (hc : c ∈ t) (h : S.marked c = true) (hb : b ∈ utf8 c) :
    escape b <:+: S.encode t := by
  have hchar : S.encodeChar c <:+: S.encode t :=
    List.infix_of_mem_flatten (List.mem_map_of_mem hc)
  rw [encodeChar_marked h] at hchar
  exact (List.infix_of_mem_flatten (List.mem_map_of_mem hb)).trans hchar

theorem flatMap_escape_length (bs : List ℕ) : (bs.flatMap escape).length = 3 * bs.length := by
  induction bs with
  | nil => rfl
  | cons b bs ih =>
    rw [List.flatMap_cons, List.length_append, ih, List.length_cons]
    show 3 + 3 * bs.length = 3 * (bs.length + 1)
    omega

theorem encode_length (t : Text) : (S.encode t).length = S.size t := by
  induction t with
  | nil => rfl
  | cons c t ih =>
    rw [encode_cons, List.length_append, ih]
    show _ = (if S.marked c = true then 3 * c.utf8Size else 1) + S.size t
    by_cases hmarked : S.marked c = true
    · rw [encodeChar_marked hmarked, flatMap_escape_length, utf8_length, if_pos hmarked]
    · simp [encodeChar_unmarked (Bool.eq_false_iff.2 hmarked), hmarked]

theorem encode_eq_nil : S.encode t = [] ↔ t = [] := by
  constructor
  · intro h
    cases t with
    | nil => rfl
    | cons c t =>
      have hlength := encode_length (S := S) (c :: t)
      rw [h] at hlength
      have hpos : 0 < if S.marked c = true then 3 * c.utf8Size else 1 := by
        have hsize := c.utf8Size_pos
        split <;> omega
      have hsum : S.size (c :: t) = (if S.marked c = true then 3 * c.utf8Size else 1) + S.size t := rfl
      have hzero : ([] : Text).length = 0 := rfl
      omega
  · rintro rfl
    rfl

theorem byteLength_of_visible (h : ∀ c ∈ t, isVisible c = true) : byteLength t = t.length := by
  induction t with
  | nil => rfl
  | cons c t ih =>
    have hc := h c List.mem_cons_self
    have hone : c.utf8Size = 1 := by
      rw [Char.utf8Size_eq_one_iff]
      have hlt := of_decide_eq_true (Bool.and_eq_true_iff.1 hc).2
      show c.toNat ≤ 127
      omega
    show c.utf8Size + byteLength t = t.length + 1
    rw [hone, ih fun d hd => h d (List.mem_cons_of_mem _ hd)]
    omega

/-! ### Escapes in a text -/

def lower (t : Text) : Text := t.map Char.toLower

theorem prefix_encode {q : Text} (hq : '%' ∉ q) (h : q <+: lower (S.encode t)) : q <+: lower t := by
  induction q generalizing t with
  | nil => exact List.nil_prefix
  | cons a q ih =>
    have ha : a ≠ '%' := fun h => hq (h ▸ List.mem_cons_self)
    cases t with
    | nil => exact absurd (List.prefix_nil.1 h) (List.cons_ne_nil a q)
    | cons c t =>
      by_cases hmarked : S.marked c = true
      · rw [encode_cons, encodeChar_marked hmarked] at h
        cases hbytes : utf8 c with
        | nil =>
          obtain ⟨b, hb⟩ := exists_mem_utf8 c
          simp [hbytes] at hb
        | cons b bs =>
          rw [hbytes] at h
          obtain ⟨heq, -⟩ := List.cons_prefix_cons.1 h
          exact absurd heq ha
      · rw [encode_cons, encodeChar_unmarked (Bool.eq_false_iff.2 hmarked)] at h
        obtain ⟨rfl, hrest⟩ := List.cons_prefix_cons.1 h
        exact List.cons_prefix_cons.2
          ⟨rfl, ih (fun hmem => hq (List.mem_cons_of_mem _ hmem)) hrest⟩

theorem infix_of_infix_escapes {n : ℕ} {r rest : Text} {bs : List ℕ} (hn : n < 256)
    (hbs : ∀ b ∈ bs, b < 256 ∧ b ≠ n)
    (h : lower (escape n) ++ r <:+: lower (bs.flatMap escape ++ rest)) :
    lower (escape n) ++ r <:+: lower rest := by
  induction bs with
  | nil => exact h
  | cons b bs ih =>
    obtain ⟨hb, hne⟩ := hbs b List.mem_cons_self
    have hhigh : b / 16 < 16 := by omega
    have hlow : b % 16 < 16 := by omega
    apply ih fun b hb => hbs b (List.mem_cons_of_mem _ hb)
    rcases List.infix_cons_iff.1 h with hstart | h
    · -- the same two digits would be the escape of `n`
      obtain ⟨-, hstart⟩ := List.cons_prefix_cons.1 hstart
      obtain ⟨hdigit, hstart⟩ := List.cons_prefix_cons.1 hstart
      obtain ⟨hdigit', -⟩ := List.cons_prefix_cons.1 hstart
      have hq := toLower_hexDigit_inj (n / 16) (by omega) (b / 16) hhigh hdigit
      have hr := toLower_hexDigit_inj (n % 16) (by omega) (b % 16) hlow hdigit'
      omega
    · rcases List.infix_cons_iff.1 h with hstart | h
      · obtain ⟨hsign, -⟩ := List.cons_prefix_cons.1 hstart
        exact absurd hsign.symm (toLower_hexDigit_ne _ hhigh)
      · rcases List.infix_cons_iff.1 h with hstart | h
        · obtain ⟨hsign, -⟩ := List.cons_prefix_cons.1 hstart
          exact absurd hsign.symm (toLower_hexDigit_ne _ hlow)
        · exact h

/-- **An escape of ASCII that the set does not write**, with what follows it, is found in an encoding
only where the text has it. -/
theorem infix_encode {n : ℕ} {r : Text} (hn : n < 128) (hfree : S.marked (Char.ofNat n) = false)
    (hr : '%' ∉ r) (h : lower (escape n) ++ r <:+: lower (S.encode t)) :
    lower (escape n) ++ r <:+: lower t := by
  induction t with
  | nil => exact h
  | cons c t ih =>
    by_cases hmarked : S.marked c = true
    · have hbytes : ∀ b ∈ utf8 c, b < 256 ∧ b ≠ n := by
        intro b hb
        obtain ⟨hlt, hself | hlarge⟩ := mem_utf8 hb
        · refine ⟨hlt, ?_⟩
          rintro rfl
          simp [hself, Char.ofNat_toNat, hmarked] at hfree
        · exact ⟨hlt, by omega⟩
      rw [encode_cons, encodeChar_marked hmarked] at h
      have hrest := ih (infix_of_infix_escapes (by omega) hbytes h)
      exact List.infix_cons hrest
    · rw [encode_cons, encodeChar_unmarked (Bool.eq_false_iff.2 hmarked)] at h
      rcases List.infix_cons_iff.1 h with hstart | hpart
      · obtain ⟨hsign, hstart⟩ := List.cons_prefix_cons.1 hstart
        have hdigits : '%' ∉ (hexDigit (n / 16)).toLower :: (hexDigit (n % 16)).toLower :: r := by
          have hhigh := toLower_hexDigit_ne (n / 16) (by omega)
          have hlow := toLower_hexDigit_ne (n % 16) (by omega)
          simp only [List.mem_cons, not_or]
          exact ⟨hhigh.symm, hlow.symm, hr⟩
        have htext := prefix_encode hdigits hstart
        exact (List.cons_prefix_cons.2 ⟨hsign, htext⟩).isInfix
      · exact List.infix_cons (ih hpart)

end VibemeetBackend.Encoding
