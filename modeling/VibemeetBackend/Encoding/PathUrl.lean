import Mathlib.Data.List.DropRight
import VibemeetBackend.Encoding.Percent

/-!
# Path-absolute URLs

The part of the URL standard that reads a text of the form `/path?query#fragment` against a base with
a special scheme: the path is split at its slashes, its dot segments are resolved, and path, query and
fragment are percent-encoded, each with its own set.
-/

namespace VibemeetBackend.Encoding

/-! ### Percent-encode sets -/

def EncodeSet.adding (extra : Text) (hpercent : '%' ∉ extra)
    (hdigits : ∀ n < 16, hexDigit n ∉ extra) : EncodeSet where
  marked c := !isVisible c || extra.contains c
  hidden c h := by rw [h]; rfl
  percent := by
    show (false || extra.contains '%') = false
    rw [Bool.false_or, List.contains_eq_mem]
    exact decide_eq_false hpercent
  digits n hn := by
    rw [hexDigit_visible n hn, List.contains_eq_mem]
    exact decide_eq_false (hdigits n hn)

def fragmentSet : EncodeSet := .adding ['"', '<', '>', '`'] (by decide) (by decide)

def querySet : EncodeSet := .adding ['"', '#', '<', '>', '\''] (by decide) (by decide)

def pathSet : EncodeSet :=
  .adding ['"', '#', '<', '>', '?', '^', '`', '{', '}'] (by decide) (by decide)

/-! ### Parsing -/

/-- The text without spaces and controls around it, and without tabs and line ends. -/
def stripped (t : Text) : Text :=
  ((t.dropWhile fun c => c.toNat ≤ 0x20).rdropWhile fun c => c.toNat ≤ 0x20).filter fun c =>
    c ≠ '\t' ∧ c ≠ '\n' ∧ c ≠ '\r'

/-- What comes before the first separator, and what comes after it if there is one. -/
def cut (sep : Char) : Text → Text × Option Text
  | [] => ([], none)
  | c :: t => if c = sep then ([], some t) else (c :: (cut sep t).1, (cut sep t).2)

def singleDots : List Text := [['.'], ['%', '2', 'e']]

def doubleDots : List Text :=
  [['.', '.'], ['.', '%', '2', 'e'], ['%', '2', 'e', '.'], ['%', '2', 'e', '%', '2', 'e']]

def isSingleDot (s : Text) : Bool := singleDots.contains (lower s)

def isDoubleDot (s : Text) : Bool := doubleDots.contains (lower s)

/-- The segments after the path that is there: a dot segment at the end leaves an empty one. -/
def resolve (path : List Text) : List Text → List Text
  | [] => path
  | [s] =>
    if isDoubleDot s = true then path.dropLast ++ [[]]
    else if isSingleDot s = true then path ++ [[]]
    else path ++ [s]
  | s :: u :: rest =>
    if isDoubleDot s = true then resolve path.dropLast (u :: rest)
    else if isSingleDot s = true then resolve path (u :: rest)
    else resolve (path ++ [s]) (u :: rest)

structure PathUrl where
  path : List Text
  query : Option Text
  fragment : Option Text

/-- The segments, the query and the fragment as they are written, after the first slash. -/
def splitPath (rest : Text) : PathUrl where
  path := (cut '?' (cut '#' rest).1).1.splitOn '/'
  query := (cut '?' (cut '#' rest).1).2
  fragment := (cut '#' rest).2

def parsePath (rest : Text) : PathUrl where
  path := resolve [] ((splitPath rest).path.map pathSet.encode)
  query := (splitPath rest).query.map querySet.encode
  fragment := (splitPath rest).fragment.map fragmentSet.encode

namespace PathUrl

def pathname (u : PathUrl) : Text := u.path.flatMap fun s => '/' :: s

def part (sign : Char) : Option Text → Text
  | none | some [] => []
  | some (c :: t) => sign :: c :: t

def search (u : PathUrl) : Text := part '?' u.query

def hash (u : PathUrl) : Text := part '#' u.fragment

def href (u : PathUrl) : Text := u.pathname ++ u.search ++ u.hash

end PathUrl

/-! ### Cuts -/

variable {sep : Char} {t a b p : Text}

theorem cut_of_notMem (h : sep ∉ t) : cut sep t = (t, none) := by
  induction t with
  | nil => rfl
  | cons c t ih =>
    obtain ⟨hc, ht⟩ := not_or.1 (List.mem_cons.not.1 h)
    rw [cut, if_neg fun heq => hc heq.symm, ih ht]

theorem cut_append (h : sep ∉ a) : cut sep (a ++ sep :: b) = (a, some b) := by
  induction a with
  | nil => exact if_pos rfl
  | cons c a ih =>
    obtain ⟨hc, ha⟩ := not_or.1 (List.mem_cons.not.1 h)
    rw [List.cons_append, cut, if_neg fun heq => hc heq.symm, ih ha]

theorem cut_part (h : sep ∉ a) (o : Option Text) :
    cut sep (a ++ PathUrl.part sep o) = (a, o.filter fun t => !t.isEmpty) := by
  cases o with
  | none =>
    show cut sep (a ++ []) = _
    rw [List.append_nil]
    exact cut_of_notMem h
  | some u =>
    cases u with
    | nil =>
      show cut sep (a ++ []) = _
      rw [List.append_nil]
      exact cut_of_notMem h
    | cons c u => exact cut_append h

theorem cut_cases (sep : Char) (t : Text) :
    (sep ∉ t ∧ cut sep t = (t, none)) ∨
      ∃ a b, t = a ++ sep :: b ∧ sep ∉ a ∧ cut sep t = (a, some b) := by
  by_cases h : sep ∈ t
  · obtain ⟨a, b, rfl, ha⟩ := List.eq_append_cons_of_mem h
    exact .inr ⟨a, b, rfl, ha, cut_append ha⟩
  · exact .inl ⟨h, cut_of_notMem h⟩

theorem infix_cut_fst (sep : Char) (t : Text) : (cut sep t).1 <:+: t := by
  rcases cut_cases sep t with ⟨-, hcut⟩ | ⟨a, b, rfl, -, hcut⟩
  · rw [hcut]
  · rw [hcut]
    exact List.infix_append_left

theorem infix_cut_snd (h : (cut sep t).2 = some b) : b <:+: t := by
  rcases cut_cases sep t with ⟨-, hcut⟩ | ⟨a, b', rfl, -, hcut⟩
  · simp [hcut] at h
  · rw [hcut] at h
    obtain rfl := Option.some.inj h
    exact ((List.suffix_cons sep b').trans (List.suffix_append a _)).isInfix

variable {s : Text}

theorem mem_splitOn (h : s ∈ t.splitOn sep) : sep ∉ s ∧ s <:+: t := by
  induction hn : t.length using Nat.strong_induction_on generalizing t with
  | _ n ih =>
    rcases cut_cases sep t with ⟨hsep, -⟩ | ⟨a, b, rfl, ha, -⟩
    · rw [List.splitOn_eq_singleton hsep] at h
      obtain rfl := List.mem_singleton.1 h
      exact ⟨hsep, List.infix_rfl⟩
    · rw [List.splitOn_append_cons_self_of_not_mem ha] at h
      rcases List.mem_cons.1 h with rfl | h
      · exact ⟨ha, List.infix_append_left⟩
      · have hlt : b.length < n := by
          rw [← hn, List.length_append, List.length_cons]
          omega
        obtain ⟨hs, hpart⟩ := ih b.length hlt h rfl
        have hsuffix : b <:+ a ++ sep :: b := (List.suffix_cons sep b).trans (List.suffix_append a _)
        exact ⟨hs, hpart.trans hsuffix.isInfix⟩

theorem prefix_of_prefix_append (hp : sep ∉ p) (h : p <+: a ++ sep :: b) : p <+: a := by
  induction p generalizing a with
  | nil => exact List.nil_prefix
  | cons c p ih =>
    obtain ⟨hc, hp⟩ := not_or.1 (List.mem_cons.not.1 hp)
    cases a with
    | nil =>
      obtain ⟨heq, -⟩ := List.cons_prefix_cons.1 h
      exact absurd heq.symm hc
    | cons d a =>
      obtain ⟨rfl, hrest⟩ := List.cons_prefix_cons.1 h
      exact List.cons_prefix_cons.2 ⟨rfl, ih hp hrest⟩

theorem infix_of_infix_append (hp : sep ∉ p) (hne : p ≠ []) (h : p <:+: a ++ sep :: b) :
    p <:+: a ∨ p <:+: b := by
  induction a with
  | nil =>
    rcases List.infix_cons_iff.1 h with hstart | hpart
    · exact absurd (List.prefix_nil.1 (prefix_of_prefix_append (a := []) hp hstart)) hne
    · exact .inr hpart
  | cons d a ih =>
    rcases List.infix_cons_iff.1 h with hstart | hpart
    · exact .inl (prefix_of_prefix_append (a := d :: a) hp hstart).isInfix
    · exact (ih hpart).imp_left List.infix_cons

/-! ### Dot segments -/

def Plain (s : Text) : Prop := isDoubleDot s = false ∧ isSingleDot s = false

theorem plain_nil : Plain [] := ⟨rfl, rfl⟩

variable {path : List Text}

section resolve

attribute [local simp] resolve

variable {segs : List Text}

theorem resolve_ne_nil (path : List Text) (h : segs ≠ []) : resolve path segs ≠ [] := by
  induction path, segs using resolve.induct with
  | case1 path => exact absurd rfl h
  | case2 path s hdouble => simp [hdouble]
  | case3 path s hdouble hsingle => simp [hdouble, hsingle]
  | case4 path s hdouble hsingle => simp [hdouble, hsingle]
  | case5 path s u rest hdouble ih =>
    rw [resolve, if_pos hdouble]
    exact ih (List.cons_ne_nil _ _)
  | case6 path s u rest hdouble hsingle ih =>
    simpa [hdouble, hsingle] using ih (List.cons_ne_nil _ _)
  | case7 path s u rest hdouble hsingle ih =>
    simpa [hdouble, hsingle] using ih (List.cons_ne_nil _ _)

theorem mem_resolve (h : s ∈ resolve path segs) : s ∈ path ∨ s = [] ∨ (s ∈ segs ∧ Plain s) := by
  induction path, segs using resolve.induct with
  | case1 path => exact .inl h
  | case2 path d hdouble =>
    rw [resolve, if_pos hdouble] at h
    rcases List.mem_append.1 h with h | h
    · exact .inl (List.dropLast_subset path h)
    · exact .inr (.inl (List.mem_singleton.1 h))
  | case3 path d hdouble hsingle =>
    rw [resolve, if_neg hdouble, if_pos hsingle] at h
    rcases List.mem_append.1 h with h | h
    · exact .inl h
    · exact .inr (.inl (List.mem_singleton.1 h))
  | case4 path d hdouble hsingle =>
    rw [resolve, if_neg hdouble, if_neg hsingle] at h
    rcases List.mem_append.1 h with h | h
    · exact .inl h
    · obtain rfl := List.mem_singleton.1 h
      exact .inr (.inr ⟨h, Bool.eq_false_iff.2 hdouble, Bool.eq_false_iff.2 hsingle⟩)
  | case5 path d u rest hdouble ih =>
    rw [resolve, if_pos hdouble] at h
    rcases ih h with h | h | ⟨h, hplain⟩
    · exact .inl (List.dropLast_subset path h)
    · exact .inr (.inl h)
    · exact .inr (.inr ⟨List.mem_cons_of_mem _ h, hplain⟩)
  | case6 path d u rest hdouble hsingle ih =>
    rw [resolve, if_neg hdouble, if_pos hsingle] at h
    rcases ih h with h | h | ⟨h, hplain⟩
    · exact .inl h
    · exact .inr (.inl h)
    · exact .inr (.inr ⟨List.mem_cons_of_mem _ h, hplain⟩)
  | case7 path d u rest hdouble hsingle ih =>
    rw [resolve, if_neg hdouble, if_neg hsingle] at h
    rcases ih h with h | h | ⟨h, hplain⟩
    · rcases List.mem_append.1 h with h | h
      · exact .inl h
      · obtain rfl := List.mem_singleton.1 h
        exact .inr (.inr ⟨List.mem_cons_self, Bool.eq_false_iff.2 hdouble,
          Bool.eq_false_iff.2 hsingle⟩)
    · exact .inr (.inl h)
    · exact .inr (.inr ⟨List.mem_cons_of_mem _ h, hplain⟩)

theorem resolve_plain (h : ∀ s ∈ segs, Plain s) : resolve path segs = path ++ segs := by
  induction segs generalizing path with
  | nil => exact (List.append_nil path).symm
  | cons s segs ih =>
    obtain ⟨hdouble, hsingle⟩ := h s List.mem_cons_self
    have hrest : ∀ u ∈ segs, Plain u := fun u hu => h u (List.mem_cons_of_mem _ hu)
    cases segs <;> simp_all

theorem resolve_map {f : Text → Text} (hnil : f [] = [])
    (hdouble : ∀ s, isDoubleDot (f s) = isDoubleDot s)
    (hsingle : ∀ s, isSingleDot (f s) = isSingleDot s) (path segs : List Text) :
    resolve (path.map f) (segs.map f) = (resolve path segs).map f := by
  have hnew : ∀ (path : List Text) (s : Text), path.map f ++ [f s] = (path ++ [s]).map f := by
    intro path s
    rw [List.map_append]
    rfl
  have hempty : ∀ path : List Text, path.map f ++ [[]] = (path ++ [[]]).map f := by
    intro path
    rw [← hnew path [], hnil]
  induction path, segs using resolve.induct with
  | case1 path => rfl
  | case2 path s h =>
    show resolve (path.map f) [f s] = _
    simp [h, ((hdouble s).trans h), ← List.map_dropLast, hempty]
  | case3 path s h h' =>
    show resolve (path.map f) [f s] = _
    simp_all
  | case4 path s h h' =>
    show resolve (path.map f) [f s] = _
    simp_all
  | case5 path s u rest h ih =>
    show resolve (path.map f) (f s :: f u :: rest.map f) = _
    simpa [h, ((hdouble s).trans h)] using ih
  | case6 path s u rest h h' ih =>
    show resolve (path.map f) (f s :: f u :: rest.map f) = _
    simp_all
  | case7 path s u rest h h' ih =>
    show resolve (path.map f) (f s :: f u :: rest.map f) = _
    simp_all

end resolve

/-! ### Dot segments and encoding -/

variable {c : Char}

theorem toLower_of_marked (h : pathSet.marked c = true) : c.toLower = c := by
  by_contra hne
  have hupper : c.isUpper = true := by
    by_contra hlower
    apply hne
    unfold Char.toLower
    rw [dif_neg]
    intro hrange
    apply hlower
    unfold Char.isUpper
    simpa using hrange
  have hrange : 65 ≤ c.toNat ∧ c.toNat ≤ 90 := by
    unfold Char.isUpper at hupper
    simpa [UInt32.le_iff_toNat_le] using hupper
  rcases Bool.or_eq_true_iff.1 h with hhidden | hextra
  · have hvisible : isVisible c = true := by
      unfold isVisible
      simp only [Bool.and_eq_true, decide_eq_true_eq]
      omega
    simp [hvisible] at hhidden
  · rw [List.contains_eq_mem, decide_eq_true_eq] at hextra
    have hextras : (['"', '#', '<', '>', '?', '^', '`', '{', '}'].all fun e => !e.isUpper) = true := by
      decide
    have hnot := List.all_eq_true.1 hextras c hextra
    simp [hupper] at hnot

theorem dots_unmarked {q : Text} (hq : q ∈ singleDots ++ doubleDots) (hc : c ∈ q) :
    pathSet.marked c = false := by
  have hall : ((singleDots ++ doubleDots).all fun q => q.all fun c => !pathSet.marked c) = true := by
    decide
  have hq := List.all_eq_true.1 hall q hq
  have hc := List.all_eq_true.1 hq c hc
  rwa [Bool.not_eq_true'] at hc

theorem dots_escape : ∀ q ∈ singleDots ++ doubleDots, ∀ b < 256,
    lower (escape b) <:+: q → b = 0x2E := by decide +kernel

theorem lower_notDot {q : Text} (hq : q ∈ singleDots ++ doubleDots) (hc : c ∈ s)
    (h : pathSet.marked c = true) : lower s ≠ q := by
  rintro rfl
  have hmem : c ∈ lower s := List.mem_map.2 ⟨c, hc, toLower_of_marked h⟩
  simp [dots_unmarked hq hmem] at h

theorem lower_encode_notDot {q : Text} (hq : q ∈ singleDots ++ doubleDots) (hc : c ∈ s)
    (h : pathSet.marked c = true) : lower (pathSet.encode s) ≠ q := by
  rintro rfl
  obtain ⟨b, hb⟩ := exists_mem_utf8 c
  have hdot := dots_escape _ hq b (mem_utf8 hb).1 ((escape_infix_encode hc h hb).map _)
  rcases (mem_utf8 hb).2 with hself | hlarge
  · have hchar : c = '.' := by
      rw [← Char.ofNat_toNat c, ← hself, hdot]
    rw [hchar] at h
    exact absurd h (by decide)
  · omega

/-- **Encoding makes no dot segment and loses none.** -/
theorem contains_lower_encode {dots : List Text} (hdots : dots ⊆ singleDots ++ doubleDots)
    (s : Text) : dots.contains (lower (pathSet.encode s)) = dots.contains (lower s) := by
  by_cases h : ∃ c ∈ s, pathSet.marked c = true
  · obtain ⟨c, hc, hmarked⟩ := h
    rw [List.contains_eq_mem, List.contains_eq_mem]
    have hencoded : lower (pathSet.encode s) ∉ dots := fun hmem =>
      lower_encode_notDot (hdots hmem) hc hmarked rfl
    have hwritten : lower s ∉ dots := fun hmem => lower_notDot (hdots hmem) hc hmarked rfl
    rw [decide_eq_false hencoded, decide_eq_false hwritten]
  · have hfree : ∀ c ∈ s, pathSet.marked c = false :=
      fun c hc => Bool.eq_false_iff.2 fun hmarked => h ⟨c, hc, hmarked⟩
    rw [encode_of_unmarked hfree]

theorem resolve_encode (segs : List Text) :
    resolve [] (segs.map pathSet.encode) = (resolve [] segs).map pathSet.encode :=
  resolve_map rfl (contains_lower_encode (List.subset_append_right _ _))
    (contains_lower_encode (List.subset_append_left _ _)) [] segs

variable {o : Option Text} {u : PathUrl}

/-! ### Serialization -/

namespace PathUrl

/-- What a parse gives: segments, a query and a fragment that are encoded. -/
structure Canonical (u : PathUrl) : Prop where
  path_ne_nil : u.path ≠ []
  path : ∀ s ∈ u.path, Plain s ∧ '/' ∉ s ∧ ∀ c ∈ s, pathSet.marked c = false
  query : ∀ q ∈ u.query, ∀ c ∈ q, querySet.marked c = false
  fragment : ∀ f ∈ u.fragment, ∀ c ∈ f, fragmentSet.marked c = false

def withoutEmpty (u : PathUrl) : PathUrl :=
  { u with
    query := u.query.filter fun t => !t.isEmpty
    fragment := u.fragment.filter fun t => !t.isEmpty }

theorem part_filter (sign : Char) (o : Option Text) :
    part sign (o.filter fun t => !t.isEmpty) = part sign o := by
  cases o with
  | none => rfl
  | some t => cases t <;> rfl

theorem href_withoutEmpty (u : PathUrl) : u.withoutEmpty.href = u.href := by
  have hsearch : u.withoutEmpty.search = u.search := part_filter '?' u.query
  have hhash : u.withoutEmpty.hash = u.hash := part_filter '#' u.fragment
  show u.pathname ++ u.withoutEmpty.search ++ u.withoutEmpty.hash = _
  rw [hsearch, hhash]
  rfl

theorem pathname_eq (h : u.path ≠ []) : u.pathname = '/' :: ['/'].intercalate u.path := by
  obtain ⟨path, query, fragment⟩ := u
  show path.flatMap (fun s => '/' :: s) = '/' :: ['/'].intercalate path
  induction path with
  | nil => exact absurd rfl h
  | cons s path ih =>
    cases path <;> simp_all

theorem part_cases (sign : Char) (o : Option Text) :
    part sign o = [] ∨ ∃ t, part sign o = sign :: t := by
  cases o with
  | none => exact .inl rfl
  | some t =>
    cases t with
    | nil => exact .inl rfl
    | cons c t => exact .inr ⟨c :: t, rfl⟩

theorem mem_part {sign : Char} (h : c ∈ part sign o) : c = sign ∨ ∃ t ∈ o, c ∈ t := by
  cases o with
  | none => cases h
  | some t =>
    cases t with
    | nil => cases h
    | cons d t =>
      rcases List.mem_cons.1 h with rfl | h
      · exact .inl rfl
      · exact .inr ⟨d :: t, rfl, h⟩

theorem mem_pathname (h : c ∈ u.pathname) : c = '/' ∨ ∃ s ∈ u.path, c ∈ s := by
  obtain ⟨s, hs, hc⟩ := List.mem_flatMap.1 h
  rcases List.mem_cons.1 hc with rfl | hc
  · exact .inl rfl
  · exact .inr ⟨s, hs, hc⟩

theorem notMem_part {S : EncodeSet} {sign : Char} (h : ∀ t ∈ o, ∀ d ∈ t, S.marked d = false)
    (hsign : c ≠ sign) (hc : S.marked c = true) : c ∉ part sign o := by
  intro hmem
  rcases mem_part hmem with heq | ⟨t, ht, hct⟩
  · exact hsign heq
  · simp [h t ht c hct] at hc

theorem Canonical.notMem_path (h : u.Canonical) (hslash : c ≠ '/') (hc : pathSet.marked c = true) :
    c ∉ u.pathname := by
  intro hmem
  rcases mem_pathname hmem with heq | ⟨s, hs, hcs⟩
  · exact hslash heq
  · simp [(h.path s hs).2.2 c hcs] at hc

end PathUrl

open PathUrl

theorem hexDigit_ne_slash : ∀ n < 16, hexDigit n ≠ '/' := by decide

theorem encode_option {S : EncodeSet} (h : ∀ t ∈ o, ∀ c ∈ t, S.marked c = false) :
    o.map S.encode = o := by
  cases o with
  | none => rfl
  | some t => exact congrArg some (encode_of_unmarked (h t rfl))

theorem parsePath_canonical (rest : Text) : (parsePath rest).Canonical where
  path_ne_nil := by
    apply resolve_ne_nil
    intro hnil
    exact List.splitOn_ne_nil _ _ (List.map_eq_nil_iff.1 hnil)
  path := by
    intro s hs
    rcases mem_resolve hs with hs | rfl | ⟨hs, hplain⟩
    · cases hs
    · exact ⟨plain_nil, List.not_mem_nil, nofun⟩
    · obtain ⟨w, hw, rfl⟩ := List.mem_map.1 hs
      refine ⟨hplain, ?_, fun c hc => (mem_encode hc).2.1⟩
      intro hslash
      obtain ⟨-, -, hwritten | heq | ⟨n, hn, heq⟩⟩ := mem_encode hslash
      · exact (mem_splitOn hw).1 hwritten
      · exact absurd heq (by decide)
      · exact hexDigit_ne_slash n hn heq.symm
  query := by
    intro q hq
    obtain ⟨w, -, rfl⟩ := Option.map_eq_some_iff.1 hq
    exact fun c hc => (mem_encode hc).2.1
  fragment := by
    intro f hf
    obtain ⟨w, -, rfl⟩ := Option.map_eq_some_iff.1 hf
    exact fun c hc => (mem_encode hc).2.1

/-- **What is serialized is parsed as what it was**, but for empty parts. -/
theorem parsePath_href (h : u.Canonical) :
    ∃ rest, u.href = '/' :: rest ∧ parsePath rest = u.withoutEmpty := by
  have hpath := pathname_eq h.path_ne_nil
  have hnotMem : ∀ c, c ≠ '/' → pathSet.marked c = true → c ∉ ['/'].intercalate u.path := by
    intro c hslash hc hmem
    apply h.notMem_path hslash hc
    rw [hpath]
    exact List.mem_cons_of_mem _ hmem
  have hhash : '#' ∉ ['/'].intercalate u.path ++ u.search := by
    intro hmem
    rcases List.mem_append.1 hmem with hmem | hmem
    · exact hnotMem '#' (by decide) (by decide) hmem
    · exact notMem_part h.query (by decide) (by decide) hmem
  have hquery : '?' ∉ ['/'].intercalate u.path := hnotMem '?' (by decide) (by decide)
  have hsplit : splitPath (['/'].intercalate u.path ++ u.search ++ u.hash) = u.withoutEmpty := by
    unfold splitPath
    rw [PathUrl.hash, cut_part hhash, search, cut_part hquery]
    rw [List.splitOn_intercalate '/' (fun s hs => (h.path s hs).2.1) h.path_ne_nil]
    rfl
  have hsegments : u.path.map pathSet.encode = u.path :=
    (List.map_congr_left fun s hs => encode_of_unmarked (h.path s hs).2.2).trans (List.map_id' _)
  refine ⟨['/'].intercalate u.path ++ u.search ++ u.hash, ?_, ?_⟩
  · unfold href
    rw [hpath]
    rfl
  · unfold parsePath
    rw [hsplit]
    have hresolved : resolve [] (u.withoutEmpty.path.map pathSet.encode) = u.path := by
      show resolve [] (u.path.map pathSet.encode) = u.path
      rw [hsegments, resolve_plain fun s hs => (h.path s hs).1, List.nil_append]
    have hquery' : ∀ q ∈ u.withoutEmpty.query, ∀ c ∈ q, querySet.marked c = false :=
      fun q hq => h.query q (Option.filter_eq_some_iff.1 hq).1
    have hfragment' : ∀ f ∈ u.withoutEmpty.fragment, ∀ c ∈ f, fragmentSet.marked c = false :=
      fun f hf => h.fragment f (Option.filter_eq_some_iff.1 hf).1
    rw [hresolved, encode_option hquery', encode_option hfragment']
    rfl

/-! ### What is serialized -/

variable {rest : Text}

theorem mem_parsePath (h : s ∈ (parsePath rest).path) :
    ∃ w, w <:+: rest ∧ s = pathSet.encode w := by
  rcases mem_resolve h with h | rfl | ⟨h, -⟩
  · cases h
  · exact ⟨[], List.nil_infix, rfl⟩
  · obtain ⟨w, hw, rfl⟩ := List.mem_map.1 h
    have hpart := (mem_splitOn hw).2
    exact ⟨w, (hpart.trans (infix_cut_fst '?' _)).trans (infix_cut_fst '#' _), rfl⟩

theorem mem_parsePath_query {q : Text} (h : q ∈ (parsePath rest).query) :
    ∃ w, w <:+: rest ∧ q = querySet.encode w := by
  obtain ⟨w, hw, rfl⟩ := Option.map_eq_some_iff.1 h
  exact ⟨w, (infix_cut_snd hw).trans (infix_cut_fst '#' _), rfl⟩

theorem mem_parsePath_fragment {f : Text} (h : f ∈ (parsePath rest).fragment) :
    ∃ w, w <:+: rest ∧ f = fragmentSet.encode w := by
  obtain ⟨w, hw, rfl⟩ := Option.map_eq_some_iff.1 h
  exact ⟨w, infix_cut_snd hw, rfl⟩

theorem mem_encode_of_part {S : EncodeSet} {w : Text} (hw : w <:+: rest) (h : c ∈ S.encode w) :
    isVisible c = true ∧ (c ∈ rest ∨ c = '%' ∨ ∃ n < 16, c = hexDigit n) := by
  obtain ⟨hvisible, -, hc⟩ := mem_encode h
  exact ⟨hvisible, hc.imp_left fun hc => hw.subset hc⟩

/-- **Serialization is of visible characters**, and no others than the signs, those of escapes and
those that were written. -/
theorem mem_href (h : c ∈ (parsePath rest).href) :
    isVisible c = true ∧
      (c ∈ ['/', '?', '#'] ∨ c ∈ rest ∨ c = '%' ∨ ∃ n < 16, c = hexDigit n) := by
  rcases List.mem_append.1 h with h | h
  · rcases List.mem_append.1 h with h | h
    · rcases mem_pathname h with rfl | ⟨s, hs, hc⟩
      · exact ⟨rfl, .inl (by decide)⟩
      · obtain ⟨w, hw, rfl⟩ := mem_parsePath hs
        exact (mem_encode_of_part hw hc).imp_right .inr
    · rcases mem_part h with rfl | ⟨q, hq, hc⟩
      · exact ⟨rfl, .inl (by decide)⟩
      · obtain ⟨w, hw, rfl⟩ := mem_parsePath_query hq
        exact (mem_encode_of_part hw hc).imp_right .inr
  · rcases mem_part h with rfl | ⟨f, hf, hc⟩
    · exact ⟨rfl, .inl (by decide)⟩
    · obtain ⟨w, hw, rfl⟩ := mem_parsePath_fragment hf
      exact (mem_encode_of_part hw hc).imp_right .inr

theorem lower_append (a b : Text) : lower (a ++ b) = lower a ++ lower b := List.map_append

theorem infix_append_part {sign : Char} (hsign : sign.toLower = sign) (hp : sign ∉ p)
    (hne : p ≠ []) (h : p <:+: lower (a ++ part sign o)) :
    p <:+: lower a ∨ ∃ t ∈ o, p <:+: lower t := by
  rw [lower_append] at h
  cases o with
  | none =>
    rw [show lower (part sign none) = [] from rfl, List.append_nil] at h
    exact .inl h
  | some t =>
    cases t with
    | nil =>
      rw [show lower (part sign (some [])) = [] from rfl, List.append_nil] at h
      exact .inl h
    | cons c t =>
      have hcons : lower (part sign (some (c :: t))) = sign :: lower (c :: t) := by
        show sign.toLower :: lower (c :: t) = _
        rw [hsign]
      rw [hcons] at h
      exact (infix_of_infix_append hp hne h).imp_right fun h => ⟨c :: t, rfl, h⟩

theorem infix_pathname (hp : '/' ∉ p) (hne : p ≠ [])
    (h : p <:+: lower (path.flatMap fun s => '/' :: s)) : ∃ s ∈ path, p <:+: lower s := by
  induction path with
  | nil => exact absurd (List.infix_nil.1 h) hne
  | cons s path ih =>
    have hcons : lower ((s :: path).flatMap fun s => '/' :: s) =
        [] ++ '/' :: (lower s ++ lower (path.flatMap fun s => '/' :: s)) := by
      rw [← lower_append]
      rfl
    rw [hcons] at h
    rcases infix_of_infix_append hp hne h with h | h
    · exact absurd (List.infix_nil.1 h) hne
    · cases path with
      | nil =>
        rw [show lower (([] : List Text).flatMap fun s => '/' :: s) = [] from rfl,
          List.append_nil] at h
        exact ⟨s, List.mem_cons_self, h⟩
      | cons u path =>
        have hnext : lower ((u :: path).flatMap fun s => '/' :: s) =
            '/' :: lower (u ++ path.flatMap fun s => '/' :: s) := rfl
        rcases infix_of_infix_append hp hne h with hs | hrest
        · exact ⟨s, List.mem_cons_self, hs⟩
        · obtain ⟨v, hv, hpart⟩ := ih (List.infix_cons hrest)
          exact ⟨v, List.mem_cons_of_mem _ hv, hpart⟩

/-- **What has no sign is found in the encoding of a part** that was written. -/
theorem infix_href (hslash : '/' ∉ p) (hquery : '?' ∉ p) (hhash : '#' ∉ p) (hne : p ≠ [])
    (h : p <:+: lower (parsePath rest).href) :
    ∃ S ∈ [pathSet, querySet, fragmentSet], ∃ w, w <:+: rest ∧ p <:+: lower (S.encode w) := by
  rcases infix_append_part (by decide) hhash hne h with h | ⟨f, hf, h⟩
  · rcases infix_append_part (by decide) hquery hne h with h | ⟨q, hq, h⟩
    · obtain ⟨s, hs, h⟩ := infix_pathname hslash hne h
      obtain ⟨w, hw, rfl⟩ := mem_parsePath hs
      exact ⟨pathSet, List.mem_cons_self, w, hw, h⟩
    · obtain ⟨w, hw, rfl⟩ := mem_parsePath_query hq
      exact ⟨querySet, List.mem_cons_of_mem _ List.mem_cons_self, w, hw, h⟩
  · obtain ⟨w, hw, rfl⟩ := mem_parsePath_fragment hf
    exact ⟨fragmentSet, by simp, w, hw, h⟩

/-! ### The size of what is serialized -/

def partSize (S : EncodeSet) : Option Text → ℕ
  | none | some [] => 0
  | some (c :: t) => 1 + S.size (c :: t)

/-- The bytes that a path, a query and a fragment take, once the dot segments are gone and the rest is
encoded. -/
def PathUrl.encodedSize (u : PathUrl) : ℕ :=
  ((resolve [] u.path).map fun s => 1 + pathSet.size s).sum + partSize querySet u.query +
    partSize fragmentSet u.fragment

theorem part_length (sign : Char) (S : EncodeSet) (o : Option Text) :
    (part sign (o.map S.encode)).length = partSize S o := by
  cases o with
  | none => rfl
  | some t =>
    cases t with
    | nil => rfl
    | cons c t =>
      have hlength := encode_length (S := S) (c :: t)
      cases hencoded : S.encode (c :: t) with
      | nil => exact absurd (encode_eq_nil.1 hencoded) (List.cons_ne_nil c t)
      | cons d u =>
        show (part sign (some (S.encode (c :: t)))).length = 1 + S.size (c :: t)
        rw [hencoded] at hlength ⊢
        show (d :: u).length + 1 = _
        omega

theorem pathname_length (path : List Text) :
    ((path.map pathSet.encode).flatMap fun s => '/' :: s).length =
      (path.map fun s => 1 + pathSet.size s).sum := by
  induction path with
  | nil => rfl
  | cons s path ih =>
    rw [List.map_cons, List.flatMap_cons, List.length_append, ih, List.length_cons, encode_length,
      List.map_cons, List.sum_cons]
    omega

theorem href_length (rest : Text) :
    (parsePath rest).href.length = (splitPath rest).encodedSize := by
  show ((parsePath rest).pathname ++ (parsePath rest).search ++ (parsePath rest).hash).length = _
  have hpath : (parsePath rest).pathname.length =
      ((resolve [] (splitPath rest).path).map fun s => 1 + pathSet.size s).sum := by
    show ((resolve [] ((splitPath rest).path.map pathSet.encode)).flatMap fun s => '/' :: s).length = _
    rw [resolve_encode, pathname_length]
  rw [List.length_append, List.length_append, hpath]
  have hsearch : (parsePath rest).search.length = _ := part_length '?' querySet _
  have hhash : (parsePath rest).hash.length = _ := part_length '#' fragmentSet _
  rw [hsearch, hhash]
  rfl

theorem doubleSlash_flatMap (h : ∀ s ∈ path, '/' ∉ s) :
    ['/', '/'] <+: path.flatMap (fun s => '/' :: s) ↔ ∃ s segs, path = [] :: s :: segs := by
  constructor
  · intro hstart
    cases path with
    | nil => exact absurd (List.prefix_nil.1 hstart) (List.cons_ne_nil _ _)
    | cons w path =>
      obtain ⟨-, hstart⟩ := List.cons_prefix_cons.1 hstart
      cases w with
      | cons c w =>
        obtain ⟨heq, -⟩ := List.cons_prefix_cons.1 hstart
        exact absurd (heq ▸ List.mem_cons_self) (h (c :: w) List.mem_cons_self)
      | nil =>
        cases path <;> simp_all
  · rintro ⟨s, segs, rfl⟩
    exact ⟨s ++ segs.flatMap fun s => '/' :: s, rfl⟩

theorem pathname_doubleSlash (rest : Text) :
    ['/', '/'] <+: (parsePath rest).pathname ↔
      ∃ s segs, resolve [] (splitPath rest).path = [] :: s :: segs := by
  have hpath : (parsePath rest).path = (resolve [] (splitPath rest).path).map pathSet.encode :=
    resolve_encode _
  unfold pathname
  rw [doubleSlash_flatMap fun s hs => ((parsePath_canonical rest).path s hs).2.1, hpath]
  constructor
  · rintro ⟨s, segs, h⟩
    obtain ⟨w, path, hresolved, hw, hrest⟩ := List.map_eq_cons_iff.1 h
    obtain ⟨v, path', rfl, -, -⟩ := List.map_eq_cons_iff.1 hrest
    obtain rfl := encode_eq_nil.1 hw
    exact ⟨v, path', hresolved⟩
  · rintro ⟨s, segs, h⟩
    simp [h]

/-! ### Texts that are stripped -/

theorem stripped_slash (h : ∀ c ∈ t, 0x20 ≤ c.toNat) :
    ∃ rest, stripped ('/' :: t) = '/' :: rest ∧ rest <+: t := by
  have hdrop : ('/' :: t).dropWhile (fun c => decide (c.toNat ≤ 0x20)) = '/' :: t := rfl
  have hstart := List.rdropWhile_prefix (fun c : Char => decide (c.toNat ≤ 0x20)) ('/' :: t)
  unfold stripped
  rw [hdrop]
  generalize hkept : ('/' :: t).rdropWhile (fun c => decide (c.toNat ≤ 0x20)) = kept at hstart
  have hfilter : kept.filter (fun c => decide (c ≠ '\t' ∧ c ≠ '\n' ∧ c ≠ '\r')) = kept := by
    apply List.filter_eq_self.2
    intro c hc
    rw [decide_eq_true_eq]
    rcases List.mem_cons.1 (hstart.subset hc) with rfl | hc
    · decide
    · have hlow := h c hc
      refine ⟨?_, ?_, ?_⟩ <;> rintro rfl <;> exact absurd hlow (by decide)
  rw [hfilter]
  cases kept with
  | nil =>
    have hall := List.rdropWhile_eq_nil_iff.1 hkept '/' List.mem_cons_self
    exact absurd hall (by decide)
  | cons c rest =>
    obtain ⟨rfl, hrest⟩ := List.cons_prefix_cons.1 hstart
    exact ⟨rest, rfl, hrest⟩

theorem stripped_of_visible (h : ∀ c ∈ t, isVisible c = true) : stripped t = t := by
  have hlarge : ∀ c ∈ t, 0x20 < c.toNat := fun c hc =>
    of_decide_eq_true (Bool.and_eq_true_iff.1 (h c hc)).1
  have hdrop : t.dropWhile (fun c => decide (c.toNat ≤ 0x20)) = t := by
    cases t with
    | nil => rfl
    | cons c t =>
      have hc := hlarge c List.mem_cons_self
      rw [List.dropWhile_cons_of_neg]
      rw [decide_eq_true_eq]
      omega
  have hrdrop : t.rdropWhile (fun c => decide (c.toNat ≤ 0x20)) = t := by
    rw [List.rdropWhile_eq_self_iff]
    intro hne hlast
    have hc := hlarge _ (List.getLast_mem hne)
    rw [decide_eq_true_eq] at hlast
    omega
  unfold stripped
  rw [hdrop, hrdrop]
  apply List.filter_eq_self.2
  intro c hc
  have hlow := hlarge c hc
  rw [decide_eq_true_eq]
  refine ⟨?_, ?_, ?_⟩ <;> rintro rfl <;> exact absurd hlow (by decide)

end VibemeetBackend.Encoding
