import VibemeetBackend.Payment.ReturnTo

/-!
# Return paths stay on the site

A value that is accepted gives a path that stays on the site and is accepted again exactly when the dot
segments of the value do not leave an empty segment in front of another one, and what they leave fits in
the limit once it is encoded.
-/

namespace VibemeetBackend.Payment

open Encoding

variable {other : Text → Text → Option ParsedUrl} {value result rest : Text}

/-! ### What is accepted -/

structure ReturnPath (value : Text) : Prop where
  size : byteLength value ≤ maxReturnToBytes
  slash : ['/'] <+: value
  oneSlash : ¬ ['/', '/'] <+: value
  backslash : '\\' ∉ value
  controls : hasControlCharacters value = false
  separator : hasEncodedSeparator value = false

theorem isReturnPath_iff : isReturnPath value = true ↔ ReturnPath value := by
  unfold isReturnPath
  rw [decide_eq_true_eq]
  constructor
  · rintro ⟨hsize, hslash, hone, hback, hcontrols, hseparator⟩
    exact ⟨not_lt.1 hsize, hslash, hone, hback, hcontrols, hseparator⟩
  · rintro ⟨hsize, hslash, hone, hback, hcontrols, hseparator⟩
    exact ⟨not_lt.2 hsize, hslash, hone, hback, hcontrols, hseparator⟩

def written (value : Text) : Text := (stripped value).tail

theorem ReturnPath.stripped (h : ReturnPath value) :
    stripped value = '/' :: written value ∧ ∃ t, value = '/' :: t ∧ written value <+: t := by
  obtain ⟨t, rfl⟩ := h.slash
  have hcontrols : ∀ c ∈ t, 0x20 ≤ c.toNat := by
    intro c hc
    have hall := List.any_eq_false.1 h.controls c (List.mem_cons_of_mem _ hc)
    rw [Bool.or_eq_true, decide_eq_true_eq, decide_eq_true_eq, not_or] at hall
    omega
  obtain ⟨rest, hstripped, hstart⟩ := stripped_slash hcontrols
  have hwritten : written (['/'] ++ t) = rest := congrArg List.tail hstripped
  refine ⟨?_, t, rfl, ?_⟩
  · rw [hwritten]
    exact hstripped
  · rw [hwritten]
    exact hstart

theorem ReturnPath.newUrl (h : ReturnPath value) (base : Text) :
    Payment.newUrl other value base = some ⟨base, parsePath (written value)⟩ := by
  obtain ⟨hstripped, t, rfl, hstart⟩ := h.stripped
  unfold Payment.newUrl
  rw [hstripped]
  apply if_neg
  rintro (hhead | hback)
  · apply h.oneSlash
    generalize written ('/' :: t) = w at hhead hstart
    obtain ⟨u, rfl⟩ := hstart
    cases w with
    | nil => cases hhead
    | cons c w =>
      cases hhead
      exact ⟨w ++ u, rfl⟩
  · exact h.backslash (List.mem_cons_of_mem _ (hstart.subset hback))

theorem ReturnPath.validate (h : ReturnPath value) :
    validateReturnTo other (.string value) =
      if isPaymentPage (parsePath (written value)).pathname = true then .error invalidReturnTo
      else .ok (some (parsePath (written value)).href) := by
  have hparsed : Payment.newUrl other value returnBase = _ := h.newUrl returnBase
  have hchecks := isReturnPath_iff.2 h
  obtain ⟨c, t, rfl⟩ : ∃ c t, value = c :: t := ⟨'/', h.slash.choose, h.slash.choose_spec.symm⟩
  unfold validateReturnTo
  dsimp only
  rw [hchecks, hparsed, if_neg Bool.false_ne_true.symm]
  exact if_neg (not_not.2 rfl)

/-- **An accepted value** passes the checks, and its result is its serialization. -/
theorem validate_cases (h : validateReturnTo other (.string value) = .ok (some result)) :
    ReturnPath value ∧ isPaymentPage (parsePath (written value)).pathname = false ∧
      result = (parsePath (written value)).href := by
  have hpath : ReturnPath value := by
    rw [← isReturnPath_iff]
    by_contra hchecks
    cases value with
    | nil => cases h
    | cons c t =>
      have herror : validateReturnTo other (.string (c :: t)) = .error invalidReturnTo :=
        if_pos (Bool.eq_false_iff.2 hchecks)
      simp [herror] at h
  rw [hpath.validate] at h
  grind

/-! ### The second validation -/

/-- The dot segments leave an empty segment in front of another one. -/
def LeavesDoubleSlash (value : Text) : Prop :=
  ∃ s segs, resolve [] (splitPath (written value)).path = [] :: s :: segs

/-- The bytes that the value takes once its dot segments are gone and the rest is encoded. -/
def encodedSize (value : Text) : ℕ := (splitPath (written value)).encodedSize

theorem doubleSlash_href (rest : Text) :
    ['/', '/'] <+: (parsePath rest).href ↔ ['/', '/'] <+: (parsePath rest).pathname := by
  have hpath := PathUrl.pathname_eq (parsePath_canonical rest).path_ne_nil
  constructor
  · intro h
    unfold PathUrl.href at h
    generalize (parsePath rest).pathname = p at h hpath
    subst hpath
    obtain ⟨-, h⟩ := List.cons_prefix_cons.1 h
    cases hp : ['/'].intercalate (parsePath rest).path with
    | nil =>
      -- a path of one slash is followed by a sign, if at all
      rw [hp] at h
      rcases PathUrl.part_cases '?' (parsePath rest).query with hsearch | ⟨q, hsearch⟩
      · rcases PathUrl.part_cases '#' (parsePath rest).fragment with hhash | ⟨f, hhash⟩
        · simp_all [PathUrl.search, PathUrl.hash]
        simp_all [PathUrl.search, PathUrl.hash]
      · rw [PathUrl.search, hsearch] at h
        exact absurd (List.cons_prefix_cons.1 h).1 (by decide)
    | cons d p =>
      rw [hp] at h
      obtain ⟨heq, -⟩ := List.cons_prefix_cons.1 h
      rw [← heq]
      exact ⟨p, rfl⟩
  · intro h
    have hstart : (parsePath rest).pathname <+: (parsePath rest).href :=
      ⟨(parsePath rest).search ++ (parsePath rest).hash, (List.append_assoc _ _ _).symm⟩
    exact h.trans hstart

theorem encodedSeparators_eq : ∀ p ∈ encodedSeparators, ∃ n r, p = lower (escape n) ++ r ∧
    n < 128 ∧ '%' ∉ r ∧ '/' ∉ p ∧ '?' ∉ p ∧ '#' ∉ p ∧
      ∀ S ∈ [pathSet, querySet, fragmentSet], S.marked (Char.ofNat n) = false := by
  intro p hp
  simp only [encodedSeparators, List.mem_cons, List.not_mem_nil, or_false] at hp
  rcases hp with rfl | rfl | rfl | rfl
  · exact ⟨0x2F, [], by decide⟩
  · exact ⟨0x5C, [], by decide⟩
  · exact ⟨0x25, ['2', 'f'], by decide⟩
  · exact ⟨0x25, ['5', 'c'], by decide⟩

/-- **Encoding makes no encoded separator.** -/
theorem href_separator (h : hasEncodedSeparator value = false) (hrest : rest <:+: value) :
    hasEncodedSeparator (parsePath rest).href = false := by
  apply List.any_eq_false.2
  intro p hp hfound
  rw [decide_eq_true_eq] at hfound
  obtain ⟨n, r, rfl, hn, hr, hslash, hquery, hhash, hfree⟩ := encodedSeparators_eq p hp
  obtain ⟨S, hS, w, hw, hpart⟩ := infix_href hslash hquery hhash (List.cons_ne_nil _ _) hfound
  have hwritten := infix_encode hn (hfree S hS) hr hpart
  apply List.any_eq_false.1 h _ hp
  rw [decide_eq_true_eq]
  exact hwritten.trans ((hw.trans hrest).map _)

theorem href_visible (rest : Text) : ∀ c ∈ (parsePath rest).href, isVisible c = true :=
  fun _ h => (mem_href h).1

theorem parsePath_written (rest : Text) :
    parsePath (written (parsePath rest).href) = (parsePath rest).withoutEmpty := by
  obtain ⟨w, hhref, hparse⟩ := parsePath_href (parsePath_canonical rest)
  have hwritten : written (parsePath rest).href = w := by
    unfold written
    rw [stripped_of_visible (href_visible rest), hhref]
    rfl
  rw [hwritten]
  exact hparse

/-- **The serialization passes the checks** when it is small enough and does not begin with two
slashes. -/
theorem ReturnPath.href (h : ReturnPath value) (hslashes : ¬ LeavesDoubleSlash value)
    (hsize : encodedSize value ≤ maxReturnToBytes) :
    ReturnPath (parsePath (written value)).href where
  size := by
    rw [byteLength_of_visible (href_visible _), href_length]
    exact hsize
  slash := by
    obtain ⟨w, hhref, -⟩ := parsePath_href (parsePath_canonical (written value))
    rw [hhref]
    exact ⟨w, rfl⟩
  oneSlash := by
    rw [doubleSlash_href, pathname_doubleSlash]
    exact hslashes
  backslash := by
    intro hmem
    obtain ⟨-, t, rfl, hstart⟩ := h.stripped
    rcases (mem_href hmem).2 with hsign | hrest | hpercent | ⟨n, hn, hdigit⟩
    · exact absurd hsign (by decide)
    · exact h.backslash (List.mem_cons_of_mem _ (hstart.subset hrest))
    · exact absurd hpercent (by decide)
    · have hdigits : ∀ n < 16, hexDigit n ≠ '\\' := by decide
      exact hdigits n hn hdigit.symm
  controls := by
    apply List.any_eq_false.2
    intro c hc
    have hvisible := href_visible _ c hc
    unfold isVisible at hvisible
    rw [Bool.and_eq_true, decide_eq_true_eq, decide_eq_true_eq] at hvisible
    rw [Bool.or_eq_true, decide_eq_true_eq, decide_eq_true_eq, not_or]
    omega
  separator := by
    obtain ⟨-, t, rfl, hstart⟩ := h.stripped
    exact href_separator h.separator (hstart.isInfix.trans (List.suffix_cons '/' t).isInfix)

/-- **A serialization that passes the checks is accepted** as it is. -/
theorem validate_href (h : ReturnPath (parsePath rest).href)
    (hpage : isPaymentPage (parsePath rest).pathname = false) :
    validateReturnTo other (.string (parsePath rest).href) = .ok (some (parsePath rest).href) := by
  rw [h.validate, parsePath_written, if_neg]
  · rw [PathUrl.href_withoutEmpty]
  · exact Bool.eq_false_iff.1 hpage

/-! ### Contexts -/

variable {claims : CheckoutNavigationClaims} {checkoutId : String}

theorem create_returnTo {origin : JsValue}
    (hvalidate : validateReturnTo other (.string value) = .ok (some result))
    (h : createCheckoutContext other checkoutId origin (.string value) = .ok claims) :
    claims.checkoutId = some checkoutId ∧ claims.returnTo = some result := by
  unfold createCheckoutContext at h
  rw [hvalidate] at h
  cases horigin : resolveCheckoutOrigin origin with
  | error e =>
    rw [horigin] at h
    cases h
  | ok checkoutOrigin =>
    rw [horigin] at h
    have hclaims : (if checkoutOrigin = .web ∧ some result = none then
        (throw invalidReturnTo : Except String CheckoutNavigationClaims)
      else return ⟨some checkoutId, checkoutOrigin, some result⟩) = .ok claims := h
    rw [if_neg fun hnone => Option.some_ne_none _ hnone.2] at hclaims
    cases hclaims
    exact ⟨rfl, rfl⟩

theorem resolve_word (origin : CheckoutOrigin) :
    resolveCheckoutOrigin (.string origin.word) = .ok origin := by
  cases origin <;> rfl

/-- **The claims of a token are recovered** when its path is accepted as it is. -/
theorem recover_token (hid : claims.checkoutId = some checkoutId)
    (hreturn : claims.returnTo = some result) (hformat : isCheckoutId checkoutId = true)
    (hagain : validateReturnTo other (.string result) = .ok (some result)) :
    recoverSignedNavigationClaims other (some claims.token) = some claims := by
  obtain ⟨id, origin, returnTo⟩ := claims
  obtain rfl : id = some checkoutId := hid
  obtain rfl : returnTo = some result := hreturn
  have hread : readCheckoutId (.string checkoutId.toList) = some checkoutId := by
    simp [readCheckoutId, hformat]
  unfold recoverSignedNavigationClaims CheckoutNavigationClaims.token
  dsimp only [Option.elim_some]
  rw [resolve_word, hagain]
  show (if origin = .web ∧ (some result = none ∨ readCheckoutId (.string checkoutId.toList) = none)
    then none else some _) = _
  have hboth : ¬ (origin = .web ∧ (some result = none ∨ some checkoutId = none)) := by
    rintro ⟨-, hnone | hnone⟩ <;> cases hnone
  rw [hread, if_neg hboth]

/-- **The return target is the page of the site** for a path that is accepted as it is. -/
theorem target_web {base : Text} {buildLegacyAppUrl : Bool → Option Text → Text}
    (status : CheckoutStatus) (reason : Option Text) (hid : claims.checkoutId = some checkoutId)
    (hreturn : claims.returnTo = some result) (hformat : isCheckoutId checkoutId = true)
    (hweb : claims.checkoutOrigin = .web)
    (hagain : validateReturnTo other (.string result) = .ok (some result)) :
    buildReturnTarget other (.ok base) buildLegacyAppUrl claims status reason =
      .ok ⟨.web, returnUrl base checkoutId status reason⟩ := by
  have hne : checkoutId ≠ "" := by
    rintro rfl
    exact absurd hformat (by decide)
  unfold buildReturnTarget
  rw [hweb, hid, hreturn]
  have hfilter : (some checkoutId).filter (fun id => decide (id ≠ "")) = some checkoutId :=
    Option.filter_some_pos (decide_eq_true hne)
  rw [hfilter]
  dsimp only [Option.elim_some]
  rw [hagain]
  rfl

/-! ### The site -/

/-- The return page of a payment and what is below it, and the checkout pages: in any case, and with
empty segments anywhere.  A percent-encoded letter is not decoded. -/
def NamesPaymentPage (path : List Text) : Prop :=
  let names := (path.filter fun s => !s.isEmpty).map lower
  ["payment".toList, "return".toList] <+: names ∨ ∃ s ∈ names, "checkout".toList <:+: s

theorem collapseSlashes_append {s : Text} (h : '/' ∉ s) (t : Text) :
    collapseSlashes (s ++ t) = s ++ collapseSlashes t := by
  induction s with
  | nil => rfl
  | cons c s ih =>
    obtain ⟨hc, hs⟩ := List.ne_and_not_mem_of_not_mem_cons h
    rw [List.cons_append, collapseSlashes, if_neg fun hslash => hc hslash.1.symm, ih hs]
    rfl

theorem collapseSlashes_pathname {path : List Text} (h : ∀ s ∈ path, '/' ∉ s) :
    ∃ slash, (slash = [] ∨ slash = ['/']) ∧
      collapseSlashes (path.flatMap fun s => '/' :: s) =
        ((path.filter fun s => !s.isEmpty).flatMap fun s => '/' :: s) ++ slash := by
  induction path with
  | nil => exact ⟨[], .inl rfl, rfl⟩
  | cons s path ih =>
    obtain ⟨hs, hpath⟩ := List.forall_mem_cons.1 h
    obtain ⟨slash, hslash, heq⟩ := ih hpath
    cases s with
    | nil =>
      cases path with
      | nil => exact ⟨['/'], .inr rfl, rfl⟩
      | cons u path => exact ⟨slash, hslash, heq⟩
    | cons c s =>
      obtain ⟨hc, -⟩ := List.ne_and_not_mem_of_not_mem_cons hs
      refine ⟨slash, hslash, ?_⟩
      show collapseSlashes ('/' :: (c :: s ++ path.flatMap fun s => '/' :: s)) =
        '/' :: (c :: s ++ (path.filter fun s => !s.isEmpty).flatMap fun s => '/' :: s) ++ slash
      rw [collapseSlashes, if_neg fun hslash => hc (Option.some.inj hslash.2).symm,
        collapseSlashes_append hs, heq]
      simp

theorem lower_flatMap (path : List Text) :
    lower (path.flatMap fun s => '/' :: s) = (path.map lower).flatMap fun s => '/' :: s := by
  rw [lower, List.map_flatMap, List.flatMap_map]
  rfl

theorem isPaymentPage_of_names {path : List Text} (hpath : ∀ s ∈ path, '/' ∉ s)
    (h : NamesPaymentPage path) : isPaymentPage (path.flatMap fun s => '/' :: s) = true := by
  obtain ⟨slash, hslash, heq⟩ := collapseSlashes_pathname hpath
  apply decide_eq_true
  rw [heq, lower_append, lower_flatMap]
  rcases h with ⟨more, hmore⟩ | ⟨s, hs, hcheckout⟩
  · rw [← hmore]
    cases more with
    | nil =>
      rcases hslash with rfl | rfl
      · exact .inl rfl
      · exact .inr (.inl ⟨[], rfl⟩)
    | cons u more => exact .inr (.inl ⟨u ++ more.flatMap (fun s => '/' :: s) ++ lower slash, rfl⟩)
  · refine .inr (.inr (hcheckout.trans (List.IsInfix.trans ?_ (List.prefix_append _ _).isInfix)))
    obtain ⟨as, bs, hsplit⟩ := List.append_of_mem hs
    rw [hsplit, List.flatMap_append, List.flatMap_cons]
    exact ⟨as.flatMap (fun s => '/' :: s) ++ ['/'], bs.flatMap fun s => '/' :: s, by simp⟩

structure StaysOnSite (other : Text → Text → Option ParsedUrl) (value result : Text) : Prop where
  oneSlash : ['/'] <+: result ∧ ¬ ['/', '/'] <+: result
  origin : ∀ base, (newUrl other result base).map ParsedUrl.origin = some base
  page : ∀ base parsed, newUrl other result base = some parsed →
    ¬ NamesPaymentPage parsed.url.path
  again : validateReturnTo other (.string result) = .ok (some result)
  recovered : ∀ checkoutId origin claims, isCheckoutId checkoutId = true →
    createCheckoutContext other checkoutId origin (.string value) = .ok claims →
      recoverSignedNavigationClaims other (some claims.token) = some claims
  target : ∀ checkoutId origin claims base buildLegacyAppUrl status reason,
    isCheckoutId checkoutId = true →
      createCheckoutContext other checkoutId origin (.string value) = .ok claims →
        claims.checkoutOrigin = .web →
          buildReturnTarget other (.ok base) buildLegacyAppUrl claims status reason =
            .ok ⟨.web, returnUrl base checkoutId status reason⟩

/-- **An accepted return path stays on the site** exactly when its dot segments do not leave an empty
segment in front of another one, and what they leave is small enough. -/
theorem returnTo_stays_iff (other : Text → Text → Option ParsedUrl) (value result : Text)
    (h : validateReturnTo other (.string value) = .ok (some result)) :
    StaysOnSite other value result ↔
      ¬ LeavesDoubleSlash value ∧ encodedSize value ≤ maxReturnToBytes := by
  obtain ⟨hpath, hpage, hresult⟩ := validate_cases h
  constructor
  · intro hstays
    obtain ⟨hagain, -, -⟩ := validate_cases hstays.again
    rw [hresult] at hagain
    constructor
    · intro hslashes
      apply hagain.oneSlash
      rw [doubleSlash_href, pathname_doubleSlash]
      exact hslashes
    · have hsize := hagain.size
      rw [byteLength_of_visible (href_visible _), href_length] at hsize
      exact hsize
  · rintro ⟨hslashes, hsize⟩
    have hhref := hpath.href hslashes hsize
    have hagain : validateReturnTo other (.string result) = .ok (some result) := by
      rw [hresult]
      exact validate_href hhref hpage
    have hparsed : ∀ base, newUrl other result base =
        some ⟨base, (parsePath (written value)).withoutEmpty⟩ := by
      intro base
      rw [hresult, hhref.newUrl, parsePath_written]
    constructor
    · rw [hresult]
      exact ⟨hhref.slash, hhref.oneSlash⟩
    · intro base
      rw [hparsed]
      rfl
    · intro base parsed hparse
      obtain rfl := Option.some.inj ((hparsed base).symm.trans hparse)
      intro hnames
      have hslash : ∀ s ∈ (parsePath (written value)).path, '/' ∉ s := fun s hs =>
        ((parsePath_canonical _).path s hs).2.1
      exact Bool.eq_false_iff.1 hpage (isPaymentPage_of_names hslash hnames)
    · exact hagain
    · intro checkoutId origin claims hformat hcreate
      obtain ⟨hid, hreturn⟩ := create_returnTo h hcreate
      exact recover_token hid hreturn hformat hagain
    · intro checkoutId origin claims base buildLegacyAppUrl status reason hformat hcreate hweb
      obtain ⟨hid, hreturn⟩ := create_returnTo h hcreate
      exact target_web status reason hid hreturn hformat hweb hagain

theorem plainPath_stays :
    StaysOnSite (fun _ _ => none) "/a/../moments//x y?tab=1#top".toList
      "/moments//x%20y?tab=1#top".toList := by
  have hfirst : (resolve [] (splitPath (written
      "/a/../moments//x y?tab=1#top".toList)).path).head? ≠ some [] := by decide +kernel
  have hslashes : ¬ LeavesDoubleSlash "/a/../moments//x y?tab=1#top".toList := by
    rintro ⟨s, segs, hsegments⟩
    rw [hsegments] at hfirst
    exact hfirst rfl
  exact (returnTo_stays_iff (fun _ _ => none) "/a/../moments//x y?tab=1#top".toList
    "/moments//x%20y?tab=1#top".toList (by decide +kernel)).2 ⟨hslashes, by decide +kernel⟩

theorem dotPath_leaves : ¬ ∀ (other : Text → Text → Option ParsedUrl) (value result : Text),
    validateReturnTo other (.string value) = .ok (some result) → StaysOnSite other value result := by
  intro h
  have hstays := h (fun _ _ => none) "/.//evil.example".toList "//evil.example".toList
    (by decide +kernel)
  exact hstays.oneSlash.2 (by decide +kernel)

end VibemeetBackend.Payment
