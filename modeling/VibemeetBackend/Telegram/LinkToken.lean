import VibemeetBackend.Encoding.Base64
import VibemeetBackend.Telegram.Reward

/-!
# Telegram link payloads

`createTelegramLinkPayload` of `telegram-link-token.ts`, against `verifyTelegramLinkPayload` with the
base64 decoder of the runtime.  The HMAC is any function of a body and a secret to 32 bytes.
-/

namespace VibemeetBackend.Telegram

open Billing (isTrimmed trim)
open CreatorReferral (ObjectId)

abbrev Hmac : Type := List UInt8 → String → {digest : List UInt8 // digest.length = 32}

def nodeCrypto (hmac : Hmac) : Crypto where
  decode text := Encoding.decode text.toList
  hmac body secret := (hmac body secret).val

/-! ### Encoding -/

/-- The replacements of `base64UrlEncode`. -/
def urlChar (c : Char) : Char := if c = '+' then '-' else if c = '/' then '_' else c

def base64UrlEncode (input : List UInt8) : String :=
  String.ofList
    (((Encoding.encode input).map urlChar).reverse.dropWhile (· = '=')).reverse

def hexValue (c : Char) : Option ℕ :=
  if '0' ≤ c ∧ c ≤ '9' then some (c.toNat - 48)
  else if 'a' ≤ c ∧ c ≤ 'f' then some (c.toNat - 87)
  else if 'A' ≤ c ∧ c ≤ 'F' then some (c.toNat - 55)
  else none

/-- `Buffer.from(text, 'hex')`: it stops at the first pair that is not hexadecimal. -/
def hexBytes : List Char → List UInt8
  | a :: b :: rest =>
    match hexValue a, hexValue b with
    | some x, some y => UInt8.ofNat (16 * x + y) :: hexBytes rest
    | _, _ => []
  | _ => []

/-- `/^[a-f0-9]{24}$/i`. -/
def isHexObjectId (userId : String) : Bool :=
  userId.toList.length == 24 && userId.toList.all fun c => (hexValue c).isSome

theorem isHexObjectId_iff {userId : String} : isHexObjectId userId = true ↔
    userId.toList.length = 24 ∧ ∀ c ∈ userId.toList, (hexValue c).isSome = true := by
  rw [isHexObjectId, Bool.and_eq_true, beq_iff_eq, List.all_eq_true]

def writeUInt32BE (value : ℕ) : List UInt8 :=
  [UInt8.ofNat (value / 16777216), UInt8.ofNat (value / 65536), UInt8.ofNat (value / 256),
    UInt8.ofNat value]

def telegramLinkTokenTtlMs : ℤ := 30 * 60 * 1000

def expSec (now : ℤ) : ℤ := (now + telegramLinkTokenTtlMs) / 1000

def hmacBody (crypto : Crypto) (body : List UInt8) (secret : String) : List UInt8 :=
  (crypto.hmac body secret).take sigBytes

def linkBody (userId : String) (now : ℤ) : List UInt8 :=
  hexBytes userId.toLower.toList ++ writeUInt32BE (expSec now % 4294967296).toNat

def createTelegramLinkPayload (crypto : Crypto) (secret userId : String) (now : ℤ) :
    Except String String :=
  if secret = "" then
    .error "TELEGRAM_LINK_TOKEN_SECRET (or JWT_SECRET) is not configured"
  else if ¬isHexObjectId userId then .error "userId must be a 24-char hex ObjectId"
  else
    let body := linkBody userId now
    let payload := base64UrlEncode (body ++ hmacBody crypto body secret)
    if 64 < payload.length then
      .error ("Telegram start payload too long (" ++ toString payload.length ++ ")")
    else .ok payload

def isUrlSafe (c : Char) : Bool := c.isAlphanum ∨ c = '-' ∨ c = '_'

/-! ### The codec -/

/-- What `base64UrlDecode` puts back. -/
def plainChar (c : Char) : Char := if c = '-' then '+' else if c = '_' then '/' else c

theorem urlChar_spec : ∀ n < 64,
    Encoding.charSextet (plainChar (urlChar (Encoding.sextetChar n))) = some n ∧
    isUrlSafe (urlChar (Encoding.sextetChar n)) = true ∧
    isTrimmed (urlChar (Encoding.sextetChar n)) = false ∧
    urlChar (Encoding.sextetChar n) ≠ '=' := by
  decide +kernel

def urlChars (bs : List UInt8) : List Char :=
  (Encoding.sextets bs).map fun n => urlChar (Encoding.sextetChar n)

theorem forall_urlChars {P : Char → Prop} (bs : List UInt8)
    (h : ∀ n < 64, P (urlChar (Encoding.sextetChar n))) : ∀ c ∈ urlChars bs, P c := by
  intro c hc
  obtain ⟨n, hn, rfl⟩ := List.mem_map.1 hc
  exact h n (Encoding.sextets_lt bs n hn)

theorem dropWhile_replicate_append {p : Char → Bool} {c : Char} (hc : p c = true) (k : ℕ)
    {cs : List Char} (hcs : ∀ c ∈ cs, p c = false) :
    (List.replicate k c ++ cs).dropWhile p = cs := by
  induction k with
  | zero =>
    cases cs <;> simp_all
  | succ k ih =>
    rw [List.replicate_succ, List.cons_append, List.dropWhile_cons_of_pos hc]
    exact ih

theorem base64UrlEncode_eq (bs : List UInt8) :
    base64UrlEncode bs = String.ofList (urlChars bs) := by
  have hchars : (Encoding.encode bs).map urlChar =
      urlChars bs ++ List.replicate (Encoding.padding bs.length) '=' := by
    rw [Encoding.encode, List.map_append, List.map_map, List.map_replicate]
    rfl
  rw [base64UrlEncode, hchars, List.reverse_append, List.reverse_replicate,
    dropWhile_replicate_append (by simp), List.reverse_reverse]
  intro c hc
  have hne := forall_urlChars (P := (· ≠ '=')) bs (fun n hn => (urlChar_spec n hn).2.2.2) c
    (List.mem_reverse.1 hc)
  simpa using hne

theorem trim_ofList {cs : List Char} (h : ∀ c ∈ cs, isTrimmed c = false) :
    trim (String.ofList cs) = String.ofList cs := by
  have hdrop : ∀ ds : List Char, (∀ c ∈ ds, isTrimmed c = false) → ds.dropWhile isTrimmed = ds := by
    intro ds hds
    exact dropWhile_replicate_append (c := ' ') rfl 0 hds
  rw [trim, String.toList_ofList, hdrop cs h, hdrop, List.reverse_reverse]
  exact fun c hc => h c (List.mem_reverse.1 hc)

theorem toList_pushn (text : String) (c : Char) (n : ℕ) :
    (text.pushn c n).toList = text.toList ++ List.replicate n c := by
  rw [String.pushn_eq_repeat_push]
  induction n with
  | zero => simp [Nat.repeat]
  | succ n ih =>
    show (String.push (Nat.repeat (fun s => s.push c) n text) c).toList = _
    rw [String.toList_push, ih, List.append_assoc, List.replicate_succ']

/-- **The codec round-trips.** -/
theorem base64Url_roundTrip (hmac : Hmac) (bs : List UInt8) :
    base64UrlDecode (nodeCrypto hmac) (trim (base64UrlEncode bs)) = bs := by
  rw [base64UrlEncode_eq,
    trim_ofList (forall_urlChars bs fun n hn => (urlChar_spec n hn).2.2.1)]
  show Encoding.decode (String.pushn ((String.ofList (urlChars bs)).map plainChar) '=' _).toList =
    bs
  rw [toList_pushn, String.toList_map, String.toList_ofList, urlChars, List.map_map]
  exact Encoding.decode_chars (fun n hn => (urlChar_spec n hn).1) bs _

/-! ### The layout -/

theorem hexValue_spec : ∀ n < 128, ∀ x < 16, hexValue (Char.ofNat n) = some x →
    hexValue (Char.ofNat n).toLower = some x ∧ hexDigit x = (Char.ofNat n).toLower := by
  decide +kernel

theorem hexValue_lt {c : Char} {x : ℕ} (h : hexValue c = some x) : c.toNat < 128 ∧ x < 16 := by
  have hle : ∀ d : Char, c ≤ d → c.toNat ≤ d.toNat := fun d hd => hd
  unfold hexValue at h
  split at h
  · rename_i hc
    have hc' := hle _ hc.2
    cases h
    have h0 : ('9' : Char).toNat = 57 := rfl
    omega
  · split at h
    · rename_i hc
      have hc' := hle _ hc.2
      cases h
      have h0 : ('f' : Char).toNat = 102 := rfl
      omega
    · split at h
      · rename_i hc
        have hc' := hle _ hc.2
        cases h
        have h0 : ('F' : Char).toNat = 70 := rfl
        omega
      · cases h

theorem hexValue_toLower {c : Char} (h : (hexValue c).isSome) :
    ∃ x < 16, hexValue c.toLower = some x ∧ hexDigit x = c.toLower := by
  obtain ⟨x, hx⟩ := Option.isSome_iff_exists.1 h
  obtain ⟨hc, hlt⟩ := hexValue_lt hx
  have hofNat : Char.ofNat c.toNat = c := Char.ofNat_toNat c
  have hspec := hexValue_spec c.toNat hc x hlt
  rw [hofNat] at hspec
  exact ⟨x, hlt, hspec hx⟩

theorem hexBytes_roundTrip {cs : List Char}
    (h : ∀ c ∈ cs, ∃ x < 16, hexValue c = some x ∧ hexDigit x = c) (n : ℕ)
    (hlen : cs.length = 2 * n) :
    (hexBytes cs).length = n ∧ (hexBytes cs).flatMap hexByte = cs := by
  induction n generalizing cs with
  | zero =>
    rw [List.length_eq_zero_iff.1 hlen]
    exact ⟨rfl, rfl⟩
  | succ n ih =>
    match cs, hlen with
    | a :: b :: cs, hlen =>
      obtain ⟨x, hx, hax, hda⟩ := h a List.mem_cons_self
      obtain ⟨y, hy, hby, hdb⟩ := h b (List.mem_cons_of_mem a List.mem_cons_self)
      have hrest := ih (fun c hc => h c (List.mem_cons_of_mem a (List.mem_cons_of_mem b hc)))
        (by simpa [Nat.mul_succ] using hlen)
      have hbyte : (UInt8.ofNat (16 * x + y)).toNat = 16 * x + y := by
        rw [UInt8.toNat_ofNat']
        omega
      have hdigits : hexByte (UInt8.ofNat (16 * x + y)) = [a, b] := by
        rw [hexByte, hbyte]
        have hdiv : (16 * x + y) / 16 = x := by omega
        have hmod : (16 * x + y) % 16 = y := by omega
        rw [hdiv, hmod, hda, hdb]
      constructor
      · simp only [hexBytes, hax, hby, List.length_cons, hrest.1]
      · simp only [hexBytes, hax, hby, List.flatMap_cons, hdigits, hrest.2]
        rfl

theorem readUInt32BE_append {bs : List UInt8} (hlen : bs.length = objectIdBytes) {value : ℕ}
    (hvalue : value < 4294967296) (rest : List UInt8) :
    readUInt32BE (bs ++ writeUInt32BE value ++ rest) objectIdBytes = value := by
  rw [readUInt32BE, List.append_assoc, ← hlen, List.drop_left]
  show List.foldl (fun n (b : UInt8) => n * 256 + b.toNat) 0 (writeUInt32BE value) = value
  simp only [writeUInt32BE, List.foldl_cons, List.foldl_nil, UInt8.toNat_ofNat']
  omega

/-! ### Payloads -/

/-- What some bytes must be to name a user at a time: the id, the expiry and the signature. -/
structure Signed (crypto : Crypto) (secret : String) (buf : List UInt8) (now : ℤ) (id : ObjectId) :
    Prop where
  size : buf.length = payloadBytes
  signature : buf.drop (objectIdBytes + expBytes) =
    hmacBody crypto (buf.take (objectIdBytes + expBytes)) secret
  user : id.hex = String.ofList ((buf.take objectIdBytes).flatMap hexByte)
  fresh : now ≤ (readUInt32BE buf objectIdBytes : ℤ) * 1000

theorem readUInt32BE_take (buf : List UInt8) :
    readUInt32BE (buf.take (objectIdBytes + expBytes)) objectIdBytes =
      readUInt32BE buf objectIdBytes := by
  unfold readUInt32BE
  rw [List.drop_take, List.take_take]
  rfl

/-- **What a payload must spell.** -/
theorem verify_eq_some (crypto : Crypto) {secret : String} (hsecret : secret ≠ "")
    (startPayload : String) (now : ℤ) (id : ObjectId) :
    verifyTelegramLinkPayload crypto secret startPayload now = some id ↔
      startPayload ≠ "" ∧ Signed crypto secret (base64UrlDecode crypto (trim startPayload)) now
        id := by
  unfold verifyTelegramLinkPayload
  by_cases hempty : startPayload = ""
  · rw [if_pos (.inr hempty)]
    exact iff_of_false (fun h => nomatch h) fun h => h.1 hempty
  · rw [if_neg (not_or.2 ⟨hsecret, hempty⟩)]
    by_cases hsize : (base64UrlDecode crypto (trim startPayload)).length = payloadBytes
    · dsimp only
      rw [dif_pos hsize, readUInt32BE_take]
      by_cases hsig :
          (base64UrlDecode crypto (trim startPayload)).drop (objectIdBytes + expBytes) =
            (crypto.hmac ((base64UrlDecode crypto (trim startPayload)).take
              (objectIdBytes + expBytes)) secret).take sigBytes
      · rw [if_neg (not_not.2 hsig)]
        by_cases hold :
            (readUInt32BE (base64UrlDecode crypto (trim startPayload)) objectIdBytes : ℤ) * 1000 <
              now
        · rw [if_pos hold]
          exact iff_of_false (fun h => nomatch h) fun h => absurd hold (not_lt.2 h.2.fresh)
        · rw [if_neg hold]
          constructor
          · intro hid
            cases hid
            refine ⟨hempty, hsize, hsig, ?_, not_lt.1 hold⟩
            simp [objectIdOfBytes, List.take_take]
          · rintro ⟨-, hsigned⟩
            obtain ⟨hex, size⟩ := id
            have huser : hex = _ := hsigned.user
            subst huser
            simp [objectIdOfBytes, List.take_take]
      · rw [if_pos hsig]
        exact iff_of_false (fun h => nomatch h) fun h => hsig h.2.signature
    · rw [dif_neg hsize]
      exact iff_of_false (fun h => nomatch h) fun h => hsize h.2.size

section Created

variable {hmac : Hmac} {secret userId : String} {now : ℤ}

def linkBytes (hmac : Hmac) (secret userId : String) (now : ℤ) : List UInt8 :=
  linkBody userId now ++ hmacBody (nodeCrypto hmac) (linkBody userId now) secret

theorem hexBytes_userId (hid : isHexObjectId userId = true) :
    (hexBytes userId.toLower.toList).length = objectIdBytes ∧
      (hexBytes userId.toLower.toList).flatMap hexByte = userId.toLower.toList := by
  obtain ⟨hlen, hhex⟩ := isHexObjectId_iff.1 hid
  have hlower : userId.toLower.toList = userId.toList.map Char.toLower := String.toList_map
  rw [hlower]
  apply hexBytes_roundTrip
  · intro c hc
    obtain ⟨d, hd, rfl⟩ := List.mem_map.1 hc
    exact hexValue_toLower (hhex d hd)
  · rw [List.length_map, hlen]
    rfl

theorem linkBody_length (hid : isHexObjectId userId = true) :
    (linkBody userId now).length = objectIdBytes + expBytes := by
  rw [linkBody, List.length_append, (hexBytes_userId hid).1]
  rfl

theorem hmacBody_length (body : List UInt8) :
    (hmacBody (nodeCrypto hmac) body secret).length = sigBytes := by
  rw [hmacBody, List.length_take]
  show min sigBytes (hmac body secret).val.length = sigBytes
  rw [(hmac body secret).property]
  rfl

theorem linkBytes_length (hid : isHexObjectId userId = true) :
    (linkBytes hmac secret userId now).length = payloadBytes := by
  rw [linkBytes, List.length_append, linkBody_length hid, hmacBody_length]
  rfl

theorem payload_length (hid : isHexObjectId userId = true) :
    (base64UrlEncode (linkBytes hmac secret userId now)).length = 35 := by
  rw [base64UrlEncode_eq, ← String.length_toList, String.toList_ofList, urlChars, List.length_map,
    Encoding.sextets_length, linkBytes_length hid]
  rfl

/-- **A created payload**: it is short and safe, and spells the bytes. -/
theorem create_eq_ok (hmac : Hmac) (now : ℤ) (hsecret : secret ≠ "") (hid : isHexObjectId userId = true) :
    createTelegramLinkPayload (nodeCrypto hmac) secret userId now =
        .ok (base64UrlEncode (linkBytes hmac secret userId now)) ∧
      (base64UrlEncode (linkBytes hmac secret userId now)).length ≤ 64 ∧
      ∀ c ∈ (base64UrlEncode (linkBytes hmac secret userId now)).toList, isUrlSafe c = true := by
  have hlength : (base64UrlEncode (linkBytes hmac secret userId now)).length = 35 :=
    payload_length hid
  refine ⟨?_, by omega, ?_⟩
  · have hshort : ¬64 < (base64UrlEncode (linkBytes hmac secret userId now)).length := by omega
    unfold createTelegramLinkPayload
    rw [if_neg hsecret, if_neg (not_not.2 hid)]
    exact if_neg hshort
  · rw [base64UrlEncode_eq, String.toList_ofList]
    exact forall_urlChars _ fun n hn => (urlChar_spec n hn).2.1

theorem linkBytes_signed (hid : isHexObjectId userId = true) (hpos : 0 ≤ expSec now)
    (hlt : expSec now < 4294967296) (t : ℤ) (id : ObjectId) :
    Signed (nodeCrypto hmac) secret (linkBytes hmac secret userId now) t id ↔
      id.hex = userId.toLower ∧ t ≤ expSec now * 1000 := by
  have hbody : (linkBody userId now).length = objectIdBytes + expBytes := linkBody_length hid
  obtain ⟨hidlen, hidhex⟩ := hexBytes_userId hid
  have htake : (linkBytes hmac secret userId now).take (objectIdBytes + expBytes) =
      linkBody userId now := List.take_left' hbody
  have hdrop : (linkBytes hmac secret userId now).drop (objectIdBytes + expBytes) =
      hmacBody (nodeCrypto hmac) (linkBody userId now) secret := List.drop_left' hbody
  have huser : (linkBytes hmac secret userId now).take objectIdBytes =
      hexBytes userId.toLower.toList := by
    rw [linkBytes, linkBody, List.append_assoc]
    exact List.take_left' hidlen
  have hmod : (expSec now % 4294967296).toNat = (expSec now).toNat := by
    rw [Int.emod_eq_of_lt hpos hlt]
  have hread : (readUInt32BE (linkBytes hmac secret userId now) objectIdBytes : ℤ) = expSec now := by
    rw [linkBytes, linkBody, readUInt32BE_append hidlen (by omega), hmod]
    exact Int.toNat_of_nonneg hpos
  have hhex : String.ofList (userId.toLower.toList) = userId.toLower := String.ofList_toList
  constructor
  · intro h
    have hname := h.user
    have hfresh := h.fresh
    rw [huser, hidhex, hhex] at hname
    rw [hread] at hfresh
    exact ⟨hname, hfresh⟩
  · rintro ⟨hname, hfresh⟩
    constructor
    · exact linkBytes_length hid
    · rw [hdrop, htake]
    · rw [huser, hidhex, hhex]
      exact hname
    · rw [hread]
      exact hfresh

end Created

/-- **Link payloads round-trip and are authentic**: a payload that is created for an id, with an
expiry that fits 32 bits, is at most 64 characters that are safe in a URL, and it is verified as the
id in lower case until the expiry and not later; and whatever is verified at any time spells 26 bytes
with the signature, the id and an expiry that has not passed. -/
theorem link_payload_roundTrips (hmac : Hmac) (secret : String) (hsecret : secret ≠ "") :
    (∀ (userId : String) (now : ℤ), isHexObjectId userId = true → 0 ≤ expSec now →
      expSec now < 4294967296 →
        ∃ payload, createTelegramLinkPayload (nodeCrypto hmac) secret userId now = .ok payload ∧
          payload.length ≤ 64 ∧ (∀ c ∈ payload.toList, isUrlSafe c = true) ∧
          ∀ t, (verifyTelegramLinkPayload (nodeCrypto hmac) secret payload t).map (·.hex) =
            if t ≤ expSec now * 1000 then some userId.toLower else none) ∧
    ∀ (startPayload : String) (t : ℤ) (id : ObjectId),
      verifyTelegramLinkPayload (nodeCrypto hmac) secret startPayload t = some id ↔
        startPayload ≠ "" ∧ Signed (nodeCrypto hmac) secret
          (base64UrlDecode (nodeCrypto hmac) (trim startPayload)) t id := by
  refine ⟨?_, verify_eq_some (nodeCrypto hmac) hsecret⟩
  intro userId now hid hpos hlt
  obtain ⟨hcreate, hlength, hsafe⟩ := create_eq_ok hmac now hsecret hid
  refine ⟨_, hcreate, hlength, hsafe, ?_⟩
  intro t
  have hdecode := base64Url_roundTrip hmac (linkBytes hmac secret userId now)
  have hverify := verify_eq_some (nodeCrypto hmac) hsecret
    (base64UrlEncode (linkBytes hmac secret userId now)) t
  rw [hdecode] at hverify
  simp only [linkBytes_signed hid hpos hlt] at hverify
  split
  · rename_i hfresh
    have hempty : base64UrlEncode (linkBytes hmac secret userId now) ≠ "" := by
      intro h
      have hlen : (base64UrlEncode (linkBytes hmac secret userId now)).length = 35 :=
        payload_length hid
      simp [h] at hlen
    have hsize : userId.toLower.toList.length = 24 := by
      have hlower : userId.toLower.toList = userId.toList.map Char.toLower := String.toList_map
      rw [hlower, List.length_map]
      exact (isHexObjectId_iff.1 hid).1
    rw [(hverify ⟨userId.toLower, hsize⟩).2 ⟨hempty, rfl, hfresh⟩]
    rfl
  · rename_i hold
    cases hid' : verifyTelegramLinkPayload (nodeCrypto hmac) secret
        (base64UrlEncode (linkBytes hmac secret userId now)) t with
    | none => rfl
    | some id => exact absurd ((hverify id).1 hid').2.2 hold

def sampleHmac : Hmac := fun _ _ =>
  ⟨[52, 91, 152, 176, 53, 131, 250, 217, 57, 234, 168, 188, 145, 14, 44, 29, 71, 171, 94,
      216, 12, 197, 200, 87, 105, 100, 145, 158, 145, 110, 182, 17], rfl⟩

theorem samplePayload_verified :
    ∃ payload, createTelegramLinkPayload (nodeCrypto sampleHmac) "link-secret"
        "65A1B2C3D4E5F60718293A4B" 1700000000000 = .ok payload ∧
      (verifyTelegramLinkPayload (nodeCrypto sampleHmac) "link-secret" payload
        1700001800000).map (·.hex) = some "65A1B2C3D4E5F60718293A4B".toLower := by
  obtain ⟨payload, hcreate, -, -, hverify⟩ :=
    (link_payload_roundTrips sampleHmac "link-secret" (by decide)).1 "65A1B2C3D4E5F60718293A4B"
      1700000000000 (by decide +kernel) (by decide) (by decide)
  exact ⟨payload, hcreate, (hverify 1700001800000).trans (if_pos (by decide))⟩

end VibemeetBackend.Telegram
