import VibemeetBackend.Encoding.PathUrl
import VibemeetBackend.Payment.Checkout

/-!
# Return paths of a checkout

`checkout-return.service.ts`: the validation of the path that a checkout returns to, and what is done
with a path that was stored.  A text is its list of code points; a lone surrogate is the replacement
character, which the checks and the parser treat alike.

`new URL(value, base)` is the standard's for a value that begins with one slash and has no backslash;
everything else that it reads is a parameter, and so are the origin of the web application and the
links of the old one.
-/

namespace VibemeetBackend.Payment

open Encoding

/-! ### Values and URLs -/

/-- A value of a request or of a token, as far as it is told apart. -/
inductive JsValue where
  | undefined
  | null
  | string (text : Text)
  | other

structure ParsedUrl where
  origin : Text
  url : PathUrl

/-- `new URL(input, base)` for the origin `base`. -/
def newUrl (other : Text → Text → Option ParsedUrl) (input base : Text) : Option ParsedUrl :=
  match stripped input with
  | '/' :: rest =>
    if rest.head? = some '/' ∨ '\\' ∈ rest then other input base else some ⟨base, parsePath rest⟩
  | _ => other input base

/-! ### `validateReturnTo` -/

def maxReturnToBytes : ℕ := 2048

/-- `ENCODED_SEPARATOR`. -/
def encodedSeparators : List Text :=
  ["%2f".toList, "%5c".toList, "%252f".toList, "%255c".toList]

def hasEncodedSeparator (value : Text) : Bool :=
  encodedSeparators.any fun p => decide (p <:+: lower value)

def hasControlCharacters (value : Text) : Bool :=
  value.any fun c => c.toNat ≤ 31 || c.toNat = 127

def returnBase : Text := "https://return.invalid".toList

/-- `replace(/\/{2,}/g, '/')`. -/
def collapseSlashes : Text → Text
  | [] => []
  | c :: t => if c = '/' ∧ t.head? = some '/' then collapseSlashes t else c :: collapseSlashes t

def isPaymentPage (pathname : Text) : Bool :=
  let normalizedPath := lower (collapseSlashes pathname)
  normalizedPath = "/payment/return".toList ∨ "/payment/return/".toList <+: normalizedPath ∨
    "checkout".toList <:+: normalizedPath

def isReturnPath (value : Text) : Bool :=
  ¬ maxReturnToBytes < byteLength value ∧ ['/'] <+: value ∧ ¬ ['/', '/'] <+: value ∧
    '\\' ∉ value ∧ hasControlCharacters value = false ∧ hasEncodedSeparator value = false

def invalidReturnTo : String := "Invalid returnTo"

def validateReturnTo (other : Text → Text → Option ParsedUrl) (value : JsValue) :
    Except String (Option Text) :=
  match value with
  | .undefined | .null | .string [] => .ok none
  | .other => .error invalidReturnTo
  | .string value =>
    if isReturnPath value = false then .error invalidReturnTo
    else
      match newUrl other value returnBase with
      | none => .error invalidReturnTo
      | some parsed =>
        if parsed.origin ≠ returnBase then .error invalidReturnTo
        else if isPaymentPage parsed.url.pathname = true then .error invalidReturnTo
        else .ok (some parsed.url.href)

/-! ### Contexts and claims -/

inductive CheckoutOrigin where
  | app
  | web
  deriving DecidableEq, Repr

def CheckoutOrigin.word : CheckoutOrigin → Text
  | .app => "app".toList
  | .web => "web".toList

def resolveCheckoutOrigin (value : JsValue) : Except String CheckoutOrigin :=
  match value with
  | .undefined | .null | .string [] => .ok .app
  | .other => .error "Invalid checkoutOrigin"
  | .string word =>
    if word = CheckoutOrigin.app.word then .ok .app
    else if word = CheckoutOrigin.web.word then .ok .web
    else .error "Invalid checkoutOrigin"

structure CheckoutNavigationClaims where
  checkoutId : Option String
  checkoutOrigin : CheckoutOrigin
  returnTo : Option Text

def createCheckoutContext (other : Text → Text → Option ParsedUrl) (checkoutId : String)
    (checkoutOrigin returnTo : JsValue) : Except String CheckoutNavigationClaims := do
  let checkoutOrigin ← resolveCheckoutOrigin checkoutOrigin
  let returnTo ← validateReturnTo other returnTo
  if checkoutOrigin = .web ∧ returnTo = none then throw invalidReturnTo
  else return { checkoutId := some checkoutId, checkoutOrigin, returnTo }

structure DecodedToken where
  checkoutId : JsValue
  checkoutOrigin : JsValue
  returnTo : JsValue

def CheckoutNavigationClaims.token (claims : CheckoutNavigationClaims) : DecodedToken where
  checkoutId := claims.checkoutId.elim .undefined fun id => .string id.toList
  checkoutOrigin := .string claims.checkoutOrigin.word
  returnTo := claims.returnTo.elim .undefined .string

def readCheckoutId (value : JsValue) : Option String :=
  match value with
  | .string text => if isCheckoutId (String.ofList text) = true then some (String.ofList text) else none
  | _ => none

/-- `decoded` is what `jwt.verify` gives, unless it throws or gives no object. -/
def recoverSignedNavigationClaims (other : Text → Text → Option ParsedUrl)
    (decoded : Option DecodedToken) : Option CheckoutNavigationClaims :=
  match decoded with
  | none => none
  | some decoded =>
    match resolveCheckoutOrigin decoded.checkoutOrigin, validateReturnTo other decoded.returnTo with
    | .ok checkoutOrigin, .ok returnTo =>
      let checkoutId := readCheckoutId decoded.checkoutId
      if checkoutOrigin = .web ∧ (returnTo = none ∨ checkoutId = none) then none
      else some { checkoutId, checkoutOrigin, returnTo }
    | _, _ => none

/-! ### `buildReturnTarget` -/

structure ReturnTarget where
  kind : CheckoutOrigin
  url : Text

def CheckoutStatus.word : CheckoutStatus → Text
  | .created => "created".toList
  | .pending => "pending".toList
  | .success => "success".toList
  | .failed => "failed".toList
  | .cancelled => "cancelled".toList

/-- `URLSearchParams.toString()`. -/
def formEncode (t : Text) : Text :=
  t.flatMap fun c =>
    if c.isAlphanum = true ∨ c ∈ ['*', '-', '.', '_'] then [c]
    else if c = ' ' then ['+']
    else (utf8 c).flatMap escape

def searchParams (pairs : List (Text × Text)) : Text :=
  ['&'].intercalate (pairs.map fun x => formEncode x.1 ++ '=' :: formEncode x.2)

/-- `reason` is not empty. -/
def returnUrl (webBaseUrl : Text) (checkoutId : String) (status : CheckoutStatus)
    (reason : Option Text) : Text :=
  webBaseUrl ++ "/payment/return?".toList ++
    searchParams (("checkoutId".toList, checkoutId.toList) :: ("status".toList, status.word) ::
      (reason.map fun r => ("reason".toList, r)).toList)

/-- `webBaseUrl` is the configured origin, or the error that reads it; `buildLegacyAppUrl` is told
whether the payment has succeeded. -/
def buildReturnTarget (other : Text → Text → Option ParsedUrl) (webBaseUrl : Except String Text)
    (buildLegacyAppUrl : Bool → Option Text → Text) (claims : CheckoutNavigationClaims)
    (status : CheckoutStatus) (reason : Option Text) : Except String ReturnTarget :=
  match claims.checkoutOrigin, claims.checkoutId.filter (· ≠ "") with
  | .web, some checkoutId => do
    match ← validateReturnTo other (claims.returnTo.elim .undefined .string) with
    | some _ =>
      let base ← webBaseUrl
      return ⟨.web, returnUrl base checkoutId status reason⟩
    | none => return ⟨.app, buildLegacyAppUrl (status == .success) reason⟩
  | _, _ => return ⟨.app, buildLegacyAppUrl (status == .success) reason⟩

end VibemeetBackend.Payment
