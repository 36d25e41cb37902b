import UbirchClient.Go.Basic
set_option autoImplicit false

/-!
# HTTP requests as the handlers read them

WHAT THIS FILE IS FOR.  Both HTTP surfaces read a request through a few `net/http`
and `chi` calls: `Header.Get` of `Content-Type`, `Content-Transfer-Encoding` and
`X-Auth-Token`, `strings.ToLower` of the first two, `chi.URLParam` of the `uuid` and
`operation` path parameters, `r.URL.Path`, and `ioutil.ReadAll(r.Body)`.  A request
is given here as exactly those inputs.

HEADERS.  `http.Header` is a `map[string][]string` whose keys the server has put in
canonical form; `Header.Get(key)` looks up `CanonicalMIMEHeaderKey(key)` and returns
the first value, or `""` when there is none.  A missing header and a header whose
first value is empty therefore read the same, which is the case the auth checks
turn on.

`strings.ToLower` is exact on its ASCII branch.  On a string with a byte `>= 0x80`
it maps each rune through `unicode.ToLower`, whose tables are not modelled: that
branch is the parameter `lowerRunes`, and every result stated with it holds for
every choice of it.
-/

namespace UbirchClient.Go

/-- `validHeaderFieldByte`: a byte of an HTTP token. -/
def validHeaderFieldByte (c : UInt8) : Bool :=
  (0x30 ≤ c && c ≤ 0x39) || (0x41 ≤ c && c ≤ 0x5A) || (0x61 ≤ c && c ≤ 0x7A) ||
    [0x21, 0x23, 0x24, 0x25, 0x26, 0x27, 0x2A, 0x2B, 0x2D, 0x2E, 0x5E, 0x5F, 0x60, 0x7C,
      0x7E].contains c

/-- The loop of `canonicalMIMEHeaderKey`: upper case at the start and after each `-`,
lower case elsewhere. -/
def canonicalCase : Bool → GoString → GoString
  | _, [] => []
  | upper, c :: cs =>
    let c' := if upper ∧ 0x61 ≤ c ∧ c ≤ 0x7A then c - 0x20
      else if ¬ upper ∧ 0x41 ≤ c ∧ c ≤ 0x5A then c + 0x20 else c
    c' :: canonicalCase (c' = 0x2D) cs

/-- `textproto.CanonicalMIMEHeaderKey`: a key holding a byte that is not a token byte
is returned unchanged. -/
def canonicalMIMEHeaderKey (k : GoString) : GoString :=
  if k.all validHeaderFieldByte then canonicalCase true k else k

/-- `http.Header`: canonical keys and their values. -/
abbrev Header := GoMap (List GoString)

/-- `Header.Get(key)`: the first value under the canonical key, or `""`. -/
def Header.get (h : Header) (key : GoString) : GoString :=
  match h.get? (canonicalMIMEHeaderKey key) with
  | some (v :: _) => v
  | _ => []

/-- `strings.ToLower`, with `lowerRunes` for its non-ASCII branch. -/
def toLower (lowerRunes : GoString → GoString) (s : GoString) : GoString :=
  if isASCII s then asciiLower s else lowerRunes s

/-- `http.StatusBadRequest`. -/
def statusBadRequest : Nat := 400

/-- `http.StatusUnauthorized`. -/
def statusUnauthorized : Nat := 401

/-- `http.StatusNotFound`. -/
def statusNotFound : Nat := 404

/-- `http.StatusInternalServerError`. -/
def statusInternalServerError : Nat := 500

/-- `http.StatusGatewayTimeout`. -/
def statusGatewayTimeout : Nat := 504

/-- What the handlers read of an `http.Request`. -/
structure Request where
  /-- `r.URL.Path` -/
  path : GoString
  /-- the `chi` URL parameters of the matched route -/
  params : GoMap GoString
  header : Header
  /-- `ioutil.ReadAll(r.Body)`: the body, or `none` when reading fails -/
  body : Option GoString

/-- `chi.URLParam(r, key)`, which is `""` for a parameter the route does not have. -/
def Request.urlParam (r : Request) (key : GoString) : GoString := (r.params.get? key).getD []

end UbirchClient.Go
