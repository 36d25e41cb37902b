import UbirchClient.Handlers.Httphelper
set_option autoImplicit false

/-!
# The old api surface: `api/ubirch_rest_api.go`

WHAT THIS FILE IS FOR.  The old HTTP surface has two routes, `POST /{uuid}` for JSON
data (`signJSON`) and `POST /{uuid}/hash` for a hash (`signHash`).  Each checks the
`Content-Type`, then `sign` checks the UUID and the token (`checkAuth`), reads the
payload (`getData`) and puts an `HTTPMessage{ID, Data}` on `MessageHandler` for the
signer.  Every failure is answered with `http.Error(w, err, code)`.  The result of a
route here is that error, or the message it queues; the response channel and
`forwardBackendResponse` are not modelled.

TOKENS.  `checkAuth` looks the token up in `AuthTokens[id.String()]` and compares it
with `Header.Get("x-auth-token")`, which is `""` when the header is missing.  Nothing
on this surface rejects an empty stored token.

THE PROPERTIES PROVED HERE.  `sign_ok_iff` says exactly which requests a route
queues a message for, and with which data.  From it: a queued message is authorized
by a header equal to the stored token (`sign_authorized`), which is non-empty when
every stored token is (`sign_of_no_token`); the JSON route queues the SHA-256 of the
canonical body (`signJSON_data`); the hash route queues a message exactly when the
body is octet-stream and the token matches, and it queues the body as it is, of any
length (`signHash_data`); and for a document without `<`, `>`, `&` the JSON route
queues the hash the handlers' data route computes (`getData_eq_getHashFromDataRequest`).
The two evaluations `signHash_empty_token` and `signHash_short_body` show a request
with no token header, and a one-byte "hash", being queued.
-/

namespace UbirchClient.Api

open UbirchClient.Go UbirchClient.Json

/-- `api.UUIDKey`. -/
def uuidKey : GoString := ascii "uuid"

/-- `api.BinType`. -/
def binType : GoString := ascii "application/octet-stream"

/-- `api.JSONType`. -/
def jsonType : GoString := ascii "application/json"

/-- `HTTPMessage`, without its response channel: what `sign` puts on `MessageHandler`. -/
structure HTTPMessage where
  id : UUID
  data : GoString
  deriving DecidableEq

/-- The errors of the old api, each written with `http.Error`. -/
inductive ApiError where
  /-- 400, `Wrong content-type. Expected "%s"` -/
  | contentType (expectedType : GoString)
  /-- 404, `unable to parse "%s" as UUID: %s` -/
  | uuidParse (urlParam : GoString) (e : UuidError)
  /-- 404, `unknown UUID "%s"` -/
  | unknownUuid (id : GoString)
  /-- 401, `invalid "X-Auth-Token"` -/
  | xAuthToken
  /-- 400, `unable to read request body: %v` -/
  | readBody
  /-- 400, `unable to parse request body: %v` or `unable to compact json object: %v` -/
  | canon (e : CanonError)

/-- The status each error is written with. -/
def ApiError.code : ApiError → Nat
  | .contentType _ => statusBadRequest
  | .uuidParse _ _ => statusNotFound
  | .unknownUuid _ => statusNotFound
  | .xAuthToken => statusUnauthorized
  | .readBody => statusBadRequest
  | .canon _ => statusBadRequest

/-- `HTTPServer`, as far as a route reads it: the token of each UUID string. -/
structure HTTPServer where
  authTokens : GoMap GoString

section

variable (lowerRunes : GoString → GoString) (sha256 : GoString → Httphelper.Sha256Sum)

/-- `ContentType`: the lower-cased `content-type` header. -/
def contentType (r : Request) : GoString := toLower lowerRunes (r.header.get (ascii "content-type"))

/-- `assertContentType`. -/
def assertContentType (r : Request) (expectedType : GoString) : Except ApiError Unit :=
  if contentType lowerRunes r ≠ expectedType then .error (.contentType expectedType) else .ok ()

/-- `XAuthToken`. -/
def xAuthToken (r : Request) : GoString := r.header.get (ascii "x-auth-token")

/-- `checkAuth`. -/
def checkAuth (r : Request) (authTokens : GoMap GoString) : Except ApiError UUID :=
  match parse (r.urlParam uuidKey) with
  | .error e => .error (.uuidParse (r.urlParam uuidKey) e)
  | .ok id =>
    match authTokens.get? id.toGoString with
    | none => .error (.unknownUuid id.toGoString)
    | some idAuthToken => if xAuthToken r ≠ idAuthToken then .error .xAuthToken else .ok id

/-- The tail of `getData`: unless the route carries a hash, the data is replaced by
its SHA-256. -/
def hashUnlessHash (isHash : Bool) (data : GoString) : GoString :=
  if isHash then data else (sha256 data).toList

/-- `getData`. -/
def getData (r : Request) (isHash : Bool) : Except ApiError GoString :=
  match r.body with
  | none => .error .readBody
  | some data =>
    if contentType lowerRunes r = jsonType then
      match getSortedCompactJSON data with
      | .error e => .error (.canon e)
      | .ok c => .ok (hashUnlessHash sha256 isHash c)
    else .ok (hashUnlessHash sha256 isHash data)

/-- `HTTPServer.sign`, up to the message it queues. -/
def HTTPServer.sign (srv : HTTPServer) (r : Request) (isHash : Bool) : Except ApiError HTTPMessage :=
  match checkAuth r srv.authTokens with
  | .error e => .error e
  | .ok id =>
    match getData lowerRunes sha256 r isHash with
    | .error e => .error e
    | .ok data => .ok ⟨id, data⟩

/-- `HTTPServer.signHash`. -/
def HTTPServer.signHash (srv : HTTPServer) (r : Request) : Except ApiError HTTPMessage :=
  match assertContentType lowerRunes r binType with
  | .error e => .error e
  | .ok () => srv.sign lowerRunes sha256 r true

/-- `HTTPServer.signJSON`. -/
def HTTPServer.signJSON (srv : HTTPServer) (r : Request) : Except ApiError HTTPMessage :=
  match assertContentType lowerRunes r jsonType with
  | .error e => .error e
  | .ok () => srv.sign lowerRunes sha256 r false

/-! ## What a route queues -/

theorem checkAuth_ok_iff {r : Request} {authTokens : GoMap GoString} {id : UUID} :
    checkAuth r authTokens = .ok id ↔
      parse (r.urlParam uuidKey) = .ok id ∧ authTokens.get? id.toGoString = some (xAuthToken r) := by
  constructor
  · intro h
    unfold checkAuth at h
    split at h; · cases h
    rename_i hp
    split at h; · cases h
    rename_i tok hg
    split at h; · cases h
    rename_i ht
    cases h
    rw [not_not.1 ht]
    exact ⟨hp, hg⟩
  · rintro ⟨hp, hg⟩
    simp [checkAuth, hp, hg]

theorem getData_ok_iff {r : Request} {isHash : Bool} {data : GoString} :
    getData lowerRunes sha256 r isHash = .ok data ↔ ∃ body, r.body = some body ∧
      ((contentType lowerRunes r = jsonType ∧ ∃ c, getSortedCompactJSON body = .ok c ∧
          data = hashUnlessHash sha256 isHash c) ∨
        (contentType lowerRunes r ≠ jsonType ∧ data = hashUnlessHash sha256 isHash body)) := by
  unfold getData
  split <;> rename_i hb
  · simp [hb]
  · rename_i body
    split <;> rename_i hj
    · split <;> rename_i hc <;> simp [hb, hj, hc, eq_comm]
    · simp [hb, hj, eq_comm]

/-- A route queues a message exactly when the UUID parses, the stored token of its
string equals the header token, and the payload reads; the message carries that UUID
and payload. -/
theorem sign_ok_iff {srv : HTTPServer} {r : Request} {isHash : Bool} {msg : HTTPMessage} :
    srv.sign lowerRunes sha256 r isHash = .ok msg ↔
      parse (r.urlParam uuidKey) = .ok msg.id ∧
        srv.authTokens.get? msg.id.toGoString = some (xAuthToken r) ∧
        getData lowerRunes sha256 r isHash = .ok msg.data := by
  obtain ⟨id, data⟩ := msg
  unfold HTTPServer.sign
  split <;> rename_i hc
  · simp only [reduceCtorEq, false_iff, not_and]
    intro hp hg
    cases hc.symm.trans (checkAuth_ok_iff.2 ⟨hp, hg⟩)
  · rename_i id'
    obtain ⟨hp, hg⟩ := checkAuth_ok_iff.1 hc
    split <;> rename_i hd
    · simp only [reduceCtorEq, false_iff, not_and]
      intro hp' _ hd'
      cases hd.symm.trans hd'
    · simp only [Except.ok.injEq, HTTPMessage.mk.injEq]
      constructor
      · rintro ⟨rfl, rfl⟩; exact ⟨hp, hg, hd⟩
      · rintro ⟨hp', -, hd'⟩
        exact ⟨Except.ok.inj (hp.symm.trans hp'), Except.ok.inj (hd.symm.trans hd')⟩

theorem signHash_eq {srv : HTTPServer} {r : Request} (h : contentType lowerRunes r = binType) :
    srv.signHash lowerRunes sha256 r = srv.sign lowerRunes sha256 r true := by
  simp [HTTPServer.signHash, assertContentType, h]

theorem signJSON_eq {srv : HTTPServer} {r : Request} (h : contentType lowerRunes r = jsonType) :
    srv.signJSON lowerRunes sha256 r = srv.sign lowerRunes sha256 r false := by
  simp [HTTPServer.signJSON, assertContentType, h]

theorem signHash_ok {srv : HTTPServer} {r : Request} {msg : HTTPMessage}
    (h : srv.signHash lowerRunes sha256 r = .ok msg) :
    contentType lowerRunes r = binType ∧ srv.sign lowerRunes sha256 r true = .ok msg := by
  unfold HTTPServer.signHash assertContentType at h
  split at h
  · cases h
  · rename_i hc
    split at hc
    · cases hc
    · rename_i hb
      exact ⟨not_not.1 hb, h⟩

theorem signJSON_ok {srv : HTTPServer} {r : Request} {msg : HTTPMessage}
    (h : srv.signJSON lowerRunes sha256 r = .ok msg) :
    contentType lowerRunes r = jsonType ∧ srv.sign lowerRunes sha256 r false = .ok msg := by
  unfold HTTPServer.signJSON assertContentType at h
  split at h
  · cases h
  · rename_i hc
    split at hc
    · cases hc
    · rename_i hj
      exact ⟨not_not.1 hj, h⟩

/-! ## Authorization -/

/-- A queued message is for a UUID whose stored token is the request's header token,
possibly empty. -/
theorem sign_authorized {srv : HTTPServer} {r : Request} {isHash : Bool} {msg : HTTPMessage}
    (h : srv.sign lowerRunes sha256 r isHash = .ok msg) :
    parse (r.urlParam uuidKey) = .ok msg.id ∧
      srv.authTokens.get? msg.id.toGoString = some (xAuthToken r) :=
  let ⟨hp, hg, _⟩ := (sign_ok_iff lowerRunes sha256).1 h
  ⟨hp, hg⟩

/-- When no stored token is empty, a request without an `X-Auth-Token` header queues
nothing. -/
theorem sign_of_no_token {srv : HTTPServer} {r : Request} {isHash : Bool}
    (hs : [] ∉ srv.authTokens.entries.map Prod.snd) (h : xAuthToken r = []) (msg : HTTPMessage) :
    srv.sign lowerRunes sha256 r isHash ≠ .ok msg := by
  intro e
  have hg := (sign_authorized lowerRunes sha256 e).2
  rw [h] at hg
  simp only [GoMap.get?, Option.map_eq_some'] at hg
  obtain ⟨kv, hkv, hv⟩ := hg
  exact hs (List.mem_map.2 ⟨kv, List.mem_of_find?_eq_some hkv, hv⟩)

/-- A server whose one token is `t`, and a request without the header. -/
theorem sign_rejects_missing_header :
    (HTTPServer.mk ⟨[(ascii "00000000-0000-0000-0000-000000000001", ascii "t")],
        List.nodup_singleton _⟩).sign id (fun _ => ⟨List.replicate 32 0, List.length_replicate _ _⟩)
        { path := []
          params := ⟨[(uuidKey, ascii "00000000-0000-0000-0000-000000000001")], List.nodup_singleton _⟩
          header := GoMap.empty
          body := some [] } true ≠
      .ok ⟨⟨List.replicate 15 0 ++ [1], by decide⟩, []⟩ :=
  sign_of_no_token id _ (by decide) (by rfl) _

/-- A configured empty token and a request with no token header: the hash route
queues the request's body for signing. -/
theorem signHash_empty_token :
    (HTTPServer.mk ⟨[(ascii "00000000-0000-0000-0000-000000000001", [])], List.nodup_singleton _⟩).signHash
        lowerRunes sha256
        { path := ascii "/00000000-0000-0000-0000-000000000001/hash"
          params := ⟨[(uuidKey, ascii "00000000-0000-0000-0000-000000000001")], List.nodup_singleton _⟩
          header := ⟨[(ascii "Content-Type", [binType])], List.nodup_singleton _⟩
          body := some (List.replicate 32 0) } =
      .ok ⟨⟨List.replicate 15 0 ++ [1], by decide⟩, List.replicate 32 0⟩ :=
  rfl

/-! ## The payload -/

/-- The hash route queues a message exactly when the body is octet-stream, the UUID
parses and its stored token is the header token; the message is the body itself, and
no condition falls on the body's length. -/
theorem signHash_data {srv : HTTPServer} {r : Request} {msg : HTTPMessage} :
    srv.signHash lowerRunes sha256 r = .ok msg ↔
      contentType lowerRunes r = binType ∧ parse (r.urlParam uuidKey) = .ok msg.id ∧
        srv.authTokens.get? msg.id.toGoString = some (xAuthToken r) ∧ r.body = some msg.data := by
  have hj : contentType lowerRunes r = binType → contentType lowerRunes r ≠ jsonType := fun hb => by
    rw [hb]; decide
  constructor
  · intro h
    obtain ⟨hb, hs⟩ := signHash_ok lowerRunes sha256 h
    obtain ⟨hp, hg, hd⟩ := (sign_ok_iff lowerRunes sha256).1 hs
    obtain ⟨body, hbody, ⟨hjson, -⟩ | ⟨-, hdata⟩⟩ := (getData_ok_iff lowerRunes sha256).1 hd
    · exact absurd hjson (hj hb)
    · exact ⟨hb, hp, hg, by simpa [hdata, hashUnlessHash] using hbody⟩
  · rintro ⟨hb, hp, hg, hbody⟩
    rw [signHash_eq lowerRunes sha256 hb]
    exact (sign_ok_iff lowerRunes sha256).2
      ⟨hp, hg, (getData_ok_iff lowerRunes sha256).2 ⟨_, hbody, .inr ⟨hj hb, rfl⟩⟩⟩

/-- A one-byte body on the hash route, with the right token, is queued as it is. -/
theorem signHash_data_one_byte :
    (HTTPServer.mk ⟨[(ascii "00000000-0000-0000-0000-000000000001", ascii "t")],
        List.nodup_singleton _⟩).signHash id (fun _ => ⟨List.replicate 32 0, List.length_replicate _ _⟩)
        { path := ascii "/00000000-0000-0000-0000-000000000001/hash"
          params := ⟨[(uuidKey, ascii "00000000-0000-0000-0000-000000000001")], List.nodup_singleton _⟩
          header := ⟨[(ascii "Content-Type", [binType]), (ascii "X-Auth-Token", [ascii "t"])], by decide⟩
          body := some [7] } =
      .ok ⟨⟨List.replicate 15 0 ++ [1], by decide⟩, [7]⟩ :=
  (signHash_data id (fun _ => ⟨List.replicate 32 0, List.length_replicate _ _⟩)).2 ⟨rfl, rfl, rfl, rfl⟩

/-- A one-byte body on the hash route, with the right token: it is queued as the
"hash". -/
theorem signHash_short_body :
    (HTTPServer.mk ⟨[(ascii "00000000-0000-0000-0000-000000000001", ascii "t")],
        List.nodup_singleton _⟩).signHash lowerRunes sha256
        { path := ascii "/00000000-0000-0000-0000-000000000001/hash"
          params := ⟨[(uuidKey, ascii "00000000-0000-0000-0000-000000000001")], List.nodup_singleton _⟩
          header := ⟨[(ascii "Content-Type", [binType]), (ascii "X-Auth-Token", [ascii "t"])], by decide⟩
          body := some [0] } =
      .ok ⟨⟨List.replicate 15 0 ++ [1], by decide⟩, [0]⟩ :=
  rfl

/-- The JSON route queues the SHA-256 of the canonical form of the body. -/
theorem signJSON_data {srv : HTTPServer} {r : Request} {msg : HTTPMessage}
    (h : srv.signJSON lowerRunes sha256 r = .ok msg) :
    ∃ body c, r.body = some body ∧ getSortedCompactJSON body = .ok c ∧
      msg.data = (sha256 c).toList ∧ msg.data.length = Httphelper.hashLen := by
  obtain ⟨hj, hs⟩ := signJSON_ok lowerRunes sha256 h
  obtain ⟨-, -, hd⟩ := (sign_ok_iff lowerRunes sha256).1 hs
  obtain ⟨body, hbody, ⟨-, c, hc, hdata⟩ | ⟨hn, -⟩⟩ := (getData_ok_iff lowerRunes sha256).1 hd
  · refine ⟨body, c, hbody, hc, hdata, ?_⟩
    rw [hdata]
    exact (sha256 c).length_eq
  · exact absurd hj hn

/-- The JSON body `null`, with a hash function constant at zero bytes. -/
theorem signJSON_data_null_body :
    ∃ body c, ({ path := []
                 params := ⟨[(uuidKey, ascii "00000000-0000-0000-0000-000000000001")],
                   List.nodup_singleton _⟩
                 header := ⟨[(ascii "Content-Type", [jsonType])], List.nodup_singleton _⟩
                 body := some (ascii "null") } : Request).body = some body ∧
      getSortedCompactJSON body = .ok c ∧
      HTTPMessage.data ⟨⟨List.replicate 15 0 ++ [1], by decide⟩, List.replicate 32 0⟩ =
        (⟨List.replicate 32 0, List.length_replicate _ _⟩ : Httphelper.Sha256Sum).toList ∧
      (HTTPMessage.data ⟨⟨List.replicate 15 0 ++ [1], by decide⟩, List.replicate 32 0⟩).length =
        Httphelper.hashLen :=
  @signJSON_data id (fun _ => ⟨List.replicate 32 0, List.length_replicate _ _⟩)
    ⟨⟨[(ascii "00000000-0000-0000-0000-000000000001", [])], List.nodup_singleton _⟩⟩ _ _ (by rfl)

/-- For a JSON document without `<`, `>`, `&` in its strings and keys, the JSON route
of the old api computes the hash the handlers' data route computes. -/
theorem getData_eq_getHashFromDataRequest {r : Request} {header : Header} {d : GoString} {v : Value}
    (hr : contentType lowerRunes r = jsonType) (hb : r.body = some d)
    (hh : Httphelper.contentType lowerRunes header = Httphelper.jsonType)
    (hv : unmarshal d = .ok v) (hf : v.HtmlFree) :
    ∃ x, Httphelper.getHashFromDataRequest lowerRunes sha256 header d = .ok x ∧
      getData lowerRunes sha256 r false = .ok x.toList := by
  have hc : Api.getSortedCompactJSON d = .ok (v.encode false).render := by
    rw [api_getSortedCompactJSON_eq, hv]
    simp only [Except.mapError, Except.map, v.encode_escapeHTML hf]
  refine ⟨sha256 (v.encode false).render,
    Httphelper.getHashFromDataRequest_json lowerRunes sha256 hh (getSortedCompactJSON_of_unmarshal hv), ?_⟩
  simp [getData, hb, hr, hc, hashUnlessHash]

/-- Both data routes on the body `null`. -/
theorem getData_agrees_on_null :
    ∃ x, Httphelper.getHashFromDataRequest id (fun _ => ⟨List.replicate 32 0, List.length_replicate _ _⟩)
        ⟨[(ascii "Content-Type", [Httphelper.jsonType])], List.nodup_singleton _⟩ (ascii "null") = .ok x ∧
      getData id (fun _ => ⟨List.replicate 32 0, List.length_replicate _ _⟩)
        { path := []
          params := GoMap.empty
          header := ⟨[(ascii "Content-Type", [jsonType])], List.nodup_singleton _⟩
          body := some (ascii "null") } false = .ok x.toList :=
  @getData_eq_getHashFromDataRequest id _ _ _ _ .null (by rfl) (by rfl) (by rfl) (by rfl) trivial

end

end UbirchClient.Api
