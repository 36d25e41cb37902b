import UbirchClient.Handlers.Services
import UbirchClient.Json.Marshal
set_option autoImplicit false

/-!
# The signer: from a request past the gates to the signing response

WHAT THIS FILE IS FOR.  Past its gates, `SigningService.HandleRequest` hands the
request to `Signer.Sign` and writes back what it returns.  The signer is modelled as
`handlers/services.go` has it; `handlers/signer.go` holds a second revision of the
same functions that fetches the private key in `Sign` instead of in `getSignedUPP`.
`Sign` builds the UPP `{Signed, UUID, hintLookup[op], hash}`, signs it with the
UUID's private key (`getSignedUPP`), sends it to the authentication service with the
request's auth token (`SendUPP`), reads the request ID out of the payload of the
backend's response UPP (`getRequestID`), and answers with `json.Marshal` of a
`signingResponse` (`getSigningResponse`), or with a plain-text `ErrorResponse`: 500
when signing fails, 504 when the backend call times out, 500 when it fails otherwise.

NIL SLICES.  `json.Marshal` writes a nil `[]byte`, slice or map as `null`.  None is
written here: the hash is the slice of an array, and the backend's header and content
come from a received response; an empty UPP is left out by `omitempty`.

WHAT IS A PARAMETER.  The key store, the signature, the HTTP client and the UPP
decoder are not in the sources: a `Signer` is a record of them, any functions of
their types, and every result holds for every choice.  `hintLookup` has an entry for
each operation `getOperation` lets through, so the `found` check of `getSignedUPP`
always passes and its `invalid operation` error cannot occur.  `uuid.FromBytes` of 16
bytes cannot fail, and `json.Marshal` cannot fail on a `signingResponse`.

THE PROPERTIES PROVED HERE.  `getSigningResponse_readBack`: the body of a signing
response is JSON that `json.Unmarshal` accepts, from which the request's hash, the
UPP, the request ID, the error and the backend's response read back.
`signingService_respond_json`: the signing service answers a request it let through
either with a plain-text 500 or 504, or with such a body; then the UPP signed was
built from the UUID, operation and hash of the request and signed with that UUID's
key, it went to the backend with the request's token, and the body carries back the
request's hash and that UPP.
`getRequestID_parse`: a request ID is the canonical string of the first 16 payload
bytes, which `uuid.Parse` reads back.  `Revision.Signer.sign_eq_sign`: the two
revisions answer every request alike.
-/

namespace UbirchClient.Handlers

open UbirchClient.Go UbirchClient.Json UbirchClient.Httphelper

/-- `lenRequestID`. -/
def lenRequestID : Nat := 16

/-- `ubirch.Hint`: the operation a signed UPP announces. -/
inductive Hint where
  | binary
  | disable
  | enable
  | delete
  deriving DecidableEq, Repr

/-- `hintLookup`. -/
def hintLookup : Operation → Hint
  | .anchorHash => .binary
  | .disableHash => .disable
  | .enableHash => .enable
  | .deleteHash => .delete

/-- `ubirch.SignedUPP{Version: ubirch.Signed, Uuid, Hint, Payload}`, before signing. -/
structure SignedUPP where
  uuid : UUID
  hint : Hint
  payload : GoString
  deriving DecidableEq

/-- `h.HTTPResponse`. -/
structure HTTPResponse where
  statusCode : GoInt
  header : Header
  content : GoString

/-- `signingResponse`. -/
structure SigningResponse where
  error : GoString
  hash : GoString
  upp : GoString
  response : HTTPResponse
  requestID : GoString

/-- `response payload does not contain request ID: %q`, with the payload. -/
structure RequestIDError where
  payload : GoString

/-- What the `Signer` reaches through its `Protocol` and its `Client`; `ε`, `τ` and
`δ` are their error types. -/
structure Signer (ε τ δ : Type) where
  /-- `Protocol.GetPrivateKey` -/
  getPrivateKey : UUID → Except ε GoString
  /-- `Protocol.Sign`: the UPP signed with the key -/
  protocolSign : GoString → SignedUPP → Except ε GoString
  /-- `Client.sendToAuthService(uid, auth, upp)` -/
  sendToAuthService : UUID → GoString → GoString → Except τ HTTPResponse
  /-- `os.IsTimeout` -/
  isTimeout : τ → Bool
  /-- `ubirch.Decode`, then `GetPayload` of the decoded UPP -/
  decodePayload : GoString → Except δ GoString

/-! ## The response -/

/-- `http.Header{key: {value}}`. -/
def singleHeader (key value : GoString) : Header := ⟨[(key, [value])], List.nodup_singleton _⟩

/-- `http.StatusText`, on the codes the signer passes to `ErrorResponse`. -/
def statusText (code : Int) : GoString :=
  if code = 500 then ascii "Internal Server Error"
  else if code = 504 then ascii "Gateway Timeout"
  else []

/-- `http.StatusInternalServerError` as an `int`. -/
def internalServerError : GoInt := ⟨statusInternalServerError, by decide⟩

/-- `http.StatusGatewayTimeout` as an `int`. -/
def gatewayTimeout : GoInt := ⟨statusGatewayTimeout, by decide⟩

/-- `ErrorResponse`: the status as plain text, the status text standing in for an
empty message. -/
def errorResponse (code : GoInt) (message : GoString) : HTTPResponse :=
  ⟨code, singleHeader (ascii "Content-Type") (ascii "text/plain; charset=utf-8"),
    if message = [] then statusText code.1 else message⟩

/-- `json.Marshal` of an `http.Header`. -/
def headerSyn (h : Header) : Syn := mapSyn true (sliceSyn (stringSyn true)) h

/-- `json.Marshal` of an `HTTPResponse`. -/
def HTTPResponse.syn (r : HTTPResponse) : Syn :=
  structSyn true [(ascii "statusCode", some (intSyn r.statusCode)),
    (ascii "header", some (headerSyn r.header)), (ascii "content", some (bytesSyn r.content))]

/-- `json.Marshal` of a `signingResponse`: every field is tagged `omitempty`, which
leaves out the empty strings and slices and has no effect on the struct `response`. -/
def SigningResponse.syn (r : SigningResponse) : Syn :=
  structSyn true [(ascii "error", omitEmpty r.error (stringSyn true r.error)),
    (ascii "hash", omitEmpty r.hash (bytesSyn r.hash)),
    (ascii "upp", omitEmpty r.upp (bytesSyn r.upp)),
    (ascii "response", some r.response.syn),
    (ascii "requestID", omitEmpty r.requestID (stringSyn true r.requestID))]

/-- `getSigningResponse`: `json.Marshal` of the record, as `application/json`. -/
def getSigningResponse (respCode : GoInt) (msg : HTTPRequest) (upp : GoString)
    (backendResp : HTTPResponse) (requestID errMsg : GoString) : HTTPResponse :=
  ⟨respCode, singleHeader (ascii "Content-Type") jsonType,
    (SigningResponse.syn ⟨errMsg, msg.hash.toList, upp, backendResp, requestID⟩).render⟩

/-- `getRequestID`, on the payload of the backend's response UPP: the string of its
first 16 bytes as a UUID, or `n/a` and an error when it is shorter. -/
def getRequestID (respPayload : GoString) : GoString × Option RequestIDError :=
  if h : respPayload.length < lenRequestID then (ascii "n/a", some ⟨respPayload⟩)
  else (UUID.toGoString ⟨respPayload.take lenRequestID, by simp [lenRequestID] at h ⊢; omega⟩, none)

/-- A request ID is the canonical string (`UUID.String`) of the first 16 bytes of the
payload, and `uuid.Parse` reads it back to them. -/
theorem getRequestID_parse {respPayload : GoString} (h : lenRequestID ≤ respPayload.length) :
    (getRequestID respPayload).2 = none ∧
      ∃ u : UUID, u.toList = respPayload.take lenRequestID ∧ (getRequestID respPayload).1 = u.toGoString ∧
        parse (getRequestID respPayload).1 = .ok u := by
  rw [getRequestID, dif_neg (Nat.not_lt.2 h)]
  exact ⟨rfl, _, rfl, rfl, parse_toGoString _⟩

theorem getRequestID_parse_zeros :
    lenRequestID ≤ (List.replicate 17 0 : GoString).length ∧
    ((getRequestID (List.replicate 17 0)).2 = none ∧
      ∃ u : UUID, u.toList = (List.replicate 17 0 : GoString).take lenRequestID ∧
        (getRequestID (List.replicate 17 0)).1 = u.toGoString ∧
        parse (getRequestID (List.replicate 17 0)).1 = .ok u) :=
  ⟨by decide, getRequestID_parse (by decide)⟩

/-! ## Signing -/

section

variable {ε τ δ : Type} (s : Signer ε τ δ)

/-- `Signer.getSignedUPP`. -/
def Signer.getSignedUPP (id : UUID) (hash : Sha256Sum) (op : Operation) : Except ε GoString :=
  match s.getPrivateKey id with
  | .error e => .error e
  | .ok privKeyPEM => s.protocolSign privKeyPEM ⟨id, hintLookup op, hash.toList⟩

/-- The request ID `SendUPP` puts in its response: `""` when the backend's answer is no
UPP, else what `getRequestID` returns, `n/a` included. -/
def Signer.requestID (backendResp : HTTPResponse) : GoString :=
  match s.decodePayload backendResp.content with
  | .error _ => []
  | .ok payload => (getRequestID payload).1

/-- `Signer.SendUPP`. -/
def Signer.sendUPP (msg : HTTPRequest) (upp : GoString) : HTTPResponse :=
  match s.sendToAuthService msg.id msg.auth upp with
  | .error err =>
    if s.isTimeout err then errorResponse gatewayTimeout [] else errorResponse internalServerError []
  | .ok backendResp =>
    getSigningResponse backendResp.statusCode msg upp backendResp (s.requestID backendResp) []

/-- `Signer.Sign`. -/
def Signer.sign (msg : HTTPRequest) (op : Operation) : HTTPResponse :=
  match s.getSignedUPP msg.id msg.hash op with
  | .error _ => errorResponse internalServerError []
  | .ok uppBytes => s.sendUPP msg uppBytes

/-! ## The revision in `handlers/signer.go`

There `Sign` fetches the private key itself and hands it to `getSignedUPP`;
`SendUPP`, `getRequestID` and `getSigningResponse` are those above, word for word. -/

/-- `Signer.getSignedUPP` of `handlers/signer.go`, given the key. -/
def Revision.Signer.getSignedUPP (id : UUID) (hash : Sha256Sum) (decryptedPrivate : GoString)
    (op : Operation) : Except ε GoString :=
  s.protocolSign decryptedPrivate ⟨id, hintLookup op, hash.toList⟩

/-- `Signer.Sign` of `handlers/signer.go`. -/
def Revision.Signer.sign (msg : HTTPRequest) (op : Operation) : HTTPResponse :=
  match s.getPrivateKey msg.id with
  | .error _ => errorResponse internalServerError []
  | .ok pemPrivateKey =>
    match Revision.Signer.getSignedUPP s msg.id msg.hash pemPrivateKey op with
    | .error _ => errorResponse internalServerError []
    | .ok uppBytes => s.sendUPP msg uppBytes

/-- Moving the key fetch from `getSignedUPP` into `Sign` changes nothing: the two
revisions answer every request alike. -/
theorem Revision.Signer.sign_eq_sign (msg : HTTPRequest) (op : Operation) :
    Revision.Signer.sign s msg op = s.sign msg op := by
  unfold Revision.Signer.sign UbirchClient.Handlers.Signer.sign
    UbirchClient.Handlers.Signer.getSignedUPP
  cases s.getPrivateKey msg.id <;> rfl

end

/-! ## What a client reads back -/

/-- What `json.Unmarshal` reads from a written `http.Header`: each name, in bytewise
order, to the array of its values. -/
def headerValue (h : Header) : Value :=
  .object (buildMap ((sortByBytes h.entries).map fun kv =>
    (runesOf kv.1, .array (kv.2.map fun v => .string (runesOf v)))))

/-- The fields `json.Unmarshal` reads from a written `HTTPResponse`. -/
def HTTPResponse.fields (r : HTTPResponse) : List (GoString × Option Value) :=
  [(ascii "statusCode", some (intValue r.statusCode)),
    (ascii "header", some (headerValue r.header)),
    (ascii "content", some (.string (runesOf (base64Encode r.content))))]

/-- What `json.Unmarshal` reads from a written `HTTPResponse`. -/
def HTTPResponse.value (r : HTTPResponse) : Value := structValue r.fields

/-- The fields `json.Unmarshal` reads from a written `signingResponse`. -/
def SigningResponse.fields (r : SigningResponse) : List (GoString × Option Value) :=
  [(ascii "error", omitEmpty r.error (.string (runesOf r.error))),
    (ascii "hash", omitEmpty r.hash (.string (runesOf (base64Encode r.hash)))),
    (ascii "upp", omitEmpty r.upp (.string (runesOf (base64Encode r.upp)))),
    (ascii "response", some r.response.value),
    (ascii "requestID", omitEmpty r.requestID (.string (runesOf r.requestID)))]

/-- What `json.Unmarshal` reads from a written `signingResponse`. -/
def SigningResponse.value (r : SigningResponse) : Value := structValue r.fields

theorem headerSyn_wf (h : Header) : (headerSyn h).WF = true :=
  mapSyn_wf true (fun _ => arraySyn_wf fun _ ht => by
    obtain ⟨v, -, rfl⟩ := List.mem_map.1 ht
    exact stringSyn_wf true v) h

theorem headerSyn_depth (h : Header) : (headerSyn h).depth ≤ 2 :=
  mapSyn_depth true (fun _ => arraySyn_depth (n := 0) fun _ ht => by
    obtain ⟨v, -, rfl⟩ := List.mem_map.1 ht
    rfl) h

theorem toValue_headerSyn (h : Header) : (headerSyn h).toValue = .ok (headerValue h) :=
  toValue_mapSyn true _ _ (toValue_sliceSyn _ _ (toValue_stringSyn true)) h

theorem bytesSyn_wf (b : GoString) : (bytesSyn b).WF = true := by
  rw [bytesSyn_eq true]; exact stringSyn_wf true _

theorem HTTPResponse.syn_wf (r : HTTPResponse) : r.syn.WF = true := by
  refine structSyn_wf true ?_
  simp only [List.forall_mem_cons, List.not_mem_nil, false_imp_iff, implies_true, and_true]
  exact ⟨forall_mem_some rfl, forall_mem_some (headerSyn_wf _), forall_mem_some (bytesSyn_wf _)⟩

theorem HTTPResponse.syn_depth (r : HTTPResponse) : r.syn.depth ≤ 3 := by
  refine structSyn_depth true ?_
  simp only [List.forall_mem_cons, List.not_mem_nil, false_imp_iff, implies_true, and_true]
  exact ⟨forall_mem_some (Nat.zero_le 2), forall_mem_some (headerSyn_depth _),
    forall_mem_some (Nat.zero_le 2)⟩

theorem HTTPResponse.toValue_syn (r : HTTPResponse) : r.syn.toValue = .ok r.value :=
  toValue_structSyn true [(ascii "statusCode", some (intSyn r.statusCode, intValue r.statusCode)),
      (ascii "header", some (headerSyn r.header, headerValue r.header)),
      (ascii "content", some (bytesSyn r.content, .string (runesOf (base64Encode r.content))))] (by
    simp only [List.forall_mem_cons, List.not_mem_nil, false_imp_iff, implies_true, and_true]
    exact ⟨forall_mem_some (toValue_intSyn _), forall_mem_some (toValue_headerSyn _),
      forall_mem_some (by rw [bytesSyn_eq true]; exact toValue_stringSyn true _)⟩)

theorem SigningResponse.syn_wf (r : SigningResponse) : r.syn.WF = true := by
  refine structSyn_wf true ?_
  simp only [List.forall_mem_cons, List.not_mem_nil, false_imp_iff, implies_true, and_true]
  exact ⟨forall_mem_omitEmpty _ (stringSyn_wf true _), forall_mem_omitEmpty _ (bytesSyn_wf _),
    forall_mem_omitEmpty _ (bytesSyn_wf _), forall_mem_some r.response.syn_wf,
    forall_mem_omitEmpty _ (stringSyn_wf true _)⟩

theorem SigningResponse.syn_depth (r : SigningResponse) : r.syn.depth ≤ 4 := by
  refine structSyn_depth true ?_
  simp only [List.forall_mem_cons, List.not_mem_nil, false_imp_iff, implies_true, and_true]
  exact ⟨forall_mem_omitEmpty _ (Nat.zero_le 3), forall_mem_omitEmpty _ (Nat.zero_le 3),
    forall_mem_omitEmpty _ (Nat.zero_le 3), forall_mem_some r.response.syn_depth,
    forall_mem_omitEmpty _ (Nat.zero_le 3)⟩

theorem SigningResponse.toValue_syn (r : SigningResponse) : r.syn.toValue = .ok r.value := by
  have h := toValue_structSyn true
    [(ascii "error", omitEmpty r.error (stringSyn true r.error, Value.string (runesOf r.error))),
      (ascii "hash", omitEmpty r.hash (bytesSyn r.hash, .string (runesOf (base64Encode r.hash)))),
      (ascii "upp", omitEmpty r.upp (bytesSyn r.upp, .string (runesOf (base64Encode r.upp)))),
      (ascii "response", some (r.response.syn, r.response.value)),
      (ascii "requestID", omitEmpty r.requestID (stringSyn true r.requestID, .string (runesOf r.requestID)))]
    (by
      simp only [List.forall_mem_cons, List.not_mem_nil, false_imp_iff, implies_true, and_true]
      exact ⟨forall_mem_omitEmpty _ (toValue_stringSyn true _),
        forall_mem_omitEmpty _ (by rw [bytesSyn_eq true]; exact toValue_stringSyn true _),
        forall_mem_omitEmpty _ (by rw [bytesSyn_eq true]; exact toValue_stringSyn true _),
        forall_mem_some r.response.toValue_syn, forall_mem_omitEmpty _ (toValue_stringSyn true _)⟩)
  simp only [List.map_cons, List.map_nil, map_omitEmpty, Option.map_some'] at h
  exact h

/-- The names of the fields of a `signingResponse` and of an `HTTPResponse`, as the
decoder reads them, are distinct. -/
theorem signingResponse_keys_nodup :
    [runesOf (ascii "error"), runesOf (ascii "hash"), runesOf (ascii "upp"),
      runesOf (ascii "response"), runesOf (ascii "requestID")].Nodup ∧
    [runesOf (ascii "statusCode"), runesOf (ascii "header"), runesOf (ascii "content")].Nodup := by
  decide

theorem HTTPResponse.field_value {r : HTTPResponse} {k : GoString} {o : Option Value}
    (h : (k, o) ∈ r.fields) : r.value.field k = o := by
  refine field_structValue_of_mem ?_ h
  exact signingResponse_keys_nodup.2

theorem SigningResponse.field_value {r : SigningResponse} {k : GoString} {o : Option Value}
    (h : (k, o) ∈ r.fields) : r.value.field k = o := by
  refine field_structValue_of_mem ?_ h
  exact signingResponse_keys_nodup.1

theorem hash_toList_ne_nil (hash : Sha256Sum) : hash.toList ≠ [] := fun h => by
  have := hash.length_eq
  simp [h, hashLen] at this

/-- The body of a signing response is JSON that `json.Unmarshal` accepts: the request's
hash and the UPP read back from their base64 strings, the request ID and the error as
written (each absent when empty), and the backend's status code and content from the
`response` object. -/
theorem getSigningResponse_readBack (respCode : GoInt) (msg : HTTPRequest) (upp : GoString)
    (backendResp : HTTPResponse) (requestID errMsg : GoString) :
    ∃ v, unmarshal (getSigningResponse respCode msg upp backendResp requestID errMsg).content = .ok v ∧
      (v.field (ascii "hash")).bind Value.bytes? = some msg.hash.toList ∧
      (v.field (ascii "upp")).bind Value.bytes? = omitEmpty upp upp ∧
      v.field (ascii "requestID") = omitEmpty requestID (.string (runesOf requestID)) ∧
      v.field (ascii "error") = omitEmpty errMsg (.string (runesOf errMsg)) ∧
      ((v.field (ascii "response")).bind fun w => w.field (ascii "content")).bind Value.bytes? =
        some backendResp.content ∧
      (v.field (ascii "response")).bind (fun w => w.field (ascii "statusCode")) =
        some (intValue backendResp.statusCode) := by
  let r : SigningResponse := ⟨errMsg, msg.hash.toList, upp, backendResp, requestID⟩
  have hhash : r.value.field (ascii "hash") = omitEmpty r.hash (.string (runesOf (base64Encode r.hash))) :=
    SigningResponse.field_value (by simp [SigningResponse.fields])
  have hupp : r.value.field (ascii "upp") = omitEmpty upp (.string (runesOf (base64Encode upp))) :=
    SigningResponse.field_value (by simp [SigningResponse.fields])
  have hresp : r.value.field (ascii "response") = some backendResp.value :=
    SigningResponse.field_value (by simp [SigningResponse.fields])
  refine ⟨r.value, unmarshal_render r.syn_wf (le_trans r.syn_depth (by decide)) r.toValue_syn,
    ?_, ?_, SigningResponse.field_value (by simp [SigningResponse.fields]),
    SigningResponse.field_value (by simp [SigningResponse.fields]), ?_, ?_⟩
  · rw [hhash, omitEmpty_of_ne_nil _ (hash_toList_ne_nil msg.hash), Option.some_bind]
    exact bytes?_base64 _
  · rw [hupp]
    unfold omitEmpty
    split
    · rfl
    · exact bytes?_base64 _
  · have hc : backendResp.value.field (ascii "content") =
        some (.string (runesOf (base64Encode backendResp.content))) :=
      HTTPResponse.field_value (by simp [HTTPResponse.fields])
    rw [hresp, Option.some_bind, hc, Option.some_bind]
    exact bytes?_base64 _
  · rw [hresp, Option.some_bind]
    exact HTTPResponse.field_value (by simp [HTTPResponse.fields])

/-! ## The signing service, whole -/

theorem errorResponse_contentType (code : GoInt) (message : GoString) :
    (errorResponse code message).header.get (ascii "Content-Type") = ascii "text/plain; charset=utf-8" :=
  rfl

theorem getSigningResponse_contentType (respCode : GoInt) (msg : HTTPRequest) (upp : GoString)
    (backendResp : HTTPResponse) (requestID errMsg : GoString) :
    (getSigningResponse respCode msg upp backendResp requestID errMsg).header.get (ascii "Content-Type") =
      jsonType :=
  rfl

section

variable {ε κ τ δ : Type} (lowerRunes : GoString → GoString) (sha256 : GoString → Sha256Sum)
  (ctxGetAuthToken : UUID → Except ε GoString) (s : Signer κ τ δ)

/-- `SigningService.HandleRequest`: past the gates, what `Sign` answers. -/
def SigningService.respond (r : Request) : Handled ε HTTPResponse :=
  match SigningService.handleRequest lowerRunes sha256 ctxGetAuthToken r with
  | .error status e => .error status e
  | .call (msg, op) => .call (s.sign msg op)

theorem SigningService.respond_eq_call {r : Request} {resp : HTTPResponse}
    (h : SigningService.respond lowerRunes sha256 ctxGetAuthToken s r = .call resp) :
    ∃ msg op, SigningService.handleRequest lowerRunes sha256 ctxGetAuthToken r = .call (msg, op) ∧
      resp = s.sign msg op := by
  unfold SigningService.respond at h
  split at h
  · cases h
  · rename_i msg op hc
    cases h
    exact ⟨msg, op, hc, rfl⟩

/-- What `Sign` can answer: a plain-text 500 or 504, or the signing response for a UPP
built from the request, signed with its UUID's key and accepted by the backend. -/
theorem Signer.sign_cases (msg : HTTPRequest) (op : Operation) :
    (∃ code, (code = internalServerError ∨ code = gatewayTimeout) ∧
      s.sign msg op = errorResponse code []) ∨
    ∃ key upp backendResp, s.getPrivateKey msg.id = .ok key ∧
      s.protocolSign key ⟨msg.id, hintLookup op, msg.hash.toList⟩ = .ok upp ∧
      s.sendToAuthService msg.id msg.auth upp = .ok backendResp ∧
      s.sign msg op =
        getSigningResponse backendResp.statusCode msg upp backendResp (s.requestID backendResp) [] := by
  unfold Signer.sign Signer.getSignedUPP Signer.sendUPP
  cases hk : s.getPrivateKey msg.id with
  | error => exact .inl ⟨_, .inl rfl, rfl⟩
  | ok key =>
    dsimp only
    cases hu : s.protocolSign key ⟨msg.id, hintLookup op, msg.hash.toList⟩ with
    | error => exact .inl ⟨_, .inl rfl, rfl⟩
    | ok upp =>
      dsimp only
      cases hb : s.sendToAuthService msg.id msg.auth upp with
      | error err =>
        dsimp only
        split
        · exact .inl ⟨_, .inr rfl, rfl⟩
        · exact .inl ⟨_, .inl rfl, rfl⟩
      | ok backendResp => exact .inr ⟨key, upp, backendResp, rfl, hu, hb, rfl⟩

/-- What the signing service answers a request it let through: either a plain-text
error response, 500 or 504, when signing or sending failed; or a JSON answer, and
then the UPP was built from the request's UUID, its operation's hint and its hash,
signed with that UUID's key, and sent to the backend with the request's token, and
the answer carries the backend's status and a body that reads back the request's hash
and the UPP. -/
theorem signingService_respond_json {r : Request} {resp : HTTPResponse}
    (h : SigningService.respond lowerRunes sha256 ctxGetAuthToken s r = .call resp) :
    (resp.header.get (ascii "Content-Type") = ascii "text/plain; charset=utf-8" ∧
      ∃ code, (code = internalServerError ∨ code = gatewayTimeout) ∧ resp = errorResponse code []) ∨
    (resp.header.get (ascii "Content-Type") = jsonType ∧
      ∃ (msg : HTTPRequest) (op : Operation) (key upp : GoString) (backendResp : HTTPResponse),
        SigningService.handleRequest lowerRunes sha256 ctxGetAuthToken r = .call (msg, op) ∧
        s.getPrivateKey msg.id = .ok key ∧
        s.protocolSign key ⟨msg.id, hintLookup op, msg.hash.toList⟩ = .ok upp ∧
        s.sendToAuthService msg.id msg.auth upp = .ok backendResp ∧
        resp.statusCode = backendResp.statusCode ∧
        ∃ v, unmarshal resp.content = .ok v ∧
          (v.field (ascii "hash")).bind Value.bytes? = some msg.hash.toList ∧
          (v.field (ascii "upp")).bind Value.bytes? = omitEmpty upp upp) := by
  obtain ⟨msg, op, hc, rfl⟩ := SigningService.respond_eq_call lowerRunes sha256 ctxGetAuthToken s h
  rcases s.sign_cases msg op with ⟨code, hcode, he⟩ | ⟨key, upp, backendResp, hk, hs, hb, he⟩
  · rw [he]
    exact .inl ⟨errorResponse_contentType code [], code, hcode, rfl⟩
  · obtain ⟨v, hv, hvh, hvu, -⟩ := getSigningResponse_readBack backendResp.statusCode msg upp
      backendResp (s.requestID backendResp) []
    rw [he]
    exact .inr ⟨getSigningResponse_contentType .., msg, op, key, upp, backendResp, hc, hk, hs, hb, rfl,
      v, hv, hvh, hvu⟩

/-- An anchoring request carrying the stored token, to a backend that answers 200:
the answer is the JSON one. -/
theorem signingService_respond_json_anchor :
    (getSigningResponse ⟨200, by decide⟩
        ⟨⟨List.replicate 15 0 ++ [1], by decide⟩, ascii "t", ⟨List.replicate 32 0, List.length_replicate _ _⟩⟩
        [1] ⟨⟨200, by decide⟩, GoMap.empty, []⟩ [] []).header.get (ascii "Content-Type") = jsonType ∧
    ∃ (msg : HTTPRequest) (op : Operation) (key upp : GoString) (backendResp : HTTPResponse),
      SigningService.handleRequest id (fun _ => ⟨List.replicate 32 0, List.length_replicate _ _⟩) (fun _ => (.ok (ascii "t") : Except Unit GoString))
        (⟨[], ⟨[(uuidKey, ascii "00000000-0000-0000-0000-000000000001"), (operationKey, ascii "anchor")],
          by decide⟩, ⟨[(ascii "Content-Type", [binType]), (ascii "X-Auth-Token", [ascii "t"])], by decide⟩,
          some []⟩ : Request) = .call (msg, op) ∧
      Signer.getPrivateKey (⟨fun _ => .ok [], fun _ _ => .ok [1], fun _ _ _ => .ok ⟨⟨200, by decide⟩, GoMap.empty, []⟩,
          fun _ => false, fun _ => .error ()⟩ : Signer Unit Unit Unit) msg.id = .ok key ∧
      Signer.protocolSign (⟨fun _ => .ok [], fun _ _ => .ok [1], fun _ _ _ => .ok ⟨⟨200, by decide⟩, GoMap.empty, []⟩,
          fun _ => false, fun _ => .error ()⟩ : Signer Unit Unit Unit) key ⟨msg.id, hintLookup op, msg.hash.toList⟩ = .ok upp ∧
      Signer.sendToAuthService (⟨fun _ => .ok [], fun _ _ => .ok [1], fun _ _ _ => .ok ⟨⟨200, by decide⟩, GoMap.empty, []⟩,
          fun _ => false, fun _ => .error ()⟩ : Signer Unit Unit Unit) msg.id msg.auth upp = .ok backendResp ∧
      (getSigningResponse ⟨200, by decide⟩
          ⟨⟨List.replicate 15 0 ++ [1], by decide⟩, ascii "t", ⟨List.replicate 32 0, List.length_replicate _ _⟩⟩
          [1] ⟨⟨200, by decide⟩, GoMap.empty, []⟩ [] []).statusCode = backendResp.statusCode ∧
      ∃ v, unmarshal (getSigningResponse ⟨200, by decide⟩
          ⟨⟨List.replicate 15 0 ++ [1], by decide⟩, ascii "t", ⟨List.replicate 32 0, List.length_replicate _ _⟩⟩
          [1] ⟨⟨200, by decide⟩, GoMap.empty, []⟩ [] []).content = .ok v ∧
        (v.field (ascii "hash")).bind Value.bytes? = some msg.hash.toList ∧
        (v.field (ascii "upp")).bind Value.bytes? = omitEmpty upp upp :=
  (@signingService_respond_json _ _ _ _ id (fun _ => ⟨List.replicate 32 0, List.length_replicate _ _⟩)
    (fun _ => (.ok (ascii "t") : Except Unit GoString))
    (⟨fun _ => .ok [], fun _ _ => .ok [1], fun _ _ _ => .ok ⟨⟨200, by decide⟩, GoMap.empty, []⟩,
          fun _ => false, fun _ => .error ()⟩ : Signer Unit Unit Unit)
    ⟨[], ⟨[(uuidKey, ascii "00000000-0000-0000-0000-000000000001"), (operationKey, ascii "anchor")],
      by decide⟩, ⟨[(ascii "Content-Type", [binType]), (ascii "X-Auth-Token", [ascii "t"])], by decide⟩,
      some []⟩
    (getSigningResponse ⟨200, by decide⟩
      ⟨⟨List.replicate 15 0 ++ [1], by decide⟩, ascii "t", ⟨List.replicate 32 0, List.length_replicate _ _⟩⟩
      [1] ⟨⟨200, by decide⟩, GoMap.empty, []⟩ [] []) rfl).resolve_left
    fun ⟨hct, _⟩ => absurd hct (by decide)

/-- What a client of the hash route relies on: an answer with status 200 to a request
whose binary body is a 32-byte hash is JSON, and its `hash` field reads back that body. -/
theorem signingService_respond_ok_hash {r : Request} {resp : HTTPResponse} {x : Sha256Sum}
    (h : SigningService.respond lowerRunes sha256 ctxGetAuthToken s r = .call resp)
    (h200 : resp.statusCode.1 = 200) (hh : isHashRequest r = true)
    (hb : contentType lowerRunes r.header = binType) (e : r.body = some x.toList) :
    resp.header.get (ascii "Content-Type") = jsonType ∧
      ∃ v, unmarshal resp.content = .ok v ∧ (v.field (ascii "hash")).bind Value.bytes? = some x.toList := by
  obtain ⟨msg, op, hc, rfl⟩ := SigningService.respond_eq_call lowerRunes sha256 ctxGetAuthToken s h
  have hx : msg.hash = x := by
    obtain ⟨-, -, -, -, -, hg⟩ := (signingService_call_iff lowerRunes sha256 ctxGetAuthToken).1 hc
    rw [getHash_of_hash lowerRunes sha256 hh hb e] at hg
    exact (Except.ok.inj hg).symm
  rcases s.sign_cases msg op with ⟨code, hcode, he⟩ | ⟨key, upp, backendResp, -, -, -, he⟩
  · rw [he] at h200
    rcases hcode with rfl | rfl <;> exact absurd h200 (by decide)
  · obtain ⟨v, hv, hvh, -⟩ := getSigningResponse_readBack backendResp.statusCode msg upp
      backendResp (s.requestID backendResp) []
    rw [he, getSigningResponse_contentType, ← hx]
    exact ⟨rfl, v, hv, hvh⟩

/-- The load test's request: 32 bytes posted to the hash route. -/
theorem signingService_respond_ok_hash_loadTest :
    ((getSigningResponse ⟨200, by decide⟩
          ⟨⟨List.replicate 15 0 ++ [1], by decide⟩, ascii "t", ⟨List.replicate 32 7, List.length_replicate _ _⟩⟩
          [1] ⟨⟨200, by decide⟩, GoMap.empty, []⟩ [] [])).header.get (ascii "Content-Type") = jsonType ∧
      ∃ v, unmarshal ((getSigningResponse ⟨200, by decide⟩
          ⟨⟨List.replicate 15 0 ++ [1], by decide⟩, ascii "t", ⟨List.replicate 32 7, List.length_replicate _ _⟩⟩
          [1] ⟨⟨200, by decide⟩, GoMap.empty, []⟩ [] [])).content = .ok v ∧
        (v.field (ascii "hash")).bind Value.bytes? = some (List.replicate 32 7) :=
  @signingService_respond_ok_hash _ _ _ _ id (fun _ => ⟨List.replicate 32 0, List.length_replicate _ _⟩) (fun _ => (.ok (ascii "t") : Except Unit GoString))
    (⟨fun _ => .ok [], fun _ _ => .ok [1], fun _ _ _ => .ok ⟨⟨200, by decide⟩, GoMap.empty, []⟩,
          fun _ => false, fun _ => .error ()⟩ : Signer Unit Unit Unit) (⟨ascii "/00000000-0000-0000-0000-000000000001/hash",
          ⟨[(uuidKey, ascii "00000000-0000-0000-0000-000000000001"), (operationKey, ascii "anchor")],
          by decide⟩, ⟨[(ascii "Content-Type", [binType]), (ascii "X-Auth-Token", [ascii "t"])], by decide⟩,
          some (List.replicate 32 7)⟩ : Request)
    _ ⟨List.replicate 32 7, List.length_replicate _ _⟩ rfl rfl rfl rfl rfl

end

end UbirchClient.Handlers
