import UbirchClient.Handlers.Httphelper
set_option autoImplicit false

/-!
# The handler services: from a request to a signing call

WHAT THIS FILE IS FOR.  `ChainingService.HandleRequest` and
`SigningService.HandleRequest` (`handlers/services.go`) turn a request into the
`HTTPRequest{ID, Auth, Hash}` they hand on, to `ContextManager.SendChainedUpp` and to
`Signer.Sign`.  On the way they pass the same gates, and each gate answers a failing
request with its own status: `GetUUID` (404), `ExtendedProtocol.GetAuthToken` (500),
`CheckAuth` (401), for signing `getOperation` (404), and `GetHash` (400).  A
handler's result here is the status it answers with, or the call it makes; what
`Signer.Sign` does with the call, and the response it builds, is in `Handlers/Signer`.
`h.Error` only logs the UUID, so an error is its status and its error value.

THE TOKEN STORE.  `ContextManager.GetAuthToken` is a parameter: any function from
UUIDs to a token or to an error of any type.  `ExtendedProtocol.GetAuthToken`
(`handlers/protocol.go`) wraps it and turns an empty token into the error
`%s: empty auth token`.

THE PROPERTY PROVED HERE.  `chainingService_call_iff` and `signingService_call_iff`
say exactly which requests get past the gates and what is handed on.  From them,
`handleRequest_authorized`: either service calls on only for a request whose
`X-Auth-Token` is non-empty and equal to the stored token of the UUID in its path,
so a request without the header is never let through.
-/

namespace UbirchClient.Handlers

open UbirchClient.Go UbirchClient.Httphelper

/-- `vars.OperationKey`. -/
def operationKey : GoString := ascii "operation"

/-- `h.HTTPRequest`: what a service hands on past its gates. -/
structure HTTPRequest where
  id : UUID
  auth : GoString
  hash : Sha256Sum
  deriving DecidableEq

/-- `operation`, as far as `getOperation` lets it through. -/
inductive Operation where
  | anchorHash
  | disableHash
  | enableHash
  | deleteHash
  deriving DecidableEq, Repr

/-- The spelling of each operation in the URL. -/
def Operation.toGoString : Operation → GoString
  | .anchorHash => ascii "anchor"
  | .disableHash => ascii "disable"
  | .enableHash => ascii "enable"
  | .deleteHash => ascii "delete"

/-- `getOperation`; the error is
`invalid operation: expected ("anchor" | "disable" | "enable" | "delete"), got "%s"`
with the parameter it got. -/
def getOperation (r : Request) : Except GoString Operation :=
  let opParam := r.urlParam operationKey
  if opParam = Operation.anchorHash.toGoString then .ok .anchorHash
  else if opParam = Operation.disableHash.toGoString then .ok .disableHash
  else if opParam = Operation.enableHash.toGoString then .ok .enableHash
  else if opParam = Operation.deleteHash.toGoString then .ok .deleteHash
  else .error opParam

/-- The errors of `ExtendedProtocol.GetAuthToken`. -/
inductive AuthTokenError (ε : Type) where
  /-- the context manager's error, returned as it is -/
  | ctx (e : ε)
  /-- `%s: empty auth token` -/
  | empty (uid : UUID)

/-- The error a service answers a request with. -/
inductive ServiceError (ε : Type) where
  | uuid (e : UuidParamError)
  | authToken (e : AuthTokenError ε)
  /-- `invalid auth token` -/
  | auth
  | operation (opParam : GoString)
  | hash (e : HashError)

/-- What `HandleRequest` does with a request: `h.Error` with a status, or the call
past its gates. -/
inductive Handled (ε α : Type) where
  | error (status : Nat) (e : ServiceError ε)
  | call (a : α)

section

variable {ε : Type} (lowerRunes : GoString → GoString) (sha256 : GoString → Sha256Sum)
  (ctxGetAuthToken : UUID → Except ε GoString)

/-- `ExtendedProtocol.GetAuthToken`. -/
def ExtendedProtocol.getAuthToken (uid : UUID) : Except (AuthTokenError ε) GoString :=
  match ctxGetAuthToken uid with
  | .error e => .error (.ctx e)
  | .ok authToken => if authToken.length = 0 then .error (.empty uid) else .ok authToken

/-- `ChainingService.HandleRequest`, up to the call of `SendChainedUpp`. -/
def ChainingService.handleRequest (r : Request) : Handled ε HTTPRequest :=
  match getUUID r with
  | .error e => .error statusNotFound (.uuid e)
  | .ok id =>
    match ExtendedProtocol.getAuthToken ctxGetAuthToken id with
    | .error e => .error statusInternalServerError (.authToken e)
    | .ok idAuth =>
      match checkAuth r idAuth with
      | none => .error statusUnauthorized .auth
      | some auth =>
        match getHash lowerRunes sha256 r with
        | .error e => .error statusBadRequest (.hash e)
        | .ok hash => .call ⟨id, auth, hash⟩

/-- `SigningService.HandleRequest`, up to the call of `Sign`. -/
def SigningService.handleRequest (r : Request) : Handled ε (HTTPRequest × Operation) :=
  match getUUID r with
  | .error e => .error statusNotFound (.uuid e)
  | .ok id =>
    match ExtendedProtocol.getAuthToken ctxGetAuthToken id with
    | .error e => .error statusInternalServerError (.authToken e)
    | .ok idAuth =>
      match checkAuth r idAuth with
      | none => .error statusUnauthorized .auth
      | some auth =>
        match getOperation r with
        | .error opParam => .error statusNotFound (.operation opParam)
        | .ok op =>
          match getHash lowerRunes sha256 r with
          | .error e => .error statusBadRequest (.hash e)
          | .ok hash => .call (⟨id, auth, hash⟩, op)

/-- `VerificationService.HandleRequest`, up to the call of `Verify`. -/
def VerificationService.handleRequest (r : Request) : Handled ε Sha256Sum :=
  match getHash lowerRunes sha256 r with
  | .error e => .error statusBadRequest (.hash e)
  | .ok hash => .call hash

/-! ## The gates -/

theorem getAuthToken_ok_iff {uid : UUID} {t : GoString} :
    ExtendedProtocol.getAuthToken ctxGetAuthToken uid = .ok t ↔
      ctxGetAuthToken uid = .ok t ∧ t ≠ [] := by
  unfold ExtendedProtocol.getAuthToken
  split <;> rename_i h
  · simp [h]
  · split <;> simp_all [List.length_eq_zero, eq_comm]

theorem checkAuth_eq_some_iff {r : Request} {actualAuth t : GoString} :
    checkAuth r actualAuth = some t ↔ authToken r.header = actualAuth ∧ t = actualAuth := by
  unfold checkAuth
  by_cases h : actualAuth = authToken r.header
  · subst h; simp [eq_comm]
  · simp [h, Ne.symm h]

/-- A request passes the chaining service's gates exactly when its UUID parses, the
store holds a non-empty token for it that the request carries, and its hash reads;
the call then carries that UUID, token and hash. -/
theorem chainingService_call_iff {r : Request} {msg : HTTPRequest} :
    ChainingService.handleRequest lowerRunes sha256 ctxGetAuthToken r = .call msg ↔
      getUUID r = .ok msg.id ∧ ctxGetAuthToken msg.id = .ok msg.auth ∧ msg.auth ≠ [] ∧
        authToken r.header = msg.auth ∧ getHash lowerRunes sha256 r = .ok msg.hash := by
  obtain ⟨id, auth, hash⟩ := msg
  constructor
  · intro h
    unfold ChainingService.handleRequest at h
    split at h; · cases h
    rename_i hu
    split at h; · cases h
    rename_i ht
    split at h; · cases h
    rename_i hca
    split at h; · cases h
    rename_i hh
    cases h
    obtain ⟨hc, hne⟩ := (getAuthToken_ok_iff ctxGetAuthToken).1 ht
    obtain ⟨htok, rfl⟩ := checkAuth_eq_some_iff.1 hca
    exact ⟨hu, hc, hne, htok, hh⟩
  · rintro ⟨hu, hc, hne, htok, hh⟩
    have ht := (getAuthToken_ok_iff ctxGetAuthToken).2 ⟨hc, hne⟩
    have hca : checkAuth r auth = some auth := checkAuth_eq_some_iff.2 ⟨htok, rfl⟩
    simp only [ChainingService.handleRequest, hu, ht, hca, hh]

/-- The same for the signing service, with the operation in the path. -/
theorem signingService_call_iff {r : Request} {msg : HTTPRequest} {op : Operation} :
    SigningService.handleRequest lowerRunes sha256 ctxGetAuthToken r = .call (msg, op) ↔
      getUUID r = .ok msg.id ∧ ctxGetAuthToken msg.id = .ok msg.auth ∧ msg.auth ≠ [] ∧
        authToken r.header = msg.auth ∧ getOperation r = .ok op ∧
        getHash lowerRunes sha256 r = .ok msg.hash := by
  obtain ⟨id, auth, hash⟩ := msg
  constructor
  · intro h
    unfold SigningService.handleRequest at h
    split at h; · cases h
    rename_i hu
    split at h; · cases h
    rename_i ht
    split at h; · cases h
    rename_i hca
    split at h; · cases h
    rename_i ho
    split at h; · cases h
    rename_i hh
    cases h
    obtain ⟨hc, hne⟩ := (getAuthToken_ok_iff ctxGetAuthToken).1 ht
    obtain ⟨htok, rfl⟩ := checkAuth_eq_some_iff.1 hca
    exact ⟨hu, hc, hne, htok, ho, hh⟩
  · rintro ⟨hu, hc, hne, htok, ho, hh⟩
    have ht := (getAuthToken_ok_iff ctxGetAuthToken).2 ⟨hc, hne⟩
    have hca : checkAuth r auth = some auth := checkAuth_eq_some_iff.2 ⟨htok, rfl⟩
    simp only [SigningService.handleRequest, hu, ht, hca, ho, hh]

/-! ## Authorization -/

/-- The authorization the services are meant to enforce: the store holds a non-empty
token for `id`, and the request's `X-Auth-Token` is that token. -/
def Authorized (r : Request) (id : UUID) : Prop :=
  ∃ tok, ctxGetAuthToken id = .ok tok ∧ tok ≠ [] ∧ authToken r.header = tok

/-- Neither service calls on for a request that is not authorized for the UUID in
its path. -/
theorem handleRequest_authorized (r : Request) :
    (∀ msg, ChainingService.handleRequest lowerRunes sha256 ctxGetAuthToken r = .call msg →
      getUUID r = .ok msg.id ∧ Authorized ctxGetAuthToken r msg.id) ∧
    (∀ msg op, SigningService.handleRequest lowerRunes sha256 ctxGetAuthToken r = .call (msg, op) →
      getUUID r = .ok msg.id ∧ Authorized ctxGetAuthToken r msg.id) := by
  refine ⟨fun msg h => ?_, fun msg op h => ?_⟩
  · obtain ⟨hu, hc, hne, ht, -⟩ := (chainingService_call_iff lowerRunes sha256 ctxGetAuthToken).1 h
    exact ⟨hu, msg.auth, hc, hne, ht⟩
  · obtain ⟨hu, hc, hne, ht, -⟩ := (signingService_call_iff lowerRunes sha256 ctxGetAuthToken).1 h
    exact ⟨hu, msg.auth, hc, hne, ht⟩

end

end UbirchClient.Handlers
