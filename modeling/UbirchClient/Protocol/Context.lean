import UbirchClient.Go.Uuid
set_option autoImplicit false

/-!
# The context managers behind `ExtendedProtocol`

WHAT THIS FILE IS FOR.  `ExtendedProtocol` puts checks between the protocol and the
store that keeps each device's keys, last signature and auth token, its
`ContextManager`.  In the older revision (`main/protocol.go`) the checks sit on the
accessors: `SetSignature` and `GetSignature` refuse a signature that is not
`SignatureLength` bytes long, `SetAuthToken` and `GetAuthToken` refuse an empty
token, and the key accessors pass through.  In the newer one (`handlers/protocol.go`)
`StoreIdentity` refuses an identity with an empty token, a signature of the wrong
length or an empty key before the context manager sees it.

WHAT IS A PARAMETER.  The context managers (a file, a database) are not in the
sources.  A `ContextManager` is a record of the accessors over a store of any type, any
functions of their types; `SignatureLength` of the crypto context is a parameter too.
The run theorem assumes only what a store is for (`ContextManager.Keeps`): after a
write, a field reads as the value written or as it read before.  `refStore`, a map
from UUIDs to the two fields, is such a store.

THE PROPERTIES PROVED HERE.  `runWrites_reads`: start from a store whose signatures
have `SignatureLength` bytes and whose tokens are non-empty, and write to it through
the protocol in any order, failed writes included.  Then every signature and token the
store returns still passes the checks, so `GetSignature` and `GetAuthToken` return
what the store returns and never refuse it.  `runStoreIdentity_checked`: the same for
the newer `StoreIdentity`: a store that keeps what it is given, written to through it
in any order, returns only identities that passed its checks, each one given to a call
or there before.
-/

namespace UbirchClient.Protocol

open UbirchClient.Go

/-! ## The older `ExtendedProtocol` -/

/-- The errors of the accessors of `ExtendedProtocol`. -/
inductive ProtocolError (ε : Type) where
  /-- the context manager's error, returned as it is -/
  | ctx (e : ε)
  /-- `invalid signature length: expected %d, got %d` -/
  | signatureLength (expected got : Nat)
  /-- `empty auth token` -/
  | emptyAuthToken
  deriving DecidableEq, Repr

/-- The signature and auth-token accessors of a `ContextManager` over a store `σ`. -/
structure ContextManager (σ ε : Type) where
  getSignature : σ → UUID → Except ε GoString
  setSignature : σ → UUID → GoString → Except ε σ
  getAuthToken : σ → UUID → Except ε GoString
  setAuthToken : σ → UUID → GoString → Except ε σ

section

variable {σ ε : Type} (cm : ContextManager σ ε) (signatureLength : Nat)

/-- `ExtendedProtocol.checkSignatureLen`. -/
def checkSignatureLen (signature : GoString) : Except (ProtocolError ε) Unit :=
  if signature.length ≠ signatureLength then
    .error (.signatureLength signatureLength signature.length)
  else .ok ()

/-- `ExtendedProtocol.GetSignature`. -/
def ExtendedProtocol.getSignature (st : σ) (uid : UUID) : Except (ProtocolError ε) GoString :=
  match cm.getSignature st uid with
  | .error e => .error (.ctx e)
  | .ok signature =>
    match checkSignatureLen signatureLength signature with
    | .error e => .error e
    | .ok () => .ok signature

/-- `ExtendedProtocol.SetSignature`. -/
def ExtendedProtocol.setSignature (st : σ) (uid : UUID) (signature : GoString) :
    Except (ProtocolError ε) σ :=
  match checkSignatureLen signatureLength signature with
  | .error e => .error e
  | .ok () => (cm.setSignature st uid signature).mapError .ctx

/-- `ExtendedProtocol.GetAuthToken`. -/
def ExtendedProtocol.getAuthToken (st : σ) (uid : UUID) : Except (ProtocolError ε) GoString :=
  match cm.getAuthToken st uid with
  | .error e => .error (.ctx e)
  | .ok authToken => if authToken.length = 0 then .error .emptyAuthToken else .ok authToken

/-- `ExtendedProtocol.SetAuthToken`. -/
def ExtendedProtocol.setAuthToken (st : σ) (uid : UUID) (authToken : GoString) :
    Except (ProtocolError ε) σ :=
  if authToken.length = 0 then .error .emptyAuthToken
  else (cm.setAuthToken st uid authToken).mapError .ctx

/-- A write through `ExtendedProtocol`. -/
inductive Write where
  | setSignature (uid : UUID) (signature : GoString)
  | setAuthToken (uid : UUID) (authToken : GoString)

/-- One write: the store it leaves, or the error. -/
def Write.apply (st : σ) : Write → Except (ProtocolError ε) σ
  | .setSignature uid signature => ExtendedProtocol.setSignature cm signatureLength st uid signature
  | .setAuthToken uid authToken => ExtendedProtocol.setAuthToken cm st uid authToken

/-- The store after writes through the protocol; a write that fails leaves it as it was. -/
def runWrites : σ → List Write → σ
  | st, [] => st
  | st, w :: ws =>
    match w.apply cm signatureLength st with
    | .ok st' => runWrites st' ws
    | .error _ => runWrites st ws

/-- What the checks are for: every signature the store returns has `SignatureLength`
bytes, and every token it returns is non-empty. -/
structure Valid (st : σ) : Prop where
  signature : ∀ {uid signature}, cm.getSignature st uid = .ok signature →
    signature.length = signatureLength
  authToken : ∀ {uid authToken}, cm.getAuthToken st uid = .ok authToken → authToken ≠ []

/-- A context manager that keeps what it is given: after a write, the field written
reads as the value written or as it read before, and the other field as it read before. -/
structure ContextManager.Keeps : Prop where
  signature_setSignature : ∀ {st st' uid signature u s}, cm.setSignature st uid signature = .ok st' →
    cm.getSignature st' u = .ok s → s = signature ∨ cm.getSignature st u = .ok s
  authToken_setSignature : ∀ {st st' uid signature u t}, cm.setSignature st uid signature = .ok st' →
    cm.getAuthToken st' u = .ok t → cm.getAuthToken st u = .ok t
  signature_setAuthToken : ∀ {st st' uid authToken u s}, cm.setAuthToken st uid authToken = .ok st' →
    cm.getSignature st' u = .ok s → cm.getSignature st u = .ok s
  authToken_setAuthToken : ∀ {st st' uid authToken u t}, cm.setAuthToken st uid authToken = .ok st' →
    cm.getAuthToken st' u = .ok t → t = authToken ∨ cm.getAuthToken st u = .ok t

/-! ## Each write keeps the store valid -/

theorem setSignature_ok {st st' : σ} {uid : UUID} {signature : GoString}
    (h : ExtendedProtocol.setSignature cm signatureLength st uid signature = .ok st') :
    signature.length = signatureLength ∧ cm.setSignature st uid signature = .ok st' := by
  unfold ExtendedProtocol.setSignature checkSignatureLen at h
  split_ifs at h with hl
  exact ⟨not_not.1 hl, by simpa using h⟩

theorem setAuthToken_ok {st st' : σ} {uid : UUID} {authToken : GoString}
    (h : ExtendedProtocol.setAuthToken cm st uid authToken = .ok st') :
    authToken ≠ [] ∧ cm.setAuthToken st uid authToken = .ok st' := by
  unfold ExtendedProtocol.setAuthToken at h
  split_ifs at h with hl
  exact ⟨fun e => hl (by simp [e]), by simpa using h⟩

variable {cm signatureLength}

theorem Valid.apply (hk : cm.Keeps) {st st' : σ} (hv : Valid cm signatureLength st) {w : Write}
    (h : w.apply cm signatureLength st = .ok st') : Valid cm signatureLength st' := by
  cases w with
  | setSignature uid signature =>
    obtain ⟨hl, hs⟩ := setSignature_ok cm signatureLength h
    refine ⟨fun hg => ?_, fun hg => hv.authToken (hk.authToken_setSignature hs hg)⟩
    rcases hk.signature_setSignature hs hg with rfl | hg
    · exact hl
    · exact hv.signature hg
  | setAuthToken uid authToken =>
    obtain ⟨hl, hs⟩ := setAuthToken_ok cm h
    refine ⟨fun hg => hv.signature (hk.signature_setAuthToken hs hg), fun hg => ?_⟩
    rcases hk.authToken_setAuthToken hs hg with rfl | hg
    · exact hl
    · exact hv.authToken hg

theorem Valid.runWrites (hk : cm.Keeps) :
    ∀ {st : σ} (ws : List Write), Valid cm signatureLength st →
      Valid cm signatureLength (runWrites cm signatureLength st ws)
  | _, [], hv => hv
  | st, w :: ws, hv => by
    unfold UbirchClient.Protocol.runWrites
    split
    · exact Valid.runWrites hk ws (hv.apply hk ‹_›)
    · exact Valid.runWrites hk ws hv

/-- On a valid store the checks of the readers never fire. -/
theorem Valid.getSignature {st : σ} (hv : Valid cm signatureLength st) {uid : UUID}
    {signature : GoString} (h : cm.getSignature st uid = .ok signature) :
    ExtendedProtocol.getSignature cm signatureLength st uid = .ok signature := by
  simp [ExtendedProtocol.getSignature, h, checkSignatureLen, hv.signature h]

theorem Valid.getAuthToken {st : σ} (hv : Valid cm signatureLength st) {uid : UUID}
    {authToken : GoString} (h : cm.getAuthToken st uid = .ok authToken) :
    ExtendedProtocol.getAuthToken cm st uid = .ok authToken := by
  simp [ExtendedProtocol.getAuthToken, h, hv.authToken h]

/-- Written to only through `ExtendedProtocol`, in any order and with any writes
refused, a store that keeps what it is given stays valid: every signature it returns
has `SignatureLength` bytes and `GetSignature` returns it, and every token it returns
is non-empty and `GetAuthToken` returns it. -/
theorem runWrites_reads (hk : cm.Keeps) {st : σ} (hv : Valid cm signatureLength st)
    (ws : List Write) (uid : UUID) :
    (∀ signature, cm.getSignature (runWrites cm signatureLength st ws) uid = .ok signature →
      signature.length = signatureLength ∧
        ExtendedProtocol.getSignature cm signatureLength (runWrites cm signatureLength st ws) uid =
          .ok signature) ∧
    (∀ authToken, cm.getAuthToken (runWrites cm signatureLength st ws) uid = .ok authToken →
      authToken ≠ [] ∧
        ExtendedProtocol.getAuthToken cm (runWrites cm signatureLength st ws) uid = .ok authToken) := by
  have hr := hv.runWrites hk ws
  exact ⟨fun _ h => ⟨hr.signature h, hr.getSignature h⟩, fun _ h => ⟨hr.authToken h, hr.getAuthToken h⟩⟩

end

/-! ## A store that keeps what it is given -/

/-- A map from UUIDs to the last signature and the auth token written, if any; a
missing field reads as an error. -/
def refStore : ContextManager (UUID → Option GoString × Option GoString) Unit where
  getSignature st uid := match (st uid).1 with
    | some s => .ok s
    | none => .error ()
  setSignature st uid signature := .ok fun u => if u = uid then (some signature, (st u).2) else st u
  getAuthToken st uid := match (st uid).2 with
    | some t => .ok t
    | none => .error ()
  setAuthToken st uid authToken := .ok fun u => if u = uid then ((st u).1, some authToken) else st u

theorem refStore_keeps : refStore.Keeps := by
  constructor <;> intro st st' uid v u x hs hg <;> cases hs <;> by_cases e : u = uid <;>
    simp_all [refStore]

theorem refStore_valid_empty (signatureLength : Nat) : Valid refStore signatureLength fun _ => (none, none) :=
  ⟨(by intro _ _ h; cases h), (by intro _ _ h; cases h)⟩

/-- Writes of a 64-byte signature, a short one and an empty token to the empty store. -/
theorem runWrites_reads_refStore :
    refStore.Keeps ∧ Valid refStore 64 (fun _ => (none, none)) ∧
    let st := runWrites refStore 64 (fun _ => (none, none))
      [.setSignature ⟨List.replicate 16 0, rfl⟩ (List.replicate 64 1),
        .setSignature ⟨List.replicate 16 0, rfl⟩ [1],
        .setAuthToken ⟨List.replicate 16 0, rfl⟩ []]
    (∀ signature, refStore.getSignature st ⟨List.replicate 16 0, rfl⟩ = .ok signature →
      signature.length = 64 ∧
        ExtendedProtocol.getSignature refStore 64 st ⟨List.replicate 16 0, rfl⟩ = .ok signature) ∧
    (∀ authToken, refStore.getAuthToken st ⟨List.replicate 16 0, rfl⟩ = .ok authToken →
      authToken ≠ [] ∧ ExtendedProtocol.getAuthToken refStore st ⟨List.replicate 16 0, rfl⟩ = .ok authToken) :=
  ⟨refStore_keeps, refStore_valid_empty 64, runWrites_reads refStore_keeps (refStore_valid_empty 64) _ _⟩

/-- The short signature and the empty token are refused; the 64-byte signature is kept. -/
example :
    ExtendedProtocol.getSignature refStore 64
        (runWrites refStore 64 (fun _ => (none, none))
          [.setSignature ⟨List.replicate 16 0, rfl⟩ (List.replicate 64 1),
            .setSignature ⟨List.replicate 16 0, rfl⟩ [1],
            .setAuthToken ⟨List.replicate 16 0, rfl⟩ []])
        ⟨List.replicate 16 0, rfl⟩ = .ok (List.replicate 64 1) := rfl

/-! ## `StoreIdentity` of the newer `ExtendedProtocol` -/

/-- `ent.Identity`, as `StoreIdentity` reads it; `ent` is not in the sources, and `uid`
is the text `%s` prints for the UUID. -/
structure Identity where
  uid : GoString
  privateKey : GoString
  publicKey : GoString
  signature : GoString
  authToken : GoString
  deriving DecidableEq

/-- The errors of `ExtendedProtocol.StoreIdentity`. -/
inductive StoreIdentityError (ε : Type) where
  /-- the context manager's error, returned as it is -/
  | ctx (e : ε)
  /-- `%s: empty token` -/
  | emptyToken (uid : GoString)
  /-- `%s: invalid signature length: expected %d, got %d` -/
  | signatureLength (uid : GoString) (expected got : Nat)
  /-- `private key is empty` -/
  | emptyPrivateKey
  /-- `public key is empty` -/
  | emptyPublicKey

/-- The identity accessors of the `ContextManager` of `handlers/protocol.go` over a
store `σ`; the `context.Context` and the `IdentityHandler` that `StoreIdentity` passes
through are left out. -/
structure IdentityStore (σ ε : Type) where
  storeIdentity : σ → Identity → Except ε σ
  fetchIdentity : σ → UUID → Except ε Identity

/-- What `StoreIdentity` checks of an identity. -/
structure Identity.Checked (signatureLength : Nat) (id : Identity) : Prop where
  authToken : id.authToken ≠ []
  signature : id.signature.length = signatureLength
  privateKey : id.privateKey ≠ []
  publicKey : id.publicKey ≠ []

section

variable {σ ε : Type} (m : IdentityStore σ ε) (signatureLength : Nat)

/-- `ExtendedProtocol.StoreIdentity`. -/
def ExtendedProtocol.storeIdentity (st : σ) (id : Identity) : Except (StoreIdentityError ε) σ :=
  if id.authToken.length = 0 then .error (.emptyToken id.uid)
  else if id.signature.length ≠ signatureLength then
    .error (.signatureLength id.uid signatureLength id.signature.length)
  else if id.privateKey.length = 0 then .error .emptyPrivateKey
  else if id.publicKey.length = 0 then .error .emptyPublicKey
  else (m.storeIdentity st id).mapError .ctx

/-- The store after `StoreIdentity` calls; one that fails leaves it as it was. -/
def runStoreIdentity : σ → List Identity → σ
  | st, [] => st
  | st, id :: ids =>
    match ExtendedProtocol.storeIdentity m signatureLength st id with
    | .ok st' => runStoreIdentity st' ids
    | .error _ => runStoreIdentity st ids

/-- A store that keeps what it is given: after `StoreIdentity`, an identity is fetched
as the one stored or as before. -/
def IdentityStore.Keeps : Prop :=
  ∀ {st st' : σ} {id : Identity} {u : UUID} {id' : Identity}, m.storeIdentity st id = .ok st' →
    m.fetchIdentity st' u = .ok id' → id' = id ∨ m.fetchIdentity st u = .ok id'

/-- Every identity the store returns passed the checks of `StoreIdentity`. -/
def IdentitiesChecked (st : σ) : Prop :=
  ∀ {u : UUID} {id : Identity}, m.fetchIdentity st u = .ok id → id.Checked signatureLength

/-- `StoreIdentity` reaches the context manager exactly with an identity that passes
its checks, and returns what the context manager returns. -/
theorem storeIdentity_ok {st st' : σ} {id : Identity} :
    ExtendedProtocol.storeIdentity m signatureLength st id = .ok st' ↔
      id.Checked signatureLength ∧ m.storeIdentity st id = .ok st' := by
  constructor
  · intro h
    unfold ExtendedProtocol.storeIdentity at h
    split_ifs at h with h1 h2 h3 h4
    simp only [List.length_eq_zero] at h1 h3 h4
    exact ⟨⟨h1, not_not.1 h2, h3, h4⟩, by simpa using h⟩
  · rintro ⟨⟨h1, h2, h3, h4⟩, hs⟩
    simp [ExtendedProtocol.storeIdentity, h1, h2, h3, h4, hs]

variable {m signatureLength}

theorem IdentitiesChecked.storeIdentity (hk : m.Keeps) {st st' : σ} (hv : IdentitiesChecked m signatureLength st)
    {id : Identity} (h : ExtendedProtocol.storeIdentity m signatureLength st id = .ok st') :
    IdentitiesChecked m signatureLength st' := fun hf => by
  obtain ⟨hc, hs⟩ := (storeIdentity_ok m signatureLength).1 h
  rcases hk hs hf with rfl | hf
  · exact hc
  · exact hv hf

theorem IdentitiesChecked.runStoreIdentity (hk : m.Keeps) :
    ∀ {st : σ} (ids : List Identity), IdentitiesChecked m signatureLength st →
      IdentitiesChecked m signatureLength (runStoreIdentity m signatureLength st ids)
  | _, [], hv => hv
  | st, id :: ids, hv => by
    unfold UbirchClient.Protocol.runStoreIdentity
    split
    · exact IdentitiesChecked.runStoreIdentity hk ids (hv.storeIdentity hk ‹_›)
    · exact IdentitiesChecked.runStoreIdentity hk ids hv

/-- An identity fetched after the calls was given to one of them, or was fetched so
before them. -/
theorem fetch_runStoreIdentity (hk : m.Keeps) {u : UUID} {id : Identity} :
    ∀ {st : σ} (ids : List Identity), m.fetchIdentity (runStoreIdentity m signatureLength st ids) u = .ok id →
      id ∈ ids ∨ m.fetchIdentity st u = .ok id
  | _, [], h => .inr h
  | st, i :: ids, h => by
    unfold UbirchClient.Protocol.runStoreIdentity at h
    split at h
    · rename_i st' hs
      rcases fetch_runStoreIdentity hk ids h with hm | hf
      · exact .inl (List.mem_cons_of_mem _ hm)
      · exact (hk ((storeIdentity_ok m signatureLength).1 hs).2 hf).imp_left fun e => List.mem_cons.2 (.inl e)
    · exact (fetch_runStoreIdentity hk ids h).imp_left (List.mem_cons_of_mem _)

/-- Written to only through `ExtendedProtocol.StoreIdentity`, in any order and with any
calls refused, a store that keeps what it is given and starts with checked identities
returns only identities that passed the checks of `StoreIdentity`: a token, a signature
of `SignatureLength` bytes and both keys; and each was given to one of the calls or
was in the store before. -/
theorem runStoreIdentity_checked (hk : m.Keeps) {st : σ} (hv : IdentitiesChecked m signatureLength st)
    (ids : List Identity) (u : UUID) (id : Identity)
    (h : m.fetchIdentity (runStoreIdentity m signatureLength st ids) u = .ok id) :
    id.Checked signatureLength ∧ (id ∈ ids ∨ m.fetchIdentity st u = .ok id) :=
  ⟨hv.runStoreIdentity hk ids h, fetch_runStoreIdentity hk ids h⟩

end

/-- A list of identities, newest first, fetched by the UUID's string. -/
def refIdentityStore : IdentityStore (List Identity) Unit where
  storeIdentity st id := .ok (id :: st)
  fetchIdentity st u := match st.find? fun id => id.uid = u.toGoString with
    | some id => .ok id
    | none => .error ()

theorem refIdentityStore_keeps : refIdentityStore.Keeps := by
  intro st st' id u id' hs hf
  cases hs
  by_cases e : id.uid = u.toGoString
  · simp [refIdentityStore, List.find?_cons, e] at hf
    exact .inl hf.symm
  · simp only [refIdentityStore, List.find?_cons, e, decide_False] at hf
    exact .inr hf

/-- An identity with an empty token, then a good one, for the same UUID, on an empty
store: the store returns the good one. -/
theorem runStoreIdentity_checked_device :
    refIdentityStore.Keeps ∧ IdentitiesChecked refIdentityStore 64 [] ∧
      refIdentityStore.fetchIdentity
          (runStoreIdentity refIdentityStore 64 []
            [⟨UUID.toGoString ⟨List.replicate 16 0, rfl⟩, [1], [2], List.replicate 64 0, []⟩,
              ⟨UUID.toGoString ⟨List.replicate 16 0, rfl⟩, [1], [2], List.replicate 64 0, [116]⟩])
          ⟨List.replicate 16 0, rfl⟩ =
        .ok ⟨UUID.toGoString ⟨List.replicate 16 0, rfl⟩, [1], [2], List.replicate 64 0, [116]⟩ ∧
      ((⟨UUID.toGoString ⟨List.replicate 16 0, rfl⟩, [1], [2], List.replicate 64 0, [116]⟩ : Identity).Checked 64 ∧
        ((⟨UUID.toGoString ⟨List.replicate 16 0, rfl⟩, [1], [2], List.replicate 64 0, [116]⟩ : Identity) ∈
            [⟨UUID.toGoString ⟨List.replicate 16 0, rfl⟩, [1], [2], List.replicate 64 0, []⟩,
              ⟨UUID.toGoString ⟨List.replicate 16 0, rfl⟩, [1], [2], List.replicate 64 0, [116]⟩] ∨
          refIdentityStore.fetchIdentity [] ⟨List.replicate 16 0, rfl⟩ =
            .ok ⟨UUID.toGoString ⟨List.replicate 16 0, rfl⟩, [1], [2], List.replicate 64 0, [116]⟩)) := by
  have hv : IdentitiesChecked refIdentityStore 64 [] := fun h => by cases h
  have hf : refIdentityStore.fetchIdentity
      (runStoreIdentity refIdentityStore 64 []
        [⟨UUID.toGoString ⟨List.replicate 16 0, rfl⟩, [1], [2], List.replicate 64 0, []⟩,
          ⟨UUID.toGoString ⟨List.replicate 16 0, rfl⟩, [1], [2], List.replicate 64 0, [116]⟩])
      ⟨List.replicate 16 0, rfl⟩ =
        .ok ⟨UUID.toGoString ⟨List.replicate 16 0, rfl⟩, [1], [2], List.replicate 64 0, [116]⟩ := rfl
  exact ⟨refIdentityStore_keeps, hv, hf, runStoreIdentity_checked refIdentityStore_keeps hv _ _ _ hf⟩

end UbirchClient.Protocol
