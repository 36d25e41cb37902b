import UbirchClient.Json.Typed
import UbirchClient.Go.Encoding
set_option autoImplicit false

/-!
# The client configuration: `Config.Load` of `unnamed/part_001`

WHAT THIS FILE IS FOR.  `Config.Load` builds the client's configuration in a fixed
sequence: the settings from the environment (when `UBIRCH_SECRET` is set) or from the
config file; the base64 secret decoded into `SecretBytes`; the legacy auth map
(`loadAuthMap`) and the identities file (`loadIdentitiesFile`) merged into `Devices`;
the mandatory checks (`checkMandatory`); the defaults (`setDefaultCSR`,
`setDefaultTLS`, `setDefaultCORS`, `setDefaultReqBufSize`, `setDefaultURLs`).  An
error of any step ends the load, and `loadAuthMap` can also panic: `Load` returns an
`Outcome`.

WHAT IS A PARAMETER.  The process and the file system are a `Sources` record:
`os.Getenv`, what `envconfig.Process` and the config file's decoder make of the
configuration (any `Config`: every exported field can be set from either, but not the
unexported `configDir`), `os.Stat`, and reading a file.  `filepath.Join` is the
parameter `join`.  Every result holds for every choice of them.  The fields `Load`
neither reads nor writes (`DSN`, `Debug`, `LogTextFormat`) are left out, and so is
the global `ENV` that `setDefaultURLs` sets.
Note that `loadAuthMap` and `loadIdentitiesFile` ask `os.Stat` about the bare file
name, in the working directory, and then read the file in `configDir`.

ITERATION ORDER.  `loadAuthMap` ranges over a Go map, whose order Go leaves random;
here it is the map's entry order.  The keys are distinct, so neither the maps it
builds nor whether it panics depend on the order; only which short entry a panic
names does.

THE PROPERTIES PROVED HERE.  `load_usable`: a configuration `Load` returns has a
device, a 16-byte secret, a valid backend environment and a non-zero request buffer
size.  It can hold an empty token (`load_accepts_empty_token`) and a negative buffer
size.  `load_panics_only_on_short_entry`: `Load` panics exactly when the settings
load, the secret decodes, and the auth map it reads (`UBIRCH_AUTH_MAP`, else
`auth.json` in `configDir`) decodes with an entry of fewer than two strings;
`load_panics_on_short_entry` shows such a panic.
`load_devices_keys`: where a device's token and key come from when the three sources
disagree.  The identities file beats the legacy auth map, which beats the settings.
-/

namespace UbirchClient.Client

open UbirchClient.Go UbirchClient.Json

/-- `DEV_STAGE`. -/
def devStage : GoString := ascii "dev"

/-- `DEMO_STAGE`. -/
def demoStage : GoString := ascii "demo"

/-- `PROD_STAGE`. -/
def prodStage : GoString := ascii "prod"

/-- `fmt.Sprintf(defaultKeyURL, env)`. -/
def defaultKeyURL (env : GoString) : GoString :=
  ascii "https://key." ++ env ++ ascii ".ubirch.com/api/keyService/v1/pubkey"

/-- `fmt.Sprintf(defaultIdentityURL, env)`. -/
def defaultIdentityURL (env : GoString) : GoString :=
  ascii "https://identity." ++ env ++ ascii ".ubirch.com/api/certs/v1/csr/register"

/-- `fmt.Sprintf(defaultNiomonURL, env)`. -/
def defaultNiomonURL (env : GoString) : GoString :=
  ascii "https://niomon." ++ env ++ ascii ".ubirch.com/"

/-- `fmt.Sprintf(defaultVerifyURL, env)`. -/
def defaultVerifyURL (env : GoString) : GoString :=
  ascii "https://verify." ++ env ++ ascii ".ubirch.com/api/upp/verify"

/-- `authEnv`. -/
def authEnv : GoString := ascii "UBIRCH_AUTH_MAP"

/-- `authFile`. -/
def authFile : GoString := ascii "auth.json"

/-- `identitiesFile`. -/
def identitiesFile : GoString := ascii "identities.json"

/-- `defaultTLSCertFile`. -/
def defaultTLSCertFile : GoString := ascii "cert.pem"

/-- `defaultTLSKeyFile`. -/
def defaultTLSKeyFile : GoString := ascii "key.pem"

/-- `defaultReqBufSize`. -/
def defaultReqBufSize : Int := 30

/-- `Config`, each field starting at its Go zero value. -/
structure Config where
  devices : GoMap GoString := GoMap.empty
  secret : GoString := []
  env : GoString := []
  staticKeys : Bool := false
  keys : GoMap GoString := GoMap.empty
  csrCountry : GoString := []
  csrOrganization : GoString := []
  tcpAddr : GoString := []
  tls : Bool := false
  tlsCertFile : GoString := []
  tlsKeyFile : GoString := []
  cors : Bool := false
  /-- `CORS_Origins`, `none` for a `nil` slice -/
  corsOrigins : Option (List GoString) := none
  /-- `RequestBufSize`, a Go `int` -/
  requestBufSize : Int := 0
  secretBytes : GoString := []
  keyService : GoString := []
  identityService : GoString := []
  niomon : GoString := []
  verifyService : GoString := []
  configDir : GoString := []

/-- What `Load` reads of the process and the file system; `ε` is their error type. -/
structure Sources (ε : Type) where
  /-- `os.Getenv` -/
  getenv : GoString → GoString
  /-- `c.loadEnv()`: what `envconfig.Process("ubirch", c)` makes of `c` -/
  loadEnv : Config → Except ε Config
  /-- `c.loadFile(filename)`: what decoding the config file makes of `c` -/
  loadFile : Config → GoString → Except ε Config
  /-- `os.Stat(name)`, `false` when it reports `IsNotExist` -/
  stat : GoString → Bool
  /-- a file's bytes: `ioutil.ReadFile`, or `os.Open` and reading it to the end -/
  readFile : GoString → Except ε GoString
  /-- `configDir` is unexported: `envconfig` cannot set it -/
  loadEnv_configDir : ∀ {c c' : Config}, loadEnv c = .ok c' → c'.configDir = c.configDir
  /-- nor can the config file's decoder -/
  loadFile_configDir : ∀ {c : Config} {filename : GoString} {c' : Config},
    loadFile c filename = .ok c' → c'.configDir = c.configDir

/-- The errors of `Load`. -/
inductive LoadError (ε : Type) where
  /-- an error of the environment or the file system, returned as it is -/
  | source (e : ε)
  /-- `unable to decode base64 encoded secret (%s): %v` -/
  | secret (secret : GoString) (e : Base64Error)
  /-- an error of `json.Unmarshal` or `Decoder.Decode`, returned as it is -/
  | json (e : TypedUnmarshalError)
  /-- `There are no devices authorized to use this client. ...` -/
  | noDevices
  /-- `secret length must be 16 bytes (is %d)` -/
  | secretLength (n : Nat)
  /-- `dynamic key generation disabled but no injected signing keys found in configuration` -/
  | noStaticKeys
  /-- `invalid UBIRCH backend environment: "%s"` -/
  | invalidEnv (env : GoString)

/-- Storing into `buffer := make(map[string][]string)`. -/
def intoAuthMap : Syn → Except TypedError (GoMap (List GoString)) :=
  Syn.toMap (Syn.toSlice Syn.toStr (ascii "[]string")) (ascii "map[string][]string")

/-- Storing into `var identities []map[string]string`. -/
def intoIdentities : Syn → Except TypedError (List (GoMap GoString)) :=
  Syn.toSlice (Syn.toMap Syn.toStr (ascii "map[string]string")) (ascii "[]map[string]string")

section

variable {ε : Type} (src : Sources ε) (join : GoString → GoString → GoString)

/-! ## The steps of `Load` -/

/-- The loop of `loadAuthMap`: `c.Keys[k] = v[0]` and `c.Devices[k] = v[1]` for each
entry `k, v` of the auth map. -/
def addAuthEntries (keys devices : GoMap GoString) :
    List (GoString × List GoString) → Outcome (LoadError ε) (GoMap GoString × GoMap GoString)
  | [] => .ok (keys, devices)
  | (k, v) :: rest => do
    let v0 ← index v 0
    let v1 ← index v 1
    addAuthEntries (keys.insert k v0) (devices.insert k v1) rest

/-- The text `loadAuthMap` reads: `UBIRCH_AUTH_MAP`, else the file `auth.json`; `none`
when the variable is empty and `os.Stat` finds no file. -/
def Config.readAuthMap (c : Config) : Except (LoadError ε) (Option GoString) :=
  if src.getenv authEnv ≠ [] then .ok (some (src.getenv authEnv))
  else if !src.stat authFile then .ok none
  else
    match src.readFile (join c.configDir authFile) with
    | .error e => .error (.source e)
    | .ok b => .ok (some b)

/-- `loadAuthMap`. -/
def Config.loadAuthMap (c : Config) : Outcome (LoadError ε) Config := do
  match ← Outcome.ofExcept (c.readAuthMap src join) with
  | none => pure c
  | some authMapBytes =>
    let buffer ← Outcome.ofExcept ((unmarshalInto intoAuthMap authMapBytes).mapError .json)
    let (keys, devices) ← addAuthEntries c.keys c.devices buffer.entries
    pure { c with keys, devices }

/-- The loop of `loadIdentitiesFile`: `c.Devices[identity["uuid"]] = identity["password"]`. -/
def addIdentities (devices : GoMap GoString) : List (GoMap GoString) → GoMap GoString
  | [] => devices
  | identity :: rest =>
    addIdentities (devices.insert ((identity.get? (ascii "uuid")).getD [])
      ((identity.get? (ascii "password")).getD [])) rest

/-- `loadIdentitiesFile`. -/
def Config.loadIdentitiesFile (c : Config) : Except (LoadError ε) Config :=
  if !src.stat identitiesFile then .ok c
  else
    match src.readFile (join c.configDir identitiesFile) with
    | .error e => .error (.source e)
    | .ok b =>
      match decodeFirst intoIdentities b with
      | .error e => .error (.json e)
      | .ok identities => .ok { c with devices := addIdentities c.devices identities }

/-- `checkMandatory`. -/
def Config.checkMandatory (c : Config) : Except (LoadError ε) Unit :=
  if c.devices.len = 0 then .error .noDevices
  else if c.secretBytes.length ≠ 16 then .error (.secretLength c.secretBytes.length)
  else if c.staticKeys ∧ c.keys.len = 0 then .error .noStaticKeys
  else .ok ()

/-- `setDefaultCSR`. -/
def Config.setDefaultCSR (c : Config) : Config :=
  { c with
    csrCountry := if c.csrCountry = [] then ascii "DE" else c.csrCountry
    csrOrganization := if c.csrOrganization = [] then ascii "ubirch GmbH" else c.csrOrganization }

/-- `setDefaultTLS`. -/
def Config.setDefaultTLS (c : Config) : Config :=
  { c with
    tcpAddr := if c.tcpAddr = [] then ascii ":8080" else c.tcpAddr
    tlsCertFile := if c.tls then
        join c.configDir (if c.tlsCertFile = [] then defaultTLSCertFile else c.tlsCertFile)
      else c.tlsCertFile
    tlsKeyFile := if c.tls then
        join c.configDir (if c.tlsKeyFile = [] then defaultTLSKeyFile else c.tlsKeyFile)
      else c.tlsKeyFile }

/-- `setDefaultCORS`. -/
def Config.setDefaultCORS (c : Config) : Config :=
  { c with corsOrigins := if c.cors ∧ c.corsOrigins = none then some [ascii "*"] else c.corsOrigins }

/-- `setDefaultReqBufSize`: only `0` is replaced. -/
def Config.setDefaultReqBufSize (c : Config) : Config :=
  { c with requestBufSize := if c.requestBufSize = 0 then defaultReqBufSize else c.requestBufSize }

/-- `setDefaultURLs`. -/
def Config.setDefaultURLs (c : Config) : Except (LoadError ε) Config :=
  let env := if c.env = [] then prodStage else c.env
  if ¬(env = devStage ∨ env = demoStage ∨ env = prodStage) then .error (.invalidEnv env)
  else .ok { c with
    env
    keyService := if c.keyService = [] then defaultKeyURL env
      else trimSuffix c.keyService (ascii "/mpack")
    identityService := if c.identityService = [] then defaultIdentityURL env else c.identityService
    niomon := if c.niomon = [] then defaultNiomonURL env else c.niomon
    verifyService := if c.verifyService = [] then defaultVerifyURL env else c.verifyService }

/-- `Config.Load(configDir, filename)`, applied to the configuration `c`. -/
def Config.load (configDir filename : GoString) (c : Config) : Outcome (LoadError ε) Config := do
  let c := { c with configDir }
  let c ← Outcome.ofExcept ((if src.getenv (ascii "UBIRCH_SECRET") ≠ [] then src.loadEnv c
    else src.loadFile c filename).mapError .source)
  let secretBytes ← Outcome.ofExcept ((base64Decode c.secret).mapError (.secret c.secret))
  let c ← ({ c with secretBytes } : Config).loadAuthMap src join
  let c ← Outcome.ofExcept (c.loadIdentitiesFile src join)
  Outcome.ofExcept c.checkMandatory
  Outcome.ofExcept ((c.setDefaultCSR.setDefaultTLS join).setDefaultCORS.setDefaultReqBufSize.setDefaultURLs)

/-! ## What the defaults keep -/

@[simp] theorem setDefaultCSR_devices (c : Config) : c.setDefaultCSR.devices = c.devices := rfl

@[simp] theorem setDefaultCSR_secretBytes (c : Config) : c.setDefaultCSR.secretBytes = c.secretBytes := rfl

@[simp] theorem setDefaultTLS_devices (c : Config) : (c.setDefaultTLS join).devices = c.devices := rfl

@[simp] theorem setDefaultTLS_secretBytes (c : Config) :
    (c.setDefaultTLS join).secretBytes = c.secretBytes := rfl

@[simp] theorem setDefaultCORS_devices (c : Config) : c.setDefaultCORS.devices = c.devices := rfl

@[simp] theorem setDefaultCORS_secretBytes (c : Config) :
    c.setDefaultCORS.secretBytes = c.secretBytes := rfl

@[simp] theorem setDefaultReqBufSize_devices (c : Config) :
    c.setDefaultReqBufSize.devices = c.devices := rfl

@[simp] theorem setDefaultReqBufSize_secretBytes (c : Config) :
    c.setDefaultReqBufSize.secretBytes = c.secretBytes := rfl

theorem setDefaultReqBufSize_ne_zero (c : Config) : c.setDefaultReqBufSize.requestBufSize ≠ 0 := by
  simp only [Config.setDefaultReqBufSize]
  split <;> simp_all [defaultReqBufSize]

/-- `setDefaultURLs` succeeds only with a valid environment, and keeps the devices,
the secret and the buffer size. -/
theorem setDefaultURLs_ok {c c' : Config} (h : c.setDefaultURLs = (.ok c' : Except (LoadError ε) Config)) :
    (c'.env = devStage ∨ c'.env = demoStage ∨ c'.env = prodStage) ∧ c'.devices = c.devices ∧
      c'.secretBytes = c.secretBytes ∧ c'.requestBufSize = c.requestBufSize := by
  simp only [Config.setDefaultURLs] at h
  generalize (if c.env = [] then prodStage else c.env) = env at h
  by_cases hv : env = devStage ∨ env = demoStage ∨ env = prodStage
  · rw [if_neg (not_not.2 hv)] at h
    cases h
    exact ⟨hv, rfl, rfl, rfl⟩
  · rw [if_pos hv] at h
    cases h

theorem checkMandatory_ok {c : Config} (h : c.checkMandatory = (.ok () : Except (LoadError ε) Unit)) :
    0 < c.devices.len ∧ c.secretBytes.length = 16 ∧ (c.staticKeys = true → 0 < c.keys.len) := by
  unfold Config.checkMandatory at h
  split_ifs at h with h1 h2 h3
  simp only [not_and, Bool.not_eq_true, not_not] at h3
  exact ⟨Nat.pos_of_ne_zero h1, not_not.1 h2, fun hs => Nat.pos_of_ne_zero (h3 hs)⟩

/-! ## What `Load` returns -/

/-- A configuration `Load` returns passed `checkMandatory` and then the defaults. -/
theorem load_ok {configDir filename : GoString} {c0 c : Config}
    (h : Config.load src join configDir filename c0 = .ok c) :
    ∃ c' : Config, c'.checkMandatory = (.ok () : Except (LoadError ε) Unit) ∧
      (c'.setDefaultCSR.setDefaultTLS join).setDefaultCORS.setDefaultReqBufSize.setDefaultURLs =
        (.ok c : Except (LoadError ε) Config) := by
  simp only [Config.load, Outcome.bind_eq_ok, Outcome.ofExcept_eq_ok] at h
  obtain ⟨_, -, _, -, _, -, c', -, _, hm, hu⟩ := h
  exact ⟨c', hm, hu⟩

/-- A configuration `Load` returns has a device, a 16-byte secret, a valid backend
environment and a non-zero request buffer size. -/
theorem load_usable {configDir filename : GoString} {c0 c : Config}
    (h : Config.load src join configDir filename c0 = .ok c) :
    0 < c.devices.len ∧ c.secretBytes.length = 16 ∧
      (c.env = devStage ∨ c.env = demoStage ∨ c.env = prodStage) ∧ c.requestBufSize ≠ 0 := by
  obtain ⟨c', hm, hu⟩ := load_ok src join h
  obtain ⟨hd, hs⟩ := (checkMandatory_ok hm).imp_right And.left
  obtain ⟨he, hdev, hsec, hbuf⟩ := setDefaultURLs_ok hu
  refine ⟨?_, ?_, he, ?_⟩
  · simpa [hdev] using hd
  · simpa [hsec] using hs
  · rw [hbuf]; exact setDefaultReqBufSize_ne_zero _

/-- A configuration file with one device and a 16-byte secret. -/
theorem load_usable_single_device :
    0 < (GoMap.len ⟨[(ascii "u", ascii "t")], List.nodup_singleton _⟩ : Nat) ∧
      (List.replicate 16 (0 : UInt8)).length = 16 ∧
      (prodStage = devStage ∨ prodStage = demoStage ∨ prodStage = prodStage) ∧
      defaultReqBufSize ≠ 0 :=
  load_usable ⟨fun _ => [], fun c => .ok c,
      fun c _ => .ok { c with
        devices := ⟨[(ascii "u", ascii "t")], List.nodup_singleton _⟩
        secret := ascii "AAAAAAAAAAAAAAAAAAAAAA==" },
      fun _ => false, fun _ => .error (), fun h => Except.ok.inj h ▸ rfl,
        fun h => Except.ok.inj h ▸ rfl⟩ (fun d f => d ++ ascii "/" ++ f)
    (show _ = Outcome.ok
      { devices := ⟨[(ascii "u", ascii "t")], List.nodup_singleton _⟩
        secret := ascii "AAAAAAAAAAAAAAAAAAAAAA=="
        secretBytes := List.replicate 16 0
        env := prodStage
        csrCountry := ascii "DE"
        csrOrganization := ascii "ubirch GmbH"
        tcpAddr := ascii ":8080"
        requestBufSize := defaultReqBufSize
        keyService := defaultKeyURL prodStage
        identityService := defaultIdentityURL prodStage
        niomon := defaultNiomonURL prodStage
        verifyService := defaultVerifyURL prodStage } from
      (rfl : Config.load _ _ [] (ascii "config.json") {} = _))

/-- A config file with the device `u` and an empty token: `Load` accepts it. -/
theorem load_accepts_empty_token :
    Config.load ⟨fun _ => [], fun c => .ok c,
        fun c _ => .ok { c with
          devices := ⟨[(ascii "u", [])], List.nodup_singleton _⟩
          secret := ascii "AAAAAAAAAAAAAAAAAAAAAA==" },
        fun _ => false, fun _ => .error (), fun h => Except.ok.inj h ▸ rfl,
        fun h => Except.ok.inj h ▸ rfl⟩ (fun d f => d ++ ascii "/" ++ f) [] (ascii "config.json")
        {} =
      .ok { devices := ⟨[(ascii "u", [])], List.nodup_singleton _⟩
            secret := ascii "AAAAAAAAAAAAAAAAAAAAAA=="
            secretBytes := List.replicate 16 0
            env := prodStage
            csrCountry := ascii "DE"
            csrOrganization := ascii "ubirch GmbH"
            tcpAddr := ascii ":8080"
            requestBufSize := defaultReqBufSize
            keyService := defaultKeyURL prodStage
            identityService := defaultIdentityURL prodStage
            niomon := defaultNiomonURL prodStage
            verifyService := defaultVerifyURL prodStage } :=
  rfl

/-! ## Where a device's token and key come from -/

/-- The token the identities file gives `k`: the `password` of the last identity whose
`uuid` is `k`, `""` when it has none. -/
def identityPassword? (k : GoString) (identities : List (GoMap GoString)) : Option GoString :=
  (identities.reverse.find? fun i => decide ((i.get? (ascii "uuid")).getD [] = k)).map
    fun i => (i.get? (ascii "password")).getD []

/-- The auth map `loadAuthMap` merges: the decoded text, or nothing when there is none. -/
def Config.AuthMapRead (c : Config) (authMap : GoMap (List GoString)) : Prop :=
  (c.readAuthMap src join = .ok none ∧ authMap = GoMap.empty) ∨
    ∃ b, c.readAuthMap src join = .ok (some b) ∧ unmarshalInto intoAuthMap b = .ok authMap

/-- The identities `loadIdentitiesFile` merges: the decoded file, or none when
`os.Stat` finds no file. -/
def Config.IdentitiesRead (c : Config) (identities : List (GoMap GoString)) : Prop :=
  (src.stat identitiesFile = false ∧ identities = []) ∨
    ∃ b, src.stat identitiesFile = true ∧ src.readFile (join c.configDir identitiesFile) = .ok b ∧
      decodeFirst intoIdentities b = .ok identities

theorem get?_addIdentities (devices : GoMap GoString) (identities : List (GoMap GoString))
    (k : GoString) :
    (addIdentities devices identities).get? k = (identityPassword? k identities).or (devices.get? k) := by
  induction identities generalizing devices with
  | nil => rfl
  | cons i is ih =>
    rw [addIdentities, ih, GoMap.get?_insert]
    by_cases e : (i.get? (ascii "uuid")).getD [] = k
    · cases h : is.reverse.find? fun i => decide ((i.get? (ascii "uuid")).getD [] = k) <;>
        simp [identityPassword?, List.find?_append, e, h]
    · simp [identityPassword?, List.find?_append, e, Ne.symm e]

/-- The loop of `loadAuthMap`, when it does not panic: `v[0]` of the auth map's entry
for `k` is the key, `v[1]` the token, and the maps it starts from fill in the rest. -/
theorem addAuthEntries_ok {l : List (GoString × List GoString)} (hl : (l.map Prod.fst).Nodup) :
    ∀ {keys devices keys' devices' : GoMap GoString},
      (addAuthEntries keys devices l : Outcome (LoadError ε) _) = .ok (keys', devices') → ∀ k,
        keys'.get? k = ((GoMap.get? ⟨l, hl⟩ k).bind fun v => v[0]?).or (keys.get? k) ∧
        devices'.get? k = ((GoMap.get? ⟨l, hl⟩ k).bind fun v => v[1]?).or (devices.get? k) := by
  induction l with
  | nil => intro keys devices keys' devices' h k; cases h; simp [GoMap.get?]
  | cons kv rest ih =>
    intro keys devices keys' devices' h k
    obtain ⟨k0, v⟩ := kv
    simp only [List.map_cons, List.nodup_cons] at hl
    simp only [addAuthEntries, Outcome.bind_eq_ok, index_eq_ok] at h
    obtain ⟨v0, h0, v1, h1, h⟩ := h
    obtain ⟨hk, hd⟩ := ih hl.2 h k
    rw [hk, hd, GoMap.get?_insert, GoMap.get?_insert]
    by_cases e : k = k0
    · subst e
      have hn : GoMap.get? ⟨rest, hl.2⟩ k = none :=
        Option.map_eq_none'.2 (List.find?_eq_none.2 fun e he h =>
          hl.1 (List.mem_map.2 ⟨e, he, by simpa using h⟩))
      simp only [hn, if_pos rfl, Option.none_bind, Option.none_or]
      simp [GoMap.get?, h0, h1]
    · simp [e, Ne.symm e, GoMap.get?]

theorem loadAuthMap_ok {c c' : Config} (h : c.loadAuthMap src join = .ok c') :
    ∃ authMap, c.AuthMapRead src join authMap ∧ c'.configDir = c.configDir ∧ ∀ k,
      c'.keys.get? k = ((authMap.get? k).bind fun v => v[0]?).or (c.keys.get? k) ∧
      c'.devices.get? k = ((authMap.get? k).bind fun v => v[1]?).or (c.devices.get? k) := by
  simp only [Config.loadAuthMap, Outcome.bind_eq_ok, Outcome.ofExcept_eq_ok] at h
  obtain ⟨_ | b, hr, h⟩ := h
  · cases h
    exact ⟨GoMap.empty, .inl ⟨hr, rfl⟩, rfl, fun k => by simp [GoMap.get?, GoMap.empty]⟩
  · simp only [Outcome.bind_eq_ok, Outcome.ofExcept_eq_ok, mapError_eq_ok] at h
    obtain ⟨m, hm, ⟨keys, devices⟩, ha, h⟩ := h
    cases h
    exact ⟨m, .inr ⟨b, hr, hm⟩, rfl, addAuthEntries_ok m.nodup_keys ha⟩

theorem loadIdentitiesFile_ok {c c' : Config}
    (h : (c.loadIdentitiesFile src join : Except (LoadError ε) Config) = .ok c') :
    ∃ identities, c.IdentitiesRead src join identities ∧
      c' = { c with devices := addIdentities c.devices identities } := by
  unfold Config.loadIdentitiesFile at h
  cases hs : src.stat identitiesFile
  · simp only [hs, Bool.not_false, if_true, Except.ok.injEq] at h
    subst h
    exact ⟨[], .inl ⟨hs, rfl⟩, rfl⟩
  · cases hr : src.readFile (join c.configDir identitiesFile) with
    | error => simp [hs, hr] at h
    | ok b =>
      cases hd : decodeFirst intoIdentities b with
      | error => simp [hs, hr, hd] at h
      | ok ids =>
        simp only [hs, hr, hd, Bool.not_true, Bool.false_eq_true, if_false, Except.ok.injEq] at h
        subst h
        exact ⟨ids, .inr ⟨b, hs, hr, hd⟩, rfl⟩

theorem setDefaults_keys (c : Config) :
    ((c.setDefaultCSR.setDefaultTLS join).setDefaultCORS.setDefaultReqBufSize).keys = c.keys := rfl

theorem setDefaultURLs_keys {c c' : Config}
    (h : c.setDefaultURLs = (.ok c' : Except (LoadError ε) Config)) : c'.keys = c.keys := by
  simp only [Config.setDefaultURLs] at h
  generalize (if c.env = [] then prodStage else c.env) = env at h
  split at h
  · cases h
  · cases h; rfl

/-- Where `Load` takes a device's token and key from.  The token of `k` is the
`password` the identities file gives last for `k`; else `v[1]` of the auth map's entry
for `k`; else the token of the configuration read from the environment or the config
file.  The key of `k` is `v[0]` of the auth map's entry; else the configuration's. -/
theorem load_devices_keys {configDir filename : GoString} {c0 c : Config}
    (h : Config.load src join configDir filename c0 = .ok c) :
    ∃ (c1 : Config) (authMap : GoMap (List GoString)) (identities : List (GoMap GoString)),
      (if src.getenv (ascii "UBIRCH_SECRET") ≠ [] then src.loadEnv { c0 with configDir }
        else src.loadFile { c0 with configDir } filename) = .ok c1 ∧
      c1.AuthMapRead src join authMap ∧ c1.IdentitiesRead src join identities ∧ ∀ k,
        c.devices.get? k = (identityPassword? k identities).or
          (((authMap.get? k).bind fun v => v[1]?).or (c1.devices.get? k)) ∧
        c.keys.get? k = ((authMap.get? k).bind fun v => v[0]?).or (c1.keys.get? k) := by
  simp only [Config.load, Outcome.bind_eq_ok, Outcome.ofExcept_eq_ok, mapError_eq_ok] at h
  obtain ⟨c1, h1, sb, -, c2, h2, c3, h3, _, -, hu⟩ := h
  obtain ⟨m, hm, hdir, hkd⟩ := loadAuthMap_ok src join h2
  obtain ⟨ids, hids, rfl⟩ := loadIdentitiesFile_ok src join h3
  refine ⟨c1, m, ids, h1, hm, by rw [Config.IdentitiesRead, hdir] at hids; exact hids, fun k => ⟨?_, ?_⟩⟩
  · rw [(setDefaultURLs_ok hu).2.1]
    simp only [setDefaultReqBufSize_devices, setDefaultCORS_devices, setDefaultTLS_devices,
      setDefaultCSR_devices, get?_addIdentities, (hkd k).2]
  · rw [setDefaultURLs_keys hu, setDefaults_keys, (hkd k).1]

/-- A config file that gives the device `u` the token `t`, and an auth map that gives
it the key `k` and the token `a`: the auth map's token wins. -/
theorem load_devices_keys_authMap :
    ∃ c, Config.load ⟨fun k => if k = authEnv then ascii "\x7b\"u\":[\"k\",\"a\"]\x7d" else [],
        fun c => .ok c, fun c _ => .ok { c with
          devices := ⟨[(ascii "u", ascii "t")], List.nodup_singleton _⟩
          secret := ascii "AAAAAAAAAAAAAAAAAAAAAA==" },
        fun _ => false, fun _ => .error (), fun h => Except.ok.inj h ▸ rfl,
        fun h => Except.ok.inj h ▸ rfl⟩ (fun d f => d ++ ascii "/" ++ f) [] (ascii "config.json") {} = .ok c ∧
      c.devices.get? (ascii "u") = some (ascii "a") ∧ c.keys.get? (ascii "u") = some (ascii "k") := by
  obtain ⟨c, hc⟩ : ∃ c, Config.load ⟨fun k => if k = authEnv then ascii "\x7b\"u\":[\"k\",\"a\"]\x7d" else [],
        fun c => .ok c, fun c _ => .ok { c with
          devices := ⟨[(ascii "u", ascii "t")], List.nodup_singleton _⟩
          secret := ascii "AAAAAAAAAAAAAAAAAAAAAA==" },
        fun _ => false, fun _ => .error (), fun h => Except.ok.inj h ▸ rfl,
        fun h => Except.ok.inj h ▸ rfl⟩ (fun d f => d ++ ascii "/" ++ f) [] (ascii "config.json")
      {} = .ok c := ⟨_, rfl⟩
  obtain ⟨c1, m, ids, h1, hm, hids, hk⟩ := load_devices_keys _ _ hc
  cases h1
  obtain ⟨-, rfl⟩ | ⟨-, h, -⟩ := hids
  · rcases hm with ⟨h, -⟩ | ⟨b, hb, hu⟩
    · cases h
    · cases hb
      have hm : m = ⟨[(ascii "u", [ascii "k", ascii "a"])], List.nodup_singleton _⟩ :=
        Except.ok.inj (hu.symm.trans rfl)
      subst hm
      exact ⟨c, hc, (hk _).1, (hk _).2⟩
  · cases h

/-! ## Where `Load` panics -/

/-- The loop of `loadAuthMap` panics exactly when an entry has fewer than two strings. -/
theorem addAuthEntries_panics_iff {l : List (GoString × List GoString)} :
    ∀ {keys devices : GoMap GoString},
      (∃ r, (addAuthEntries keys devices l : Outcome (LoadError ε) _) = .panic r) ↔
        ∃ kv ∈ l, kv.2.length < 2 := by
  induction l with
  | nil => simp [addAuthEntries]
  | cons kv rest ih =>
    intro keys devices
    obtain ⟨k, _ | ⟨v0, _ | ⟨v1, vs⟩⟩⟩ := kv
    · simp [addAuthEntries, index]
    · simp [addAuthEntries, index]
    · simp [addAuthEntries, index, ih]

/-- The text `loadAuthMap` reads: `UBIRCH_AUTH_MAP` when it is set, else `auth.json`
in `configDir` when `os.Stat` finds it. -/
theorem readAuthMap_eq_some {c : Config} {b : GoString} :
    c.readAuthMap src join = .ok (some b) ↔
      (src.getenv authEnv ≠ [] ∧ b = src.getenv authEnv) ∨
      (src.getenv authEnv = [] ∧ src.stat authFile = true ∧ src.readFile (join c.configDir authFile) = .ok b) := by
  unfold Config.readAuthMap
  by_cases he : src.getenv authEnv = []
  · cases hs : src.stat authFile <;> cases src.readFile (join c.configDir authFile) <;> simp [he, hs]
  · simp [he, @eq_comm _ b]

theorem loadAuthMap_panic_iff {c : Config} :
    (∃ r, c.loadAuthMap src join = .panic r) ↔
      ∃ b m, c.readAuthMap src join = .ok (some b) ∧ unmarshalInto intoAuthMap b = .ok m ∧
        ∃ kv ∈ m.entries, kv.2.length < 2 := by
  constructor
  · rintro ⟨r, h⟩
    unfold Config.loadAuthMap at h
    obtain h | ⟨o, ho, h⟩ := Outcome.bind_eq_panic.1 h
    · exact absurd h (Outcome.ofExcept_ne_panic _ _)
    rw [Outcome.ofExcept_eq_ok] at ho
    obtain _ | b := o
    · cases h
    obtain h | ⟨m, hm, h⟩ := Outcome.bind_eq_panic.1 h
    · exact absurd h (Outcome.ofExcept_ne_panic _ _)
    rw [Outcome.ofExcept_eq_ok, mapError_eq_ok] at hm
    obtain h | ⟨⟨keys, devices⟩, -, h⟩ := Outcome.bind_eq_panic.1 h
    · exact ⟨b, m, ho, hm, addAuthEntries_panics_iff.1 ⟨r, h⟩⟩
    · cases h
  · rintro ⟨b, m, hr, hm, hs⟩
    obtain ⟨r, hp⟩ := (@addAuthEntries_panics_iff ε m.entries c.keys c.devices).2 hs
    exact ⟨r, by simp [Config.loadAuthMap, hr, hm, hp, Except.mapError]⟩

/-- The settings `Load` reads keep the `configDir` it was given. -/
theorem loadSettings_configDir {configDir filename : GoString} {c0 c1 : Config}
    (h : (if src.getenv (ascii "UBIRCH_SECRET") ≠ [] then src.loadEnv { c0 with configDir }
      else src.loadFile { c0 with configDir } filename) = .ok c1) : c1.configDir = configDir := by
  split at h
  · exact src.loadEnv_configDir h
  · exact src.loadFile_configDir h

/-- `Load` panics exactly when the settings load, the secret decodes, and the auth map
`loadAuthMap` reads, `UBIRCH_AUTH_MAP` or else `auth.json` in `configDir`, decodes
with an entry of fewer than two strings. -/
theorem load_panics_only_on_short_entry {configDir filename : GoString} {c0 : Config} :
    (∃ r, Config.load src join configDir filename c0 = .panic r) ↔
      ∃ (c1 : Config) (sb b : GoString) (m : GoMap (List GoString)),
        (if src.getenv (ascii "UBIRCH_SECRET") ≠ [] then src.loadEnv { c0 with configDir }
          else src.loadFile { c0 with configDir } filename) = .ok c1 ∧
        base64Decode c1.secret = .ok sb ∧
        ((src.getenv authEnv ≠ [] ∧ b = src.getenv authEnv) ∨
          (src.getenv authEnv = [] ∧ src.stat authFile = true ∧
            src.readFile (join configDir authFile) = .ok b)) ∧
        unmarshalInto intoAuthMap b = .ok m ∧ ∃ kv ∈ m.entries, kv.2.length < 2 := by
  simp only [Config.load, Outcome.bind_eq_panic, Outcome.ofExcept_ne_panic, Outcome.ofExcept_eq_ok,
    mapError_eq_ok, false_or, and_false, exists_false, or_false]
  constructor
  · rintro ⟨r, c1, h1, sb, hs, hp⟩
    obtain ⟨b, m, hr, hm, he⟩ := (loadAuthMap_panic_iff src join).1 ⟨r, hp⟩
    rw [readAuthMap_eq_some] at hr
    simp only [loadSettings_configDir src h1] at hr
    exact ⟨c1, sb, b, m, h1, hs, hr, hm, he⟩
  · rintro ⟨c1, sb, b, m, h1, hs, hr, hm, he⟩
    have hr' : ({ c1 with secretBytes := sb } : Config).readAuthMap src join = .ok (some b) := by
      rw [readAuthMap_eq_some]
      simpa only [loadSettings_configDir src h1] using hr
    obtain ⟨r, hp⟩ := (loadAuthMap_panic_iff src join).2 ⟨b, m, hr', hm, he⟩
    exact ⟨r, c1, h1, sb, hs, hp⟩

/-- `UBIRCH_AUTH_MAP={"u":["k"]}`: `loadAuthMap` reads `v[1]` of a one-element list. -/
theorem load_panics_on_short_entry (join : GoString → GoString → GoString) :
    Config.load ⟨fun k => if k = authEnv then ascii "\x7b\"u\":[\"k\"]\x7d" else [],
        fun c => .ok c, fun c _ => .ok c, fun _ => false, fun _ => .error (),
        fun h => Except.ok.inj h ▸ rfl,
        fun h => Except.ok.inj h ▸ rfl⟩
      join [] (ascii "config.json") {} = .panic (.indexOutOfRange 1 1) :=
  rfl

end

end UbirchClient.Client
