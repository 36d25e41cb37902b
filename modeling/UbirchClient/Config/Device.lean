import UbirchClient.Config.Client
set_option autoImplicit false

/-!
# The device configuration: `Config.Load` of `main/config.go`

WHAT THIS FILE IS FOR.  The device's `Config.Load` reads its settings from the
environment (when `UBIRCH_DEVICES` is set) or from `config.json` under `Path`,
decodes the base64 secret, runs `checkMandatory`, and then the defaults:
`setDefaultTLS`, and `setDefaultURLs`, which takes the backend environment back out
of the `Niomon` URL as `strings.Split(c.Niomon, ".")[1]`.  That index panics when the
URL has no `.`, so `Load` returns an `Outcome`.

WHAT IS A PARAMETER.  As in `Config/Client.lean`: `os.Getenv` and what the
environment and the file's decoder make of the configuration are a `Sources` record,
`filepath.Join` is `join`, and the package variable `Path` is `path`.  The fields
`Load` neither reads nor writes (`DSN`, `StaticUUID`, `Debug`) are left out.

THE PROPERTIES PROVED HERE.  `setDefaultURLs_panic_iff`: `setDefaultURLs` panics
exactly when `Niomon` is set and has no `.`.  `load_panics_only_on_dotless_niomon`:
`Load` panics exactly when the settings it reads load, decode and pass
`checkMandatory` with such a `Niomon`.  `load_panics_on_dotless_niomon` shows the panic, and
`config_load_panics` puts it together with the panic of the client's loader.
-/

namespace UbirchClient.Device

open UbirchClient.Go

/-- `DEV_STAGE`. -/
def devStage : GoString := ascii "dev"

/-- `DEMO_STAGE`. -/
def demoStage : GoString := ascii "demo"

/-- `PROD_STAGE`. -/
def prodStage : GoString := ascii "prod"

/-- `fmt.Sprintf(KEY_URL, env)`. -/
def keyURL (env : GoString) : GoString :=
  ascii "https://key." ++ env ++ ascii ".ubirch.com/api/keyService/v1/pubkey"

/-- `fmt.Sprintf(NIOMON_URL, env)`. -/
def niomonURL (env : GoString) : GoString := ascii "https://niomon." ++ env ++ ascii ".ubirch.com/"

/-- `fmt.Sprintf(VERIFY_URL, env)`. -/
def verifyURL (env : GoString) : GoString :=
  ascii "https://verify." ++ env ++ ascii ".ubirch.com/api/upp"

/-- `ConfigFile`. -/
def configFile : GoString := ascii "config.json"

/-- `Config`, each field starting at its Go zero value. -/
structure Config where
  devices : GoMap GoString := GoMap.empty
  secret : GoString := []
  env : GoString := []
  tls : Bool := false
  certFile : GoString := []
  keyFile : GoString := []
  keyService : GoString := []
  niomon : GoString := []
  verifyService : GoString := []
  secretBytes : GoString := []

/-- What `Load` reads of the process and the file system; `ε` is their error type. -/
structure Sources (ε : Type) where
  /-- `os.Getenv` -/
  getenv : GoString → GoString
  /-- `c.loadEnv()`: what `envconfig.Process("ubirch", c)` makes of `c` -/
  loadEnv : Config → Except ε Config
  /-- `c.loadFile(filename)`: what `ioutil.ReadFile` and `json.Unmarshal` make of `c` -/
  loadFile : Config → GoString → Except ε Config

/-- The errors of `Load`. -/
inductive LoadError (ε : Type) where
  /-- an error of the environment or the file system, returned as it is -/
  | source (e : ε)
  /-- `unable to decode base64 encoded secret (%s): %v` -/
  | secret (secret : GoString) (e : Base64Error)
  /-- `There are no devices authorized to use this client. ...` -/
  | noDevices
  /-- `secret length must be 16 bytes (is %d)` -/
  | secretLength (n : Nat)
  /-- `invalid UBIRCH backend environment: "%s"` -/
  | invalidEnv (env : GoString)

section

variable {ε : Type} (src : Sources ε) (join : GoString → GoString → GoString) (path : GoString)

/-- `checkMandatory`. -/
def Config.checkMandatory (c : Config) : Except (LoadError ε) Unit :=
  if c.devices.len = 0 then .error .noDevices
  else if c.secretBytes.length ≠ 16 then .error (.secretLength c.secretBytes.length)
  else .ok ()

/-- `setDefaultTLS`. -/
def Config.setDefaultTLS (c : Config) : Config :=
  { c with
    certFile := if c.tls ∧ c.certFile = [] then join path (ascii "cert.pem") else c.certFile
    keyFile := if c.tls ∧ c.keyFile = [] then join path (ascii "key.pem") else c.keyFile }

/-- `setDefaultURLs`. -/
def Config.setDefaultURLs (c : Config) : Outcome (LoadError ε) Config := do
  let env := if c.env = [] then prodStage else c.env
  let niomon := if c.niomon = [] then niomonURL env else c.niomon
  let env ← index (splitByte 0x2E niomon) 1
  if ¬(env = devStage ∨ env = demoStage ∨ env = prodStage) then .error (.invalidEnv env)
  else pure { c with
    env
    niomon
    keyService := if c.keyService = [] then keyURL env else trimSuffix c.keyService (ascii "/mpack")
    verifyService := if c.verifyService = [] then verifyURL env else c.verifyService }

/-- `Config.Load()`, applied to the configuration `c`. -/
def Config.load (c : Config) : Outcome (LoadError ε) Config := do
  let c ← Outcome.ofExcept ((if src.getenv (ascii "UBIRCH_DEVICES") ≠ [] then src.loadEnv c
    else src.loadFile c (join path configFile)).mapError .source)
  let secretBytes ← Outcome.ofExcept ((base64Decode c.secret).mapError (.secret c.secret))
  let c := { c with secretBytes }
  Outcome.ofExcept c.checkMandatory
  (c.setDefaultTLS join path).setDefaultURLs

/-! ## Where `Load` panics -/

theorem dot_mem_niomonURL (env : GoString) : (0x2E : UInt8) ∈ niomonURL env :=
  List.mem_append_left _ (List.mem_append_left _ (by decide))

/-- `strings.Split(s, ".")[1]` panics exactly on a string without a `.`. -/
theorem index_split_panic_iff {s : GoString} {r : RuntimeError} :
    (index (splitByte 0x2E s) 1 : Outcome (LoadError ε) GoString) = .panic r ↔
      0x2E ∉ s ∧ r = .indexOutOfRange 1 1 := by
  rw [index_eq_panic]
  by_cases hs : (0x2E : UInt8) ∈ s
  · have := two_le_length_splitByte _ s hs
    simp only [hs, not_true_eq_false, false_and, iff_false, not_and]
    omega
  · simp [hs, splitByte_of_not_mem _ s hs]

/-- `setDefaultURLs` panics exactly when `Niomon` is set and holds no `.`; the default
URL always does. -/
theorem setDefaultURLs_panic_iff {c : Config} {r : RuntimeError} :
    (c.setDefaultURLs : Outcome (LoadError ε) Config) = .panic r ↔
      c.niomon ≠ [] ∧ 0x2E ∉ c.niomon ∧ r = .indexOutOfRange 1 1 := by
  simp only [Config.setDefaultURLs, Outcome.bind_eq_panic]
  have hn : ∀ env, ¬(if ¬(env = devStage ∨ env = demoStage ∨ env = prodStage) then
      (.error (.invalidEnv env) : Outcome (LoadError ε) Config) else pure { c with
        env
        niomon := if c.niomon = [] then niomonURL (if c.env = [] then prodStage else c.env)
          else c.niomon
        keyService := if c.keyService = [] then keyURL env else trimSuffix c.keyService (ascii "/mpack")
        verifyService := if c.verifyService = [] then verifyURL env else c.verifyService }) =
      .panic r := by
    intro env; split <;> simp
  simp only [hn, and_false, exists_false, or_false, index_split_panic_iff]
  by_cases h : c.niomon = []
  · simp [h, dot_mem_niomonURL]
  · simp [h]

/-- `Load` panics exactly in `setDefaultURLs`: when the settings load, the secret
decodes, `checkMandatory` passes, and the `Niomon` URL of the settings is set and holds
no `.`; the panic is `index out of range [1] with length 1`. -/
theorem load_panics_only_on_dotless_niomon {c0 : Config} {r : RuntimeError} :
    Config.load src join path c0 = .panic r ↔
      ∃ (c1 : Config) (sb : GoString),
        (if src.getenv (ascii "UBIRCH_DEVICES") ≠ [] then src.loadEnv c0
          else src.loadFile c0 (join path configFile)) = .ok c1 ∧
        base64Decode c1.secret = .ok sb ∧
        ({ c1 with secretBytes := sb } : Config).checkMandatory = (.ok () : Except (LoadError ε) Unit) ∧
        c1.niomon ≠ [] ∧ 0x2E ∉ c1.niomon ∧ r = .indexOutOfRange 1 1 := by
  simp only [Config.load, Outcome.bind_eq_panic, Outcome.ofExcept_ne_panic, Outcome.ofExcept_eq_ok,
    mapError_eq_ok, false_or, setDefaultURLs_panic_iff]
  exact ⟨fun ⟨c1, h1, sb, hs, _, hm, h⟩ => ⟨c1, sb, h1, hs, hm, h⟩,
    fun ⟨c1, sb, h1, hs, hm, h⟩ => ⟨c1, h1, sb, hs, (), hm, h⟩⟩

end

/-- A configuration whose `Niomon` is `http://localhost:8080`: `Load` panics. -/
theorem load_panics_on_dotless_niomon (join : GoString → GoString → GoString) (path : GoString) :
    Config.load ⟨fun _ => [], fun c => .ok c,
        fun c _ => .ok { c with
          devices := ⟨[(ascii "u", ascii "t")], List.nodup_singleton _⟩
          secret := ascii "AAAAAAAAAAAAAAAAAAAAAA=="
          niomon := ascii "http://localhost:8080" }⟩ join path {} =
      (.panic (.indexOutOfRange 1 1) : Outcome (LoadError Unit) Config) :=
  rfl

/-- Both loaders panic on an input they read: the client's on the auth map
`{"u":["k"]}`, the device's on a `Niomon` URL without a `.`. -/
theorem config_load_panics (join : GoString → GoString → GoString) (path : GoString) :
    Client.Config.load ⟨fun k => if k = Client.authEnv then ascii "\x7b\"u\":[\"k\"]\x7d" else [],
        fun c => .ok c, fun c _ => .ok c, fun _ => false, fun _ => .error (),
        fun h => Except.ok.inj h ▸ rfl, fun h => Except.ok.inj h ▸ rfl⟩
      join [] (ascii "config.json") {} = .panic (.indexOutOfRange 1 1) ∧
    Config.load ⟨fun _ => [], fun c => .ok c,
        fun c _ => .ok { c with
          devices := ⟨[(ascii "u", ascii "t")], List.nodup_singleton _⟩
          secret := ascii "AAAAAAAAAAAAAAAAAAAAAA=="
          niomon := ascii "http://localhost:8080" }⟩ join path {} =
      (.panic (.indexOutOfRange 1 1) : Outcome (LoadError Unit) Config) :=
  ⟨Client.load_panics_on_short_entry join, load_panics_on_dotless_niomon join path⟩

end UbirchClient.Device
