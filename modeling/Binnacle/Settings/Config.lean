import Mathlib.Algebra.Order.Ring.Unbundled.Rat
import Binnacle.Clock
import Binnacle.Netip
import Binnacle.Relational.Statement
import Binnacle.Relational.Table
import Binnacle.Text

/-!
# Configuration

Model of `internal/settings/settings.go`: the configuration with its defaults, the
retention presets, and `Validate`.

- `Library`: the functions of the standard library on texts, as parameters.
- `Config`, `defaults`, `retentionPreset`, `Config.normalize`, `Config.validate`.

A ratio is exact, and `none` stands for NaN and the infinities, which pass no check.
Maps are iterated in the order of a `RowOrder`.
-/

namespace Binnacle.Settings

open Relational

/-! ## The library -/

structure URL where
  scheme : String
  hostname : String
  hasUser : Bool

structure Library where
  toLower : String → String
  /-- `strings.TrimRight`. -/
  trimRight : String → String → String
  split : String → String → List String
  parseDuration : String → Except String Duration
  atoi : String → Except String Int
  parseInt : String → Except String Int
  parseFloat : String → Except String (Option Rat)
  parseBool : String → Except String Bool
  /-- `filepath.Join` of two parts. -/
  joinPath : String → String → String
  isAbs : String → Bool
  splitHostPort : String → Except String (String × String)
  parsePrefix : String → Except String Netip.Prefix
  parseURL : String → Except String URL
  /-- `json.Marshal` of a text. -/
  marshal : String → String
  unmarshal : String → Except String String
  unmarshal_marshal : ∀ text, unmarshal (marshal text) = .ok text
  toLower_preset : ∀ name ∈ ["minimal", "balanced", "long-term", "advanced"], toLower name = name

/-! ## The configuration -/

structure Paths where
  dataDir : String
  databasePath : String
  runtimeDir : String
  hostProc : String
  hostSys : String
  hostPasswd : String
  masterKey : String
  masterKeyFile : String
  masterKeyLoadedFromFile : Bool
  deriving DecidableEq

structure HTTP where
  listenAddress : String
  trustedProxyCIDRs : List String
  deriving DecidableEq

structure Collection where
  hostInterval : Duration
  containerInterval : Duration
  minimumInterval : Duration
  deriving DecidableEq

structure Persistence where
  rawInterval : Duration
  queueBatchLimit : Int
  deriving DecidableEq

structure Retention where
  preset : String
  raw : Duration
  oneMinute : Duration
  fifteenMinute : Duration
  oneHour : Duration
  deriving DecidableEq

structure Database where
  targetBudgetBytes : Int
  warningRatio : Option Rat
  criticalRatio : Option Rat
  emergencyPauseRatio : Option Rat
  deriving DecidableEq

structure Docker where
  socketPath : String
  maxConcurrency : Int
  deriving DecidableEq

structure Notifications where
  allowPrivateTargets : Bool
  maxConcurrency : Int
  queueCapacity : Int
  deliveryTimeout : Duration
  reminderInterval : Duration
  deriving DecidableEq

structure Logs where
  maxResponseBytes : Int
  maxLines : Int
  redactionPatterns : List String
  deriving DecidableEq

structure Sessions where
  idleTimeout : Duration
  absoluteLifetime : Duration
  deriving DecidableEq

structure Coolify where
  url : String
  apiToken : String
  apiTokenFile : String
  allowInsecureHTTP : Bool
  deriving DecidableEq

structure Auth where
  mode : String
  proxyCIDRs : List String
  identityHeader : String
  allowedSubject : String
  deriving DecidableEq

structure Features where
  advancedAuth : Bool
  portability : Bool
  deriving DecidableEq

/-- `Config` (settings.go:15-34); the records with one field are that field. -/
structure Config where
  paths : Paths
  http : HTTP
  collection : Collection
  sseInterval : Duration
  persistence : Persistence
  retention : Retention
  database : Database
  maxPointsPerSeries : Int
  docker : Docker
  checksMaxConcurrency : Int
  notifications : Notifications
  logs : Logs
  coolify : Coolify
  auth : Auth
  features : Features
  prometheusEnabled : Bool
  sessions : Sessions
  demo : Bool
  deriving DecidableEq

def day : Duration := 24 * hour

/-- `Defaults` (settings.go:121-127). -/
def defaults : Config where
  paths :=
    { dataDir := "/var/lib/binnacle", databasePath := "", runtimeDir := "", hostProc := "/proc"
      hostSys := "/sys", hostPasswd := "/host/etc/passwd", masterKey := "", masterKeyFile := ""
      masterKeyLoadedFromFile := false }
  http := { listenAddress := ":8080", trustedProxyCIDRs := [] }
  collection :=
    { hostInterval := 2 * second, containerInterval := 2 * second, minimumInterval := second }
  sseInterval := 2 * second
  persistence := { rawInterval := 10 * second, queueBatchLimit := 60 }
  retention :=
    { preset := "balanced", raw := 48 * hour, oneMinute := 30 * day, fifteenMinute := 365 * day
      oneHour := 0 }
  database :=
    { targetBudgetBytes := 1073741824, warningRatio := some (80 / 100)
      criticalRatio := some (95 / 100), emergencyPauseRatio := some (98 / 100) }
  maxPointsPerSeries := 1000
  docker := { socketPath := "/var/run/docker.sock", maxConcurrency := 4 }
  checksMaxConcurrency := 8
  notifications :=
    { allowPrivateTargets := false, maxConcurrency := 4, queueCapacity := 1000
      deliveryTimeout := 15 * second, reminderInterval := 2 * hour }
  logs := { maxResponseBytes := 1048576, maxLines := 5000, redactionPatterns := [] }
  coolify := { url := "", apiToken := "", apiTokenFile := "", allowInsecureHTTP := false }
  auth :=
    { mode := "local", proxyCIDRs := [], identityHeader := "X-Forwarded-User"
      allowedSubject := "" }
  features := { advancedAuth := false, portability := false }
  prometheusEnabled := false
  sessions := { idleTimeout := 12 * hour, absoluteLifetime := 720 * hour }
  demo := false

/-- `RetentionPreset` (settings.go:128-138). -/
def retentionPreset (name : String) : Option Retention :=
  if name = "minimal" then
    some { preset := name, raw := 12 * hour, oneMinute := 7 * day, fifteenMinute := 90 * day
           oneHour := 365 * day }
  else if name = "balanced" then some defaults.retention
  else if name = "long-term" then
    some { preset := name, raw := 7 * day, oneMinute := 90 * day, fifteenMinute := 2 * 365 * day
           oneHour := 0 }
  else none

/-- `Normalize` (settings.go:140-147). -/
def Config.normalize (lib : Library) (c : Config) : Config :=
  let runtimeDir :=
    if c.paths.runtimeDir = "" then lib.joinPath c.paths.dataDir "runtime" else c.paths.runtimeDir
  let databasePath :=
    if c.paths.databasePath = "" then lib.joinPath c.paths.dataDir "binnacle.db"
    else c.paths.databasePath
  { c with paths := { c.paths with runtimeDir, databasePath } }

/-! ## Validation -/

def refuse (condition : Bool) (text : String) : Except String Unit :=
  if condition then .error text else .ok ()

/-- `validateExactProxy` (settings.go:235-244). -/
def validateExactProxy (lib : Library) (value : String) : Except String Unit := do
  let network ← lib.parsePrefix value
  refuse (network.bits ≠ network.addr.bitLen)
    "must identify one exact host (/32 for IPv4 or /128 for IPv6)"

/-- The URL of Coolify is refused (settings.go:205-210). -/
def Coolify.badURL (lib : Library) (c : Coolify) : Bool :=
  match lib.parseURL c.url with
  | .error _ => true
  | .ok u => u.hostname = "" || u.hasUser ||
      (u.scheme ≠ "https" && !(c.allowInsecureHTTP && u.scheme = "http"))

/-- The ratios are ordered between zero and one (settings.go:214). -/
def Database.ratiosOrdered (d : Database) : Bool :=
  match d.warningRatio, d.criticalRatio, d.emergencyPauseRatio with
  | some warning, some critical, some emergency =>
    0 < warning && warning < critical && critical < emergency && emergency ≤ 1
  | _, _, _ => false

/-- The checks of `Validate` before those of the retention (settings.go:149-216), in the
order they are made. -/
def Config.checks (lib : Library) (order : RowOrder) (c : Config) : List (Except String Unit) :=
  [(order.arrange
      [("data_dir", c.paths.dataDir), ("database_path", c.paths.databasePath),
       ("runtime_dir", c.paths.runtimeDir), ("host_proc", c.paths.hostProc),
       ("host_sys", c.paths.hostSys), ("host_passwd", c.paths.hostPasswd),
       ("docker.socket_path", c.docker.socketPath)]).forM fun (name, path) =>
        refuse (path = "" || !lib.isAbs path) (name ++ " must be an absolute path"),
   ((lib.splitHostPort c.http.listenAddress).mapError
     ("http.listen_address: " ++ ·)).map fun _ => (),
   c.http.trustedProxyCIDRs.forM fun cidr =>
     (validateExactProxy lib cidr).mapError ("http.trusted_proxy_cidrs: " ++ ·),
   refuse (c.auth.mode ≠ "local" && c.auth.mode ≠ "proxy" && c.auth.mode ≠ "local_and_proxy")
     "auth.mode must be local, proxy, or local_and_proxy",
   c.auth.proxyCIDRs.forM fun cidr =>
     (validateExactProxy lib cidr).mapError ("auth.proxy_cidrs: " ++ ·),
   refuse (c.paths.masterKeyFile ≠ "" && !lib.isAbs c.paths.masterKeyFile)
     "paths.master_key_file must be an absolute path",
   refuse (c.paths.masterKeyFile ≠ "" && c.paths.masterKey ≠ "" && !c.paths.masterKeyLoadedFromFile)
     "paths.master_key and paths.master_key_file cannot both be configured",
   refuse (c.auth.mode ≠ "local" && (c.auth.proxyCIDRs.isEmpty ||
       trimSpace c.auth.identityHeader = "" || trimSpace c.auth.allowedSubject = ""))
     "proxy auth requires proxy_cidrs, identity_header, and allowed_subject",
   refuse (!c.features.advancedAuth && c.auth.mode ≠ "local")
     "proxy authentication requires features.advanced_auth=true",
   refuse (!c.features.portability && c.prometheusEnabled)
     "prometheus requires features.portability=true",
   refuse (c.collection.minimumInterval ≤ 0 ||
       c.collection.hostInterval < c.collection.minimumInterval ||
       c.collection.containerInterval < c.collection.minimumInterval)
     "collection intervals must be at least minimum_interval",
   (order.arrange
      [("live.sse_interval", c.sseInterval),
       ("persistence.raw_interval", c.persistence.rawInterval),
       ("sessions.idle_timeout", c.sessions.idleTimeout),
       ("sessions.absolute_lifetime", c.sessions.absoluteLifetime)]).forM fun (name, d) =>
        refuse (d ≤ 0) (name ++ " must be positive"),
   refuse (c.sessions.absoluteLifetime < c.sessions.idleTimeout)
     "sessions.absolute_lifetime must be at least idle_timeout",
   refuse (c.persistence.queueBatchLimit ≤ 0 || c.maxPointsPerSeries ≤ 0 ||
       c.docker.maxConcurrency ≤ 0 || c.checksMaxConcurrency ≤ 0 || c.logs.maxResponseBytes ≤ 0 ||
       c.logs.maxLines ≤ 0 || c.database.targetBudgetBytes ≤ 0)
     "limits and budgets must be positive",
   refuse (c.logs.maxResponseBytes > 1048576 || c.logs.maxLines > 5000 ||
       c.logs.redactionPatterns.length > 16)
     "log limits exceed the supported ceilings",
   refuse (c.coolify.url ≠ "" && c.coolify.badURL lib) "coolify.url must be a valid HTTPS URL",
   refuse (c.notifications.maxConcurrency < 1 || c.notifications.maxConcurrency > 32 ||
       c.notifications.queueCapacity < 1 || c.notifications.queueCapacity > 10000 ||
       c.notifications.deliveryTimeout < second || c.notifications.deliveryTimeout > minute ||
       c.notifications.reminderInterval < minute || c.notifications.reminderInterval > 24 * hour)
     "notification limits are outside supported bounds",
   refuse (!c.database.ratiosOrdered) "database ratios must be ordered between zero and one"]

/-- The checks of the retention (settings.go:217-222): the tiers of a preset other than
`advanced` are not looked at. -/
def Retention.validate (r : Retention) : Except String Unit := do
  refuse (r.preset ≠ "minimal" && r.preset ≠ "balanced" && r.preset ≠ "long-term" &&
      r.preset ≠ "advanced")
    "retention.preset must be minimal, balanced, long-term, or advanced"
  refuse (r.preset = "advanced" && !(r.raw > 0 && r.oneMinute > r.raw &&
      r.fifteenMinute > r.oneMinute && (r.oneHour = 0 || r.oneHour > r.fifteenMinute)))
    "advanced retention tiers must be ordered"

/-- `Validate` (settings.go:148-224). -/
def Config.validate (lib : Library) (order : RowOrder) (c : Config) : Except String Unit := do
  ((c.normalize lib).checks lib order).forM id
  c.retention.validate

/-- `UIOverridable` (settings.go:227-233). -/
def uiOverridable (key : String) : Bool :=
  ! ["paths.data_dir", "paths.database_path", "paths.runtime_dir", "paths.master_key",
    "paths.master_key_file", "http.listen_address", "docker.socket_path", "paths.host_proc",
    "paths.host_sys", "paths.host_passwd", "coolify.url", "coolify.api_token_file",
    "coolify.allow_insecure_http", "auth.mode", "auth.proxy_cidrs", "auth.identity_header",
    "auth.allowed_subject", "features.advanced_auth", "features.portability",
    "prometheus.enabled", "notifications.allow_private_targets",
    "notifications.max_concurrency", "notifications.queue_capacity",
    "notifications.delivery_timeout", "notifications.reminder_interval"].contains key

/-! ## Tiers -/

inductive RetentionTier where
  | raw
  | oneMinute
  | fifteenMinute
  | oneHour
  deriving DecidableEq

abbrev Tiers := RetentionTier → Duration

def Retention.tiers (r : Retention) : Tiers
  | .raw => r.raw
  | .oneMinute => r.oneMinute
  | .fifteenMinute => r.fifteenMinute
  | .oneHour => r.oneHour

/-- Coarser tiers are kept longer; the coarsest may be kept forever. -/
structure Ordered (tiers : Tiers) : Prop where
  raw : 0 < tiers .raw
  oneMinute : tiers .raw < tiers .oneMinute
  fifteenMinute : tiers .oneMinute < tiers .fifteenMinute
  oneHour : tiers .oneHour = 0 ∨ tiers .fifteenMinute < tiers .oneHour

instance (tiers : Tiers) : Decidable (Ordered tiers) :=
  decidable_of_iff (0 < tiers .raw ∧ tiers .raw < tiers .oneMinute ∧
      tiers .oneMinute < tiers .fifteenMinute ∧
      (tiers .oneHour = 0 ∨ tiers .fifteenMinute < tiers .oneHour))
    ⟨fun ⟨h, h', h'', h'''⟩ => ⟨h, h', h'', h'''⟩, fun ⟨h, h', h'', h'''⟩ => ⟨h, h', h'', h'''⟩⟩

theorem refuse_ok {condition : Bool} {text : String} {u : Unit} :
    refuse condition text = .ok u ↔ condition = false := by
  cases condition with
  | false => exact iff_of_true rfl rfl
  | true => exact iff_of_false (fun h => (nomatch h)) fun h => (nomatch h)

@[simp] theorem Config.retention_normalize (lib : Library) (c : Config) :
    (c.normalize lib).retention = c.retention := rfl

theorem forM_ok_iff {α : Type} {f : α → Except String Unit} {l : List α} :
    l.forM f = .ok () ↔ ∀ a ∈ l, f a = .ok () := by
  induction l with
  | nil => exact iff_of_true rfl nofun
  | cons a l ih =>
    show (f a >>= fun _ => l.forM f) = .ok () ↔ _
    rw [bind_ok, List.forall_mem_cons, ← ih]
    exact ⟨fun ⟨_, h, h'⟩ => ⟨h, h'⟩, fun ⟨h, h'⟩ => ⟨(), h, h'⟩⟩

variable {order : RowOrder}

theorem forM_arrange_ok_iff {α : Type} {f : α → Except String Unit} {l : List α} :
    (order.arrange l).forM f = .ok () ↔ l.forM f = .ok () := by
  rw [forM_ok_iff, forM_ok_iff]
  exact ⟨fun h a ha => h a (order.mem_arrange.mpr ha), fun h a ha => h a (order.mem_arrange.mp ha)⟩

theorem Config.validate_ok_iff {lib : Library} {c : Config} :
    c.validate lib order = .ok () ↔
      (∀ check ∈ (c.normalize lib).checks lib order, check = .ok ()) ∧
        c.retention.validate = .ok () := by
  unfold Config.validate
  rw [bind_ok]
  exact ⟨fun ⟨_, h, h'⟩ => ⟨forM_ok_iff.mp h, h'⟩, fun ⟨h, h'⟩ => ⟨(), forM_ok_iff.mpr h, h'⟩⟩

theorem Config.validate_order {lib : Library} {order' : RowOrder} {c : Config}
    (h : c.validate lib order = .ok ()) : c.validate lib order' = .ok () := by
  rw [validate_ok_iff] at h ⊢
  refine ⟨?_, h.2⟩
  have hchecks := h.1
  unfold Config.checks at hchecks ⊢
  simp only [List.forall_mem_cons, forM_arrange_ok_iff] at hchecks ⊢
  exact hchecks

theorem Config.validate_coolifyURL {lib : Library} {c : Config} {url : String}
    (h : c.validate lib order = .ok ())
    (hurl : ({ c.coolify with url } : Coolify).badURL lib = false) :
    ({ c with coolify := { c.coolify with url } } : Config).validate lib order = .ok () := by
  rw [validate_ok_iff] at h ⊢
  refine ⟨?_, h.2⟩
  have hchecks := h.1
  unfold Config.checks Config.normalize at hchecks ⊢
  simp only [List.forall_mem_cons, refuse_ok, hurl, Bool.and_false] at hchecks ⊢
  tauto

theorem Config.ordered_of_validate {lib : Library} {c : Config} (h : c.validate lib order = .ok ())
    (hadvanced : c.retention.preset = "advanced") : Ordered c.retention.tiers := by
  obtain ⟨-, hretention⟩ := validate_ok_iff.mp h
  obtain ⟨_, -, htiers⟩ := bind_ok.mp hretention
  rw [refuse_ok, hadvanced] at htiers
  simp only [decide_true, Bool.true_and, Bool.not_eq_false', Bool.and_eq_true,
    Bool.or_eq_true, decide_eq_true_eq] at htiers
  obtain ⟨⟨⟨hraw, hminute⟩, hfifteen⟩, hhour⟩ := htiers
  exact ⟨hraw, hminute, hfifteen, hhour⟩

theorem name_of_retentionPreset {name : String} {r : Retention}
    (h : retentionPreset name = some r) :
    name ∈ ["minimal", "balanced", "long-term", "advanced"] := by
  unfold retentionPreset at h
  split at h
  next hname => exact List.mem_of_elem_eq_true (by rw [hname]; rfl)
  split at h
  next hname => exact List.mem_of_elem_eq_true (by rw [hname]; rfl)
  split at h
  next hname => exact List.mem_of_elem_eq_true (by rw [hname]; rfl)
  cases h

end Binnacle.Settings
