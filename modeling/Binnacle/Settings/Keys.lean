import Binnacle.Layers
import Binnacle.Settings.Config

/-!
# Keys of the configuration

The keys that the switch of `apply` (`internal/settings/load.go`) tells apart: the name of
each, the field it stands for and how its text is read.

- `Key.Value`, `Config.get`, `Config.set`: the fields as one family over the keys.
- `Config.under`: a layer of settings over a configuration, of which writing one key is
  the simplest; layers one after the other are one layer.
-/

namespace Binnacle.Settings

open Relational Layers

/-- The keys that `apply` knows (load.go:263-389). -/
inductive Key where
  | dataDir
  | databasePath
  | runtimeDir
  | hostProc
  | hostSys
  | hostPasswd
  | masterKey
  | masterKeyFile
  | coolifyURL
  | coolifyTokenFile
  | coolifyInsecureHTTP
  | authMode
  | authProxyCIDRs
  | authIdentityHeader
  | authAllowedSubject
  | prometheusEnabled
  | advancedAuth
  | portability
  | listenAddress
  | trustedProxyCIDRs
  | hostInterval
  | containerInterval
  | minimumInterval
  | sseInterval
  | rawInterval
  | queueBatchLimit
  | preset
  | tier (t : RetentionTier)
  | targetBudgetBytes
  | warningRatio
  | criticalRatio
  | emergencyPauseRatio
  | maxPointsPerSeries
  | socketPath
  | dockerMaxConcurrency
  | checksMaxConcurrency
  | allowPrivateTargets
  | notificationsMaxConcurrency
  | queueCapacity
  | deliveryTimeout
  | reminderInterval
  | maxResponseBytes
  | maxLines
  | redactionPatterns
  | idleTimeout
  | absoluteLifetime
  | demo
  deriving DecidableEq

def RetentionTier.text : RetentionTier → String
  | .raw => "raw"
  | .oneMinute => "one_minute"
  | .fifteenMinute => "fifteen_minute"
  | .oneHour => "one_hour"

def Key.text : Key → String
  | .dataDir => "paths.data_dir"
  | .databasePath => "paths.database_path"
  | .runtimeDir => "paths.runtime_dir"
  | .hostProc => "paths.host_proc"
  | .hostSys => "paths.host_sys"
  | .hostPasswd => "paths.host_passwd"
  | .masterKey => "paths.master_key"
  | .masterKeyFile => "paths.master_key_file"
  | .coolifyURL => "coolify.url"
  | .coolifyTokenFile => "coolify.api_token_file"
  | .coolifyInsecureHTTP => "coolify.allow_insecure_http"
  | .authMode => "auth.mode"
  | .authProxyCIDRs => "auth.proxy_cidrs"
  | .authIdentityHeader => "auth.identity_header"
  | .authAllowedSubject => "auth.allowed_subject"
  | .prometheusEnabled => "prometheus.enabled"
  | .advancedAuth => "features.advanced_auth"
  | .portability => "features.portability"
  | .listenAddress => "http.listen_address"
  | .trustedProxyCIDRs => "http.trusted_proxy_cidrs"
  | .hostInterval => "collection.host_interval"
  | .containerInterval => "collection.container_interval"
  | .minimumInterval => "collection.minimum_interval"
  | .sseInterval => "live.sse_interval"
  | .rawInterval => "persistence.raw_interval"
  | .queueBatchLimit => "persistence.queue_batch_limit"
  | .preset => "retention.preset"
  | .tier t => "retention." ++ t.text
  | .targetBudgetBytes => "database.target_budget_bytes"
  | .warningRatio => "database.warning_ratio"
  | .criticalRatio => "database.critical_ratio"
  | .emergencyPauseRatio => "database.emergency_pause_ratio"
  | .maxPointsPerSeries => "charts.max_points_per_series"
  | .socketPath => "docker.socket_path"
  | .dockerMaxConcurrency => "docker.max_concurrency"
  | .checksMaxConcurrency => "checks.max_concurrency"
  | .allowPrivateTargets => "notifications.allow_private_targets"
  | .notificationsMaxConcurrency => "notifications.max_concurrency"
  | .queueCapacity => "notifications.queue_capacity"
  | .deliveryTimeout => "notifications.delivery_timeout"
  | .reminderInterval => "notifications.reminder_interval"
  | .maxResponseBytes => "logs.max_response_bytes"
  | .maxLines => "logs.max_lines"
  | .redactionPatterns => "logs.redaction_patterns"
  | .idleTimeout => "sessions.idle_timeout"
  | .absoluteLifetime => "sessions.absolute_lifetime"
  | .demo => "demo"

def Key.all : List Key :=
  [.dataDir, .databasePath, .runtimeDir, .hostProc, .hostSys, .hostPasswd, .masterKey,
   .masterKeyFile, .coolifyURL, .coolifyTokenFile, .coolifyInsecureHTTP, .authMode,
   .authProxyCIDRs, .authIdentityHeader, .authAllowedSubject, .prometheusEnabled, .advancedAuth,
   .portability, .listenAddress, .trustedProxyCIDRs, .hostInterval, .containerInterval,
   .minimumInterval, .sseInterval, .rawInterval, .queueBatchLimit, .preset, .tier .raw,
   .tier .oneMinute, .tier .fifteenMinute, .tier .oneHour, .targetBudgetBytes, .warningRatio,
   .criticalRatio, .emergencyPauseRatio, .maxPointsPerSeries, .socketPath, .dockerMaxConcurrency,
   .checksMaxConcurrency, .allowPrivateTargets, .notificationsMaxConcurrency, .queueCapacity,
   .deliveryTimeout, .reminderInterval, .maxResponseBytes, .maxLines, .redactionPatterns,
   .idleTimeout, .absoluteLifetime, .demo]

def Key.ofText (text : String) : Option Key := Key.all.find? fun k => k.text = text

@[reducible] def Key.Value : Key → Type
  | .hostInterval | .containerInterval | .minimumInterval | .sseInterval | .rawInterval |
    .tier _ | .deliveryTimeout | .reminderInterval | .idleTimeout | .absoluteLifetime => Duration
  | .queueBatchLimit | .targetBudgetBytes | .maxPointsPerSeries | .dockerMaxConcurrency |
    .checksMaxConcurrency | .notificationsMaxConcurrency | .queueCapacity | .maxResponseBytes |
    .maxLines => Int
  | .warningRatio | .criticalRatio | .emergencyPauseRatio => Option Rat
  | .coolifyInsecureHTTP | .prometheusEnabled | .advancedAuth | .portability |
    .allowPrivateTargets | .demo => Bool
  | .authProxyCIDRs | .trustedProxyCIDRs | .redactionPatterns => List String
  | _ => String

def Config.get (c : Config) : (k : Key) → k.Value
  | .dataDir => c.paths.dataDir
  | .databasePath => c.paths.databasePath
  | .runtimeDir => c.paths.runtimeDir
  | .hostProc => c.paths.hostProc
  | .hostSys => c.paths.hostSys
  | .hostPasswd => c.paths.hostPasswd
  | .masterKey => c.paths.masterKey
  | .masterKeyFile => c.paths.masterKeyFile
  | .coolifyURL => c.coolify.url
  | .coolifyTokenFile => c.coolify.apiTokenFile
  | .coolifyInsecureHTTP => c.coolify.allowInsecureHTTP
  | .authMode => c.auth.mode
  | .authProxyCIDRs => c.auth.proxyCIDRs
  | .authIdentityHeader => c.auth.identityHeader
  | .authAllowedSubject => c.auth.allowedSubject
  | .prometheusEnabled => c.prometheusEnabled
  | .advancedAuth => c.features.advancedAuth
  | .portability => c.features.portability
  | .listenAddress => c.http.listenAddress
  | .trustedProxyCIDRs => c.http.trustedProxyCIDRs
  | .hostInterval => c.collection.hostInterval
  | .containerInterval => c.collection.containerInterval
  | .minimumInterval => c.collection.minimumInterval
  | .sseInterval => c.sseInterval
  | .rawInterval => c.persistence.rawInterval
  | .queueBatchLimit => c.persistence.queueBatchLimit
  | .preset => c.retention.preset
  | .tier t => c.retention.tiers t
  | .targetBudgetBytes => c.database.targetBudgetBytes
  | .warningRatio => c.database.warningRatio
  | .criticalRatio => c.database.criticalRatio
  | .emergencyPauseRatio => c.database.emergencyPauseRatio
  | .maxPointsPerSeries => c.maxPointsPerSeries
  | .socketPath => c.docker.socketPath
  | .dockerMaxConcurrency => c.docker.maxConcurrency
  | .checksMaxConcurrency => c.checksMaxConcurrency
  | .allowPrivateTargets => c.notifications.allowPrivateTargets
  | .notificationsMaxConcurrency => c.notifications.maxConcurrency
  | .queueCapacity => c.notifications.queueCapacity
  | .deliveryTimeout => c.notifications.deliveryTimeout
  | .reminderInterval => c.notifications.reminderInterval
  | .maxResponseBytes => c.logs.maxResponseBytes
  | .maxLines => c.logs.maxLines
  | .redactionPatterns => c.logs.redactionPatterns
  | .idleTimeout => c.sessions.idleTimeout
  | .absoluteLifetime => c.sessions.absoluteLifetime
  | .demo => c.demo

def Retention.setTier (r : Retention) (t : RetentionTier) (d : Duration) : Retention :=
  match t with
  | .raw => { r with raw := d }
  | .oneMinute => { r with oneMinute := d }
  | .fifteenMinute => { r with fifteenMinute := d }
  | .oneHour => { r with oneHour := d }

def Config.set (c : Config) : (k : Key) → k.Value → Config
  | .dataDir, v => { c with paths := { c.paths with dataDir := v } }
  | .databasePath, v => { c with paths := { c.paths with databasePath := v } }
  | .runtimeDir, v => { c with paths := { c.paths with runtimeDir := v } }
  | .hostProc, v => { c with paths := { c.paths with hostProc := v } }
  | .hostSys, v => { c with paths := { c.paths with hostSys := v } }
  | .hostPasswd, v => { c with paths := { c.paths with hostPasswd := v } }
  | .masterKey, v => { c with paths := { c.paths with masterKey := v } }
  | .masterKeyFile, v => { c with paths := { c.paths with masterKeyFile := v } }
  | .coolifyURL, v => { c with coolify := { c.coolify with url := v } }
  | .coolifyTokenFile, v => { c with coolify := { c.coolify with apiTokenFile := v } }
  | .coolifyInsecureHTTP, v => { c with coolify := { c.coolify with allowInsecureHTTP := v } }
  | .authMode, v => { c with auth := { c.auth with mode := v } }
  | .authProxyCIDRs, v => { c with auth := { c.auth with proxyCIDRs := v } }
  | .authIdentityHeader, v => { c with auth := { c.auth with identityHeader := v } }
  | .authAllowedSubject, v => { c with auth := { c.auth with allowedSubject := v } }
  | .prometheusEnabled, v => { c with prometheusEnabled := v }
  | .advancedAuth, v => { c with features := { c.features with advancedAuth := v } }
  | .portability, v => { c with features := { c.features with portability := v } }
  | .listenAddress, v => { c with http := { c.http with listenAddress := v } }
  | .trustedProxyCIDRs, v => { c with http := { c.http with trustedProxyCIDRs := v } }
  | .hostInterval, v => { c with collection := { c.collection with hostInterval := v } }
  | .containerInterval, v => { c with collection := { c.collection with containerInterval := v } }
  | .minimumInterval, v => { c with collection := { c.collection with minimumInterval := v } }
  | .sseInterval, v => { c with sseInterval := v }
  | .rawInterval, v => { c with persistence := { c.persistence with rawInterval := v } }
  | .queueBatchLimit, v => { c with persistence := { c.persistence with queueBatchLimit := v } }
  | .preset, v => { c with retention := { c.retention with preset := v } }
  | .tier t, v => { c with retention := c.retention.setTier t v }
  | .targetBudgetBytes, v => { c with database := { c.database with targetBudgetBytes := v } }
  | .warningRatio, v => { c with database := { c.database with warningRatio := v } }
  | .criticalRatio, v => { c with database := { c.database with criticalRatio := v } }
  | .emergencyPauseRatio, v => { c with database := { c.database with emergencyPauseRatio := v } }
  | .maxPointsPerSeries, v => { c with maxPointsPerSeries := v }
  | .socketPath, v => { c with docker := { c.docker with socketPath := v } }
  | .dockerMaxConcurrency, v => { c with docker := { c.docker with maxConcurrency := v } }
  | .checksMaxConcurrency, v => { c with checksMaxConcurrency := v }
  | .allowPrivateTargets, v =>
    { c with notifications := { c.notifications with allowPrivateTargets := v } }
  | .notificationsMaxConcurrency, v =>
    { c with notifications := { c.notifications with maxConcurrency := v } }
  | .queueCapacity, v => { c with notifications := { c.notifications with queueCapacity := v } }
  | .deliveryTimeout, v => { c with notifications := { c.notifications with deliveryTimeout := v } }
  | .reminderInterval, v =>
    { c with notifications := { c.notifications with reminderInterval := v } }
  | .maxResponseBytes, v => { c with logs := { c.logs with maxResponseBytes := v } }
  | .maxLines, v => { c with logs := { c.logs with maxLines := v } }
  | .redactionPatterns, v => { c with logs := { c.logs with redactionPatterns := v } }
  | .idleTimeout, v => { c with sessions := { c.sessions with idleTimeout := v } }
  | .absoluteLifetime, v => { c with sessions := { c.sessions with absoluteLifetime := v } }
  | .demo, v => { c with demo := v }

/-- The parts of a list, without blanks and empty ones (load.go:289-294, 308-313, 371-376). -/
def Library.listed (lib : Library) (value separator : String) : List String :=
  ((lib.split value separator).map trimSpace).filter (· ≠ "")

def Library.parse (lib : Library) (value : String) : (k : Key) → Except String k.Value
  | .dataDir => .ok value
  | .databasePath => .ok value
  | .runtimeDir => .ok value
  | .hostProc => .ok value
  | .hostSys => .ok value
  | .hostPasswd => .ok value
  | .masterKey => .ok value
  | .masterKeyFile => .ok value
  | .coolifyURL => .ok (lib.trimRight value "/")
  | .coolifyTokenFile => .ok value
  | .coolifyInsecureHTTP => lib.parseBool value
  | .authMode => .ok (lib.toLower (trimSpace value))
  | .authProxyCIDRs => .ok (lib.listed value ",")
  | .authIdentityHeader => .ok (trimSpace value)
  | .authAllowedSubject => .ok value
  | .prometheusEnabled => lib.parseBool value
  | .advancedAuth => lib.parseBool value
  | .portability => lib.parseBool value
  | .listenAddress => .ok value
  | .trustedProxyCIDRs => .ok (lib.listed value ",")
  | .hostInterval => lib.parseDuration value
  | .containerInterval => lib.parseDuration value
  | .minimumInterval => lib.parseDuration value
  | .sseInterval => lib.parseDuration value
  | .rawInterval => lib.parseDuration value
  | .queueBatchLimit => lib.atoi value
  | .preset => .ok (lib.toLower value)
  | .tier _ => lib.parseDuration value
  | .targetBudgetBytes => lib.parseInt value
  | .warningRatio => lib.parseFloat value
  | .criticalRatio => lib.parseFloat value
  | .emergencyPauseRatio => lib.parseFloat value
  | .maxPointsPerSeries => lib.atoi value
  | .socketPath => .ok value
  | .dockerMaxConcurrency => lib.atoi value
  | .checksMaxConcurrency => lib.atoi value
  | .allowPrivateTargets => lib.parseBool value
  | .notificationsMaxConcurrency => lib.atoi value
  | .queueCapacity => lib.atoi value
  | .deliveryTimeout => lib.parseDuration value
  | .reminderInterval => lib.parseDuration value
  | .maxResponseBytes => lib.parseInt value
  | .maxLines => lib.atoi value
  | .redactionPatterns => .ok (lib.listed value "||")
  | .idleTimeout => lib.parseDuration value
  | .absoluteLifetime => lib.parseDuration value
  | .demo => lib.parseBool value

/-! ## Fields as one family -/

def Config.ofGet (f : (k : Key) → k.Value) (apiToken : String) (loaded : Bool) : Config where
  paths :=
    { dataDir := f .dataDir, databasePath := f .databasePath, runtimeDir := f .runtimeDir
      hostProc := f .hostProc, hostSys := f .hostSys, hostPasswd := f .hostPasswd
      masterKey := f .masterKey, masterKeyFile := f .masterKeyFile
      masterKeyLoadedFromFile := loaded }
  http :=
    { listenAddress := f .listenAddress, trustedProxyCIDRs := f .trustedProxyCIDRs }
  collection :=
    { hostInterval := f .hostInterval, containerInterval := f .containerInterval
      minimumInterval := f .minimumInterval }
  sseInterval := f .sseInterval
  persistence :=
    { rawInterval := f .rawInterval, queueBatchLimit := f .queueBatchLimit }
  retention :=
    { preset := f .preset, raw := f (.tier .raw), oneMinute := f (.tier .oneMinute)
      fifteenMinute := f (.tier .fifteenMinute), oneHour := f (.tier .oneHour) }
  database :=
    { targetBudgetBytes := f .targetBudgetBytes, warningRatio := f .warningRatio
      criticalRatio := f .criticalRatio, emergencyPauseRatio := f .emergencyPauseRatio }
  maxPointsPerSeries := f .maxPointsPerSeries
  docker :=
    { socketPath := f .socketPath, maxConcurrency := f .dockerMaxConcurrency }
  checksMaxConcurrency := f .checksMaxConcurrency
  notifications :=
    { allowPrivateTargets := f .allowPrivateTargets
      maxConcurrency := f .notificationsMaxConcurrency, queueCapacity := f .queueCapacity
      deliveryTimeout := f .deliveryTimeout, reminderInterval := f .reminderInterval }
  logs :=
    { maxResponseBytes := f .maxResponseBytes, maxLines := f .maxLines
      redactionPatterns := f .redactionPatterns }
  coolify :=
    { url := f .coolifyURL, apiTokenFile := f .coolifyTokenFile
      allowInsecureHTTP := f .coolifyInsecureHTTP, apiToken := apiToken }
  auth :=
    { mode := f .authMode, proxyCIDRs := f .authProxyCIDRs
      identityHeader := f .authIdentityHeader, allowedSubject := f .authAllowedSubject }
  features :=
    { advancedAuth := f .advancedAuth, portability := f .portability }
  prometheusEnabled := f .prometheusEnabled
  sessions :=
    { idleTimeout := f .idleTimeout, absoluteLifetime := f .absoluteLifetime }
  demo := f .demo

@[simp] theorem get_ofGet (f : (k : Key) → k.Value) (apiToken : String) (loaded : Bool) :
    (Config.ofGet f apiToken loaded).get = f := by
  funext k
  cases k with
  | tier t => cases t <;> rfl
  | _ => rfl

theorem ofGet_get (c : Config) :
    Config.ofGet c.get c.coolify.apiToken c.paths.masterKeyLoadedFromFile = c := rfl

theorem set_eq (c : Config) (k : Key) (v : k.Value) :
    c.set k v = Config.ofGet (Function.update c.get k v) c.coolify.apiToken
      c.paths.masterKeyLoadedFromFile := by
  cases k with
  | tier t => cases t <;> rfl
  | _ => rfl

def Config.under (layer : (k : Key) → Option k.Value) (c : Config) : Config :=
  Config.ofGet (overlay layer c.get) c.coolify.apiToken c.paths.masterKeyLoadedFromFile

@[simp] theorem get_under (layer : (k : Key) → Option k.Value) (c : Config) :
    (c.under layer).get = overlay layer c.get := get_ofGet _ _ _

theorem under_under (upper lower : (k : Key) → Option k.Value) (c : Config) :
    (c.under lower).under upper = c.under fun k => (upper k).or (lower k) := by
  show Config.ofGet (overlay upper (c.under lower).get) _ _ = Config.ofGet _ _ _
  rw [get_under, overlay_overlay]
  rfl

theorem foldl_under_rows {ρ ι : Type} {key : ρ → ι} [DecidableEq ι] {t : Table key} {rows : List ρ}
    (hperm : rows.Perm t.rows) {layer : ρ → (k : Key) → Option k.Value} {place : Key → ι}
    (hplace : ∀ r k, key r ≠ place k → layer r k = none) (c : Config) :
    rows.foldl (fun c r => c.under (layer r)) c =
      c.under fun k => (t.find? (place k)).bind fun r => layer r k := by
  have hfields : ∀ (apiToken : String) (loaded : Bool) (f : (k : Key) → k.Value),
      rows.foldl (fun c r => c.under (layer r)) (Config.ofGet f apiToken loaded) =
        Config.ofGet (rows.foldl (fun f r => overlay (layer r) f) f) apiToken loaded := by
    intro apiToken loaded f
    refine List.foldl_hom (fun f => Config.ofGet f apiToken loaded) fun f r => ?_
    show Config.ofGet (overlay (layer r) (Config.ofGet f apiToken loaded).get) _ _ = _
    rw [get_ofGet]
    rfl
  rw [← ofGet_get c, hfields, foldl_overlay_rows hperm hplace]
  rfl

theorem set_eq_under (c : Config) (k : Key) (v : k.Value) :
    c.set k v = c.under (Function.update (fun _ => none) k (some v)) := by
  rw [set_eq]
  unfold Config.under
  refine congrFun (congrFun (congrArg Config.ofGet (funext fun k' => ?_)) _) _
  unfold overlay
  by_cases hk : k' = k
  · subst hk
    rw [Function.update_self, Function.update_self]
    rfl
  · rw [Function.update_of_ne hk, Function.update_of_ne hk]
    rfl

/-! ## Names -/

theorem ofText_text (k : Key) : Key.ofText k.text = some k := by
  have hall : ∀ k ∈ Key.all, Key.ofText k.text = some k := by decide +kernel
  refine hall k ?_
  cases k with
  | tier t => cases t <;> decide
  | _ => decide

theorem text_inj {k k' : Key} (h : k.text = k'.text) : k = k' := by
  have hsame := ofText_text k
  rw [h, ofText_text] at hsame
  exact (Option.some.inj hsame).symm

theorem text_of_ofText {text : String} {k : Key} (h : Key.ofText text = some k) :
    k.text = text := by
  have hfound := List.find?_some h
  exact of_decide_eq_true hfound

end Binnacle.Settings
