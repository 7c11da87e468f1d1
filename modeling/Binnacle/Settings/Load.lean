import Binnacle.Settings.Keys

/-!
# Loading and overriding the configuration

Model of `internal/settings/load.go`: `apply`, `LoadWith` and `ResolveOverrides`.

- `apply_ok_iff`: applying a map of settings succeeds if each of them can be read, and
  lays the map over the configuration, in whatever order the map is iterated.
- `load_get`: what a deployment sets decides first by the environment, then by the file.

The `Effective` view of the sources is left out.
-/

namespace Binnacle.Settings

open Relational Layers

/-- A map of settings: texts under names. -/
abbrev Values := Table (Prod.fst : String × String → String)

def textOf (values : Values) (name : String) : Option String := (values.find? name).map Prod.snd

/-- The map with one entry. -/
def single (name value : String) : Values := ⟨[(name, value)], List.nodup_singleton _⟩

/-! ## Applying a map -/

section Apply

variable (lib : Library) (order : RowOrder)

/-- One round of the loop of `apply` (load.go:233-393). -/
def assign (c : Config) (row : String × String) : Except String Config :=
  match Key.ofText row.1 with
  | none => .error ("unknown key " ++ row.1)
  -- applied first so tier overrides are deterministic
  | some .preset => .ok c
  | some k =>
    match lib.parse row.2 k with
    | .error e => .error (row.1 ++ ": " ++ e)
    | .ok v => .ok (c.set k v)

/-- `apply` (load.go:229-395). -/
def apply (c : Config) (values : Values) : Except String Config :=
  let c :=
    match textOf values "retention.preset" with
    | some value => { c with retention := { c.retention with preset := lib.toLower value } }
    | none => c
  (order.arrange values.rows).foldlM (assign lib) c

end Apply

/-! ## Reading the deployment -/

/-- A decoded TOML table: its entries in the order of the file. A value that is not a table is
given by its text. -/
inductive TomlTable where
  | nil
  | value (key text : String) (rest : TomlTable)
  | table (key : String) (child rest : TomlTable)

/-- The closure `flatten` of `readTOML` (load.go:186-199). -/
def TomlTable.flatten (start : String) : TomlTable → Values → Values
  | .nil, out => out
  | .value k text rest, out =>
    let key := if start = "" then k else start ++ "." ++ k
    rest.flatten start (out.insertOrReplace (key, text))
  | .table k child rest, out =>
    let key := if start = "" then k else start ++ "." ++ k
    rest.flatten start (child.flatten key out)

/-- `meta.Undecoded()` for a table decoded into a map: the library takes the values of the map as
they are and does not go into them, so that every key of a table in it stays undecoded. -/
def TomlTable.undecoded (path : List String) : TomlTable → List String
  | .nil => []
  | .value k _ rest => own k ++ rest.undecoded path
  | .table k child rest => own k ++ child.undecoded (path ++ [k]) ++ rest.undecoded path
where
  own (k : String) : List String := if path = [] then [] else [".".intercalate (path ++ [k])]

structure OpenedFile where
  regular : Except String Bool
  content : Except String String

/-- What the configuration is loaded from. -/
structure Deployment where
  getenv : String → String
  exists_ : String → Bool
  decodeFile : String → Except String TomlTable
  readFile : String → Except String String
  openFile : String → Except String OpenedFile

/-- `Discover` (load.go:40-50). -/
def discover (d : Deployment) : String :=
  if d.getenv "BINNACLE_CONFIG_FILE" ≠ "" then d.getenv "BINNACLE_CONFIG_FILE"
  else
    (["/etc/binnacle/binnacle.toml", "/var/lib/binnacle/binnacle.toml"].find? d.exists_).getD ""

/-- `environment` (load.go:209-210). -/
def environment : Table (Prod.snd : String × Key → Key) where
  rows :=
    [("BINNACLE_DATA_DIR", .dataDir), ("BINNACLE_DATABASE_PATH", .databasePath),
     ("BINNACLE_RUNTIME_DIR", .runtimeDir), ("BINNACLE_HOST_PROC", .hostProc),
     ("BINNACLE_HOST_SYS", .hostSys), ("BINNACLE_MASTER_KEY", .masterKey),
     ("BINNACLE_MASTER_KEY_FILE", .masterKeyFile), ("BINNACLE_LISTEN_ADDRESS", .listenAddress),
     ("BINNACLE_TRUSTED_PROXY_CIDRS", .trustedProxyCIDRs),
     ("BINNACLE_HOST_INTERVAL", .hostInterval),
     ("BINNACLE_CONTAINER_INTERVAL", .containerInterval),
     ("BINNACLE_MINIMUM_INTERVAL", .minimumInterval), ("BINNACLE_SSE_INTERVAL", .sseInterval),
     ("BINNACLE_RAW_INTERVAL", .rawInterval), ("BINNACLE_QUEUE_BATCH_LIMIT", .queueBatchLimit),
     ("BINNACLE_RETENTION_PRESET", .preset), ("BINNACLE_RETENTION_RAW", .tier .raw),
     ("BINNACLE_RETENTION_ONE_MINUTE", .tier .oneMinute),
     ("BINNACLE_RETENTION_FIFTEEN_MINUTE", .tier .fifteenMinute),
     ("BINNACLE_RETENTION_ONE_HOUR", .tier .oneHour),
     ("BINNACLE_DATABASE_TARGET_BUDGET_BYTES", .targetBudgetBytes),
     ("BINNACLE_DATABASE_WARNING_RATIO", .warningRatio),
     ("BINNACLE_DATABASE_CRITICAL_RATIO", .criticalRatio),
     ("BINNACLE_DATABASE_EMERGENCY_PAUSE_RATIO", .emergencyPauseRatio),
     ("BINNACLE_CHARTS_MAX_POINTS", .maxPointsPerSeries), ("BINNACLE_DOCKER_SOCKET", .socketPath),
     ("BINNACLE_DOCKER_MAX_CONCURRENCY", .dockerMaxConcurrency),
     ("BINNACLE_CHECKS_MAX_CONCURRENCY", .checksMaxConcurrency),
     ("BINNACLE_NOTIFICATIONS_ALLOW_PRIVATE_TARGETS", .allowPrivateTargets),
     ("BINNACLE_NOTIFICATIONS_MAX_CONCURRENCY", .notificationsMaxConcurrency),
     ("BINNACLE_NOTIFICATIONS_QUEUE_CAPACITY", .queueCapacity),
     ("BINNACLE_NOTIFICATIONS_DELIVERY_TIMEOUT", .deliveryTimeout),
     ("BINNACLE_NOTIFICATIONS_REMINDER_INTERVAL", .reminderInterval),
     ("BINNACLE_LOGS_MAX_RESPONSE_BYTES", .maxResponseBytes),
     ("BINNACLE_LOGS_MAX_LINES", .maxLines),
     ("BINNACLE_LOGS_REDACTION_PATTERNS", .redactionPatterns),
     ("BINNACLE_SESSION_IDLE_TIMEOUT", .idleTimeout),
     ("BINNACLE_SESSION_ABSOLUTE_LIFETIME", .absoluteLifetime), ("BINNACLE_DEMO", .demo)]
  nodup := by decide +kernel

/-- The variables of the second loop (load.go:84). -/
def coolifyEnvironment : Table (Prod.snd : String × Key → Key) where
  rows :=
    [("BINNACLE_COOLIFY_URL", .coolifyURL), ("BINNACLE_COOLIFY_API_TOKEN_FILE", .coolifyTokenFile),
     ("BINNACLE_COOLIFY_ALLOW_INSECURE_HTTP", .coolifyInsecureHTTP)]
  nodup := by decide

/-- The variables of the third loop (load.go:92). -/
def authEnvironment : Table (Prod.snd : String × Key → Key) where
  rows :=
    [("BINNACLE_AUTH_MODE", .authMode), ("BINNACLE_AUTH_PROXY_CIDRS", .authProxyCIDRs),
     ("BINNACLE_AUTH_IDENTITY_HEADER", .authIdentityHeader),
     ("BINNACLE_AUTH_ALLOWED_SUBJECT", .authAllowedSubject)]
  nodup := by decide

/-- The variables of the last loop (load.go:106). -/
def featureEnvironment : Table (Prod.snd : String × Key → Key) where
  rows :=
    [("BINNACLE_FEATURE_ADVANCED_AUTH", .advancedAuth),
     ("BINNACLE_FEATURE_PORTABILITY", .portability)]
  nodup := by decide

/-- `supported` (load.go:211-227). -/
def supported : List String :=
  environment.rows.map (·.2.text) ++
    ["paths.host_passwd", "coolify.url", "coolify.api_token", "coolify.api_token_file",
     "coolify.allow_insecure_http", "auth.mode", "auth.proxy_cidrs", "auth.identity_header",
     "auth.allowed_subject", "prometheus.enabled", "features.advanced_auth",
     "features.portability"]

section Load

variable (lib : Library) (order : RowOrder)

/-- `readTOML` (load.go:176-207). -/
def readTOML (d : Deployment) (path : String) : Except String Values := do
  let raw ← d.decodeFile path
  if let key :: _ := raw.undecoded [] then .error ("unknown key " ++ key ++ " in " ++ path)
  let out := raw.flatten "" Table.empty
  match (order.arrange out.rows).find? fun row => !supported.contains row.1 with
  | some row => .error ("unknown key " ++ row.1 ++ " in " ++ path)
  | none => .ok out

/-- One variable of the environment (load.go:71-76 and the loops after it). -/
def applyVariable (getenv : String → String) (c : Config) (entry : String × Key) :
    Except String Config :=
  let value := getenv entry.1
  if value ≠ "" then
    (apply lib order c (single entry.2.text value)).mapError (entry.1 ++ ": " ++ ·)
  else .ok c

def applyEnvironment (getenv : String → String) (names : Table (Prod.snd : String × Key → Key))
    (c : Config) : Except String Config :=
  (order.arrange names.rows).foldlM (applyVariable lib order getenv) c

/-- The token of Coolify (load.go:114-127). -/
def loadCoolifyToken (d : Deployment) (c : Config) : Except String Config :=
  let token := trimSpace (d.getenv "BINNACLE_COOLIFY_API_TOKEN")
  if token ≠ "" then .ok { c with coolify := { c.coolify with apiToken := token } }
  else if c.coolify.apiToken = "" ∧ c.coolify.apiTokenFile ≠ "" then
    match d.readFile c.coolify.apiTokenFile with
    | .error e => .error ("read Coolify token file: " ++ e)
    | .ok raw =>
      if raw.utf8ByteSize > 4096 then .error "Coolify token file is too large"
      else .ok { c with coolify := { c.coolify with apiToken := trimSpace raw } }
  else .ok c

/-- `resolveMasterKeyFile` (load.go:442-478). -/
def resolveMasterKeyFile (d : Deployment) (c : Config) : Except String Config :=
  if c.paths.masterKeyFile = "" then .ok c
  else if c.paths.masterKey ≠ "" then
    .error "paths.master_key and paths.master_key_file cannot both be configured"
  else if !lib.isAbs c.paths.masterKeyFile then
    .error "paths.master_key_file must be an absolute path"
  else
    match d.openFile c.paths.masterKeyFile with
    | .error e => .error ("read master key file: " ++ e)
    | .ok file =>
      match file.regular with
      | .error e => .error ("inspect master key file: " ++ e)
      | .ok regular =>
        if !regular then .error "master key file must be a regular file"
        else
          match file.content with
          | .error e => .error ("read master key file: " ++ e)
          | .ok raw =>
            let key := lib.trimRight raw "\r\n"
            if raw.utf8ByteSize > 4096 then .error "master key file is too large"
            else if key = "" then .error "master key file is empty"
            else
              .ok { c with paths :=
                { c.paths with masterKey := key, masterKeyLoadedFromFile := true } }

/-- One override of a provider (load.go:139-147). -/
def applyOverride (c : Config) (row : String × String) : Except String Config :=
  if !uiOverridable row.1 then .error ("UI override for " ++ row.1 ++ " is not allowed")
  else apply lib order c (single row.1 row.2)

/-- The file, if there is one (load.go:57-69). -/
def applyFile (d : Deployment) (c : Config) : Except String Config :=
  let path := discover d
  if path ≠ "" then do
    let values ← readTOML order d path
    (apply lib order c values).mapError ("config file " ++ path ++ ": " ++ ·)
  else .ok c

/-- `LoadWith` (load.go:54-154); a provider gives its overrides or an error. -/
def loadWith (d : Deployment) (provider : Except String Values) : Except String Config := do
  let c ← applyFile lib order d defaults
  let c ← applyEnvironment lib order d.getenv environment c
  let c ← applyVariable lib order d.getenv c ("BINNACLE_HOST_PASSWD", .hostPasswd)
  let c ← applyEnvironment lib order d.getenv coolifyEnvironment c
  let c ← applyEnvironment lib order d.getenv authEnvironment c
  let c ← applyVariable lib order d.getenv c ("BINNACLE_PROMETHEUS_ENABLED", .prometheusEnabled)
  let c ← applyEnvironment lib order d.getenv featureEnvironment c
  let c ← loadCoolifyToken d c
  let c ← resolveMasterKeyFile lib d c
  let overrides ← provider
  let c ← (order.arrange overrides.rows).foldlM (applyOverride lib order) c
  let c := c.normalize lib
  c.validate lib order
  return c

/-- `Load` (load.go:51-53): no overrides. -/
def load (d : Deployment) : Except String Config := loadWith lib order d (.ok Table.empty)

/-- The configuration that overrides are laid over (load.go:159-166): the tiers are those of
the preset they name, if it is not `advanced`. -/
def presetBase (base : Config) (values : Values) : Except String Config :=
  match textOf values "retention.preset" with
  | some presetName =>
    if presetName ≠ "advanced" then
      match retentionPreset (lib.toLower presetName) with
      | none => .error ("unknown retention preset " ++ presetName)
      | some preset => .ok { base with retention := preset }
    else .ok base
  | none => .ok base

/-- `ResolveOverrides` (load.go:158-175). -/
def resolveOverrides (base : Config) (values : Values) : Except String Config := do
  let resolved ← presetBase lib base values
  let resolved ← apply lib order resolved values
  let resolved := resolved.normalize lib
  resolved.validate lib order
  return resolved

end Load

/-! ## What applying a map does -/

section ApplySpec

variable {lib : Library} {order : RowOrder} {c c' : Config} {values : Values}

def layer (lib : Library) (values : Values) (k : Key) : Option k.Value :=
  (textOf values k.text).bind fun text => (lib.parse text k).toOption

/-- What one entry says in the loop of `apply`. -/
def rowLayer (lib : Library) (row : String × String) (k : Key) : Option k.Value :=
  if k.text = row.1 ∧ k ≠ .preset then (lib.parse row.2 k).toOption else none

def Readable (lib : Library) (row : String × String) : Prop :=
  ∃ k, Key.ofText row.1 = some k ∧ ∃ v, lib.parse row.2 k = .ok v

theorem under_none (c : Config) : (c.under fun _ => none) = c := ofGet_get c

theorem key_eq_of_text {row : String × String} {k k' : Key} (hk : Key.ofText row.1 = some k)
    (h : k'.text = row.1) : k' = k :=
  text_inj (h.trans (text_of_ofText hk).symm)

theorem assign_ok_iff {row : String × String} :
    assign lib c row = .ok c' ↔ Readable lib row ∧ c' = c.under (rowLayer lib row) := by
  cases hk : Key.ofText row.1 with
  | none =>
    unfold assign Readable
    rw [hk]
    exact iff_of_false nofun fun ⟨⟨_, h, _⟩, _⟩ => (nomatch h)
  | some k =>
    by_cases hpreset : k = .preset
    · subst hpreset
      have hnone : rowLayer lib row = fun _ => none := by
        funext k'
        refine if_neg fun ⟨htext, hne⟩ => hne (key_eq_of_text hk htext)
      have hread : Readable lib row := ⟨_, hk, _, rfl⟩
      unfold assign
      rw [hk, hnone, under_none]
      exact ⟨fun h => ⟨hread, (Except.ok.inj h).symm⟩, fun h => congrArg _ h.2.symm⟩
    · have hset : ∀ v, lib.parse row.2 k = .ok v → c.set k v = c.under (rowLayer lib row) := by
        intro v hv
        rw [set_eq_under]
        refine congrFun (congrArg Config.under (funext fun k' => ?_)) c
        unfold rowLayer
        by_cases hk' : k' = k
        · subst hk'
          rw [Function.update_self, if_pos ⟨text_of_ofText hk, hpreset⟩, hv]
          rfl
        · rw [Function.update_of_ne hk', if_neg fun h => hk' (key_eq_of_text hk h.1)]
      have hassign : assign lib c row = match lib.parse row.2 k with
          | .error e => .error (row.1 ++ ": " ++ e)
          | .ok v => .ok (c.set k v) := by
        unfold assign
        rw [hk]
        split
        · next h => exact (nomatch h)
        · next h => exact absurd (Option.some.inj h) hpreset
        · next h => cases h; rfl
      rw [hassign]
      cases hv : lib.parse row.2 k with
      | error e =>
        refine iff_of_false nofun ?_
        rintro ⟨⟨k', hk', v, hv'⟩, -⟩
        cases hk.symm.trans hk'
        cases hv.symm.trans hv'
      | ok v =>
        constructor
        · intro h
          exact ⟨⟨k, hk, v, hv⟩, (Except.ok.inj h).symm.trans (hset v hv)⟩
        · rintro ⟨-, rfl⟩
          exact congrArg _ (hset v hv)

theorem foldlM_assign_ok_iff {rows : List (String × String)} :
    rows.foldlM (assign lib) c = .ok c' ↔
      (∀ row ∈ rows, Readable lib row) ∧
        c' = rows.foldl (fun c row => c.under (rowLayer lib row)) c := by
  induction rows generalizing c with
  | nil =>
    rw [foldlM_nil_ok]
    exact ⟨fun h => ⟨nofun, h⟩, fun h => h.2⟩
  | cons row rows ih =>
    rw [foldlM_cons_ok]
    constructor
    · rintro ⟨c₁, hrow, hrest⟩
      obtain ⟨hread, rfl⟩ := assign_ok_iff.mp hrow
      obtain ⟨hall, hc'⟩ := ih.mp hrest
      exact ⟨List.forall_mem_cons.mpr ⟨hread, hall⟩, hc'⟩
    · rintro ⟨hall, hc'⟩
      obtain ⟨hread, hrest⟩ := List.forall_mem_cons.mp hall
      exact ⟨_, assign_ok_iff.mpr ⟨hread, rfl⟩, ih.mpr ⟨hrest, hc'⟩⟩

theorem presetFirst_eq (c : Config) : (match textOf values "retention.preset" with
    | some value => { c with retention := { c.retention with preset := lib.toLower value } }
    | none => c) = c.under fun k => if k = .preset then layer lib values k else none := by
  have hlayer : layer lib values .preset = (textOf values "retention.preset").map lib.toLower := by
    unfold layer
    show (textOf values "retention.preset").bind _ = _
    cases textOf values "retention.preset" with
    | none => rfl
    | some value => rfl
  cases hpreset : textOf values "retention.preset" with
  | none =>
    rw [hpreset] at hlayer
    refine (under_none c).symm.trans (congrFun (congrArg Config.under (funext fun k => ?_)) c)
    by_cases hk : k = .preset
    · subst hk
      rw [if_pos rfl, hlayer]
      rfl
    · rw [if_neg hk]
  | some value =>
    rw [hpreset] at hlayer
    refine (set_eq_under c .preset (lib.toLower value)).trans
      (congrFun (congrArg Config.under (funext fun k => ?_)) c)
    by_cases hk : k = .preset
    · subst hk
      rw [if_pos rfl, hlayer, Function.update_self]
      rfl
    · rw [if_neg hk, Function.update_of_ne hk]

theorem foldl_rowLayer (c : Config) :
    (order.arrange values.rows).foldl (fun c row => c.under (rowLayer lib row)) c =
      c.under fun k => if k = .preset then none else layer lib values k := by
  have hplace : ∀ (row : String × String) (k : Key), row.1 ≠ k.text → rowLayer lib row k = none :=
    fun row k hne => if_neg fun h => hne h.1.symm
  rw [foldl_under_rows (order.perm values.rows) hplace]
  refine congrFun (congrArg Config.under (funext fun k => ?_)) c
  unfold layer textOf
  cases hrow : values.find? k.text with
  | none => split <;> rfl
  | some row =>
    show rowLayer lib row k = _
    unfold rowLayer
    by_cases hk : k = .preset
    · rw [if_neg fun h => h.2 hk, if_pos hk]
    · rw [if_pos ⟨(Table.find?_eq_some_iff.mp hrow).2.symm, hk⟩, if_neg hk]
      rfl

theorem apply_ok_iff : apply lib order c values = .ok c' ↔
    (∀ row ∈ values.rows, Readable lib row) ∧ c' = c.under (layer lib values) := by
  unfold apply
  rw [@presetFirst_eq lib values c, foldlM_assign_ok_iff, foldl_rowLayer, under_under]
  have hrows : (∀ row ∈ order.arrange values.rows, Readable lib row) ↔
      ∀ row ∈ values.rows, Readable lib row :=
    ⟨fun h row hrow => h row (order.mem_arrange.mpr hrow),
      fun h row hrow => h row (order.mem_arrange.mp hrow)⟩
  have hboth : (fun k => (if k = .preset then none else layer lib values k).or
      (if k = .preset then layer lib values k else none)) = layer lib values := by
    funext k
    by_cases hk : k = .preset
    · rw [if_pos hk, if_pos hk, Option.none_or]
    · rw [if_neg hk, if_neg hk, Option.or_none]
  rw [hrows, hboth]

end ApplySpec

/-! ## What a deployment sets -/

section LoadSpec

variable {lib : Library} {order : RowOrder} {c c' : Config} {d : Deployment}

def environmentLayer (lib : Library) (getenv : String → String)
    (names : Table (Prod.snd : String × Key → Key)) (k : Key) : Option k.Value :=
  (names.find? k).bind fun entry =>
    if getenv entry.1 = "" then none else (lib.parse (getenv entry.1) k).toOption

def fileValues (order : RowOrder) (d : Deployment) : Values :=
  if discover d = "" then Table.empty
  else
    match readTOML order d (discover d) with
    | .ok values => values
    | .error _ => Table.empty

theorem textOf_single (name value : String) (name' : String) :
    textOf (single name value) name' = if name = name' then some value else none := by
  unfold textOf single Table.find?
  by_cases h : name = name'
  · rw [if_pos h, List.find?_cons_of_pos (by simpa using h)]
    rfl
  · rw [if_neg h, List.find?_cons_of_neg (by simpa using h)]
    rfl

theorem applyVariable_ok {getenv : String → String} {entry : String × Key}
    (h : applyVariable lib order getenv c entry = .ok c') :
    c' = c.under fun k => if k = entry.2 then
      if getenv entry.1 = "" then none else (lib.parse (getenv entry.1) k).toOption else none := by
  unfold applyVariable at h
  dsimp only at h
  split at h
  · next hset =>
    obtain ⟨-, rfl⟩ := apply_ok_iff.mp (mapError_ok.mp h)
    refine congrFun (congrArg Config.under (funext fun k => ?_)) c
    unfold layer
    rw [textOf_single]
    by_cases hk : k = entry.2
    · rw [if_pos (by rw [hk]), if_pos hk, if_neg hset]
      rfl
    · have htext : entry.2.text ≠ k.text := fun htext => hk (text_inj htext.symm)
      rw [if_neg htext, if_neg hk]
      rfl
  · next hunset =>
    cases h
    refine (under_none c).symm.trans (congrFun (congrArg Config.under (funext fun k => ?_)) c)
    rw [if_pos (not_not.mp hunset), ite_self]

theorem applyEnvironment_ok {getenv : String → String}
    {names : Table (Prod.snd : String × Key → Key)}
    (h : applyEnvironment lib order getenv names c = .ok c') :
    c' = c.under (environmentLayer lib getenv names) := by
  let said (entry : String × Key) (k : Key) : Option k.Value := if k = entry.2 then
    if getenv entry.1 = "" then none else (lib.parse (getenv entry.1) k).toOption else none
  have hstep : ∀ entry c c', applyVariable lib order getenv c entry = .ok c' →
      id c' = (id c : Config).under (said entry) := fun entry c c' h => applyVariable_ok h
  have hfold : c' = (order.arrange names.rows).foldl (fun c entry => c.under (said entry)) c :=
    foldlM_ok_proj id _ hstep h
  have hplace : ∀ entry k, entry.2 ≠ k → said entry k = none := fun entry k hne =>
    if_neg (Ne.symm hne)
  rw [hfold, foldl_under_rows (order.perm names.rows) hplace]
  refine congrFun (congrArg Config.under (funext fun k => ?_)) c
  unfold environmentLayer
  cases hentry : names.find? k with
  | none => rfl
  | some entry =>
    exact if_pos (Table.find?_eq_some_iff.mp hentry).2.symm

theorem applyFile_ok (h : applyFile lib order d c = .ok c') :
    c' = c.under (layer lib (fileValues order d)) := by
  unfold applyFile at h
  unfold fileValues
  dsimp only at h
  split at h
  · next hpath =>
    obtain ⟨values, hread, happly⟩ := bind_ok.mp h
    rw [if_neg hpath, hread]
    exact (apply_ok_iff.mp (mapError_ok.mp happly)).2
  · next hpath =>
    cases h
    rw [if_pos (not_not.mp hpath)]
    exact (under_none c).symm

def Key.OfRetention (k : Key) : Prop := k = .preset ∨ ∃ t, k = .tier t

theorem loadCoolifyToken_ok (h : loadCoolifyToken d c = .ok c') :
    c'.retention = c.retention := by
  unfold loadCoolifyToken at h
  dsimp only at h
  split at h
  · cases h
    rfl
  · split at h
    · split at h
      · cases h
      · split at h
        · cases h
        · cases h
          rfl
    · cases h
      rfl

theorem resolveMasterKeyFile_ok (h : resolveMasterKeyFile lib d c = .ok c') :
    c'.retention = c.retention := by
  unfold resolveMasterKeyFile at h
  dsimp only at h
  repeat' split at h
  all_goals
    cases h
    try rfl

theorem get_under_of_none {layer : (k : Key) → Option k.Value} {k : Key} (h : layer k = none) :
    (c.under layer).get k = c.get k := by
  rw [get_under, overlay, h]
  rfl

theorem get_eq_of_retention (h : c.retention = c'.retention) {k : Key} (hk : k.OfRetention) :
    c.get k = c'.get k := by
  rcases hk with rfl | ⟨t, rfl⟩
  · show c.retention.preset = c'.retention.preset
    rw [h]
  · show c.retention.tiers t = c'.retention.tiers t
    rw [h]

/-- The retention of a loaded configuration: the environment decides, then the file, then
the defaults. -/
theorem load_get (h : load lib order d = .ok c) :
    c.validate lib order = .ok () ∧ ∀ k : Key, k.OfRetention →
      c.get k = overlay (environmentLayer lib d.getenv environment)
        (overlay (layer lib (fileValues order d)) defaults.get) k := by
  unfold load loadWith at h
  obtain ⟨c₁, h₁, h⟩ := bind_ok.mp h
  obtain ⟨c₂, h₂, h⟩ := bind_ok.mp h
  obtain ⟨c₃, h₃, h⟩ := bind_ok.mp h
  obtain ⟨c₄, h₄, h⟩ := bind_ok.mp h
  obtain ⟨c₅, h₅, h⟩ := bind_ok.mp h
  obtain ⟨c₆, h₆, h⟩ := bind_ok.mp h
  obtain ⟨c₇, h₇, h⟩ := bind_ok.mp h
  obtain ⟨c₈, h₈, h⟩ := bind_ok.mp h
  obtain ⟨c₉, h₉, h⟩ := bind_ok.mp h
  obtain ⟨overrides, hnone, h⟩ := bind_ok.mp h
  cases hnone
  obtain ⟨c₁₀, h₁₀, h⟩ := bind_ok.mp h
  have hempty : order.arrange (Table.empty : Values).rows = [] := (order.perm []).eq_nil
  rw [hempty, foldlM_nil_ok] at h₁₀
  obtain ⟨_, hvalid, hreturn⟩ := bind_ok.mp h
  cases hreturn
  refine ⟨hvalid, fun k hk => ?_⟩
  -- after the first loop no source says anything of the retention
  have hrest : ∀ names ∈ [coolifyEnvironment, authEnvironment, featureEnvironment],
      environmentLayer lib d.getenv names k = none := by
    intro names hnames
    have hfind : names.find? k = none := by
      simp only [List.mem_cons, List.not_mem_nil, or_false] at hnames
      rcases hk with rfl | ⟨t, rfl⟩ <;> rcases hnames with rfl | rfl | rfl <;> rfl
    unfold environmentLayer
    rw [hfind]
    rfl
  have hpasswd : k ≠ .hostPasswd := by rcases hk with rfl | ⟨t, rfl⟩ <;> exact nofun
  have hprometheus : k ≠ .prometheusEnabled := by
    rcases hk with rfl | ⟨t, rfl⟩ <;> exact nofun
  calc (c₁₀.normalize lib).get k = c₉.get k := by
        rw [h₁₀]
        exact get_eq_of_retention (Config.retention_normalize lib c₉) hk
    _ = c₈.get k := get_eq_of_retention (resolveMasterKeyFile_ok h₉) hk
    _ = c₇.get k := get_eq_of_retention (loadCoolifyToken_ok h₈) hk
    _ = c₆.get k := by
        rw [applyEnvironment_ok h₇]
        exact get_under_of_none (hrest _ (by simp))
    _ = c₅.get k := by
        rw [applyVariable_ok h₆]
        exact get_under_of_none (if_neg hprometheus)
    _ = c₄.get k := by
        rw [applyEnvironment_ok h₅]
        exact get_under_of_none (hrest _ (by simp))
    _ = c₃.get k := by
        rw [applyEnvironment_ok h₄]
        exact get_under_of_none (hrest _ (by simp))
    _ = c₂.get k := by
        rw [applyVariable_ok h₃]
        exact get_under_of_none (if_neg hpasswd)
    _ = _ := by rw [applyEnvironment_ok h₂, applyFile_ok h₁, get_under, get_under]

end LoadSpec

/-! ## What overrides do -/

section ResolveSpec

variable {lib : Library} {order : RowOrder} {base c : Config} {values : Values}

theorem presetBase_eq {start : Config} (h : presetBase lib base values = .ok start) :
    ∃ retention, start = { base with retention } := by
  unfold presetBase at h
  split at h
  · split at h
    · split at h
      · cases h
      · next preset _ =>
        cases h
        exact ⟨preset, rfl⟩
    · cases h
      exact ⟨base.retention, rfl⟩
  · cases h
    exact ⟨base.retention, rfl⟩

theorem resolveOverrides_ok_iff : resolveOverrides lib order base values = .ok c ↔
    ∃ start, presetBase lib base values = .ok start ∧ (∀ row ∈ values.rows, Readable lib row) ∧
      c = (start.under (layer lib values)).normalize lib ∧ c.validate lib order = .ok () := by
  unfold resolveOverrides
  rw [bind_ok]
  constructor
  · rintro ⟨start, hs, h⟩
    obtain ⟨applied, happly, h⟩ := bind_ok.mp h
    obtain ⟨_, hvalid, hreturn⟩ := bind_ok.mp h
    obtain ⟨hread, rfl⟩ := apply_ok_iff.mp happly
    cases hreturn
    exact ⟨start, hs, hread, rfl, hvalid⟩
  · rintro ⟨start, hs, hread, rfl, hvalid⟩
    refine ⟨start, hs, bind_ok.mpr ⟨_, apply_ok_iff.mpr ⟨hread, rfl⟩, ?_⟩⟩
    exact bind_ok.mpr ⟨(), hvalid, rfl⟩

/-- Overrides resolve alike in whatever order maps are iterated. -/
theorem resolveOverrides_order {order' : RowOrder}
    (h : resolveOverrides lib order base values = .ok c) :
    resolveOverrides lib order' base values = .ok c := by
  obtain ⟨start, hs, hread, hc, hvalid⟩ := resolveOverrides_ok_iff.mp h
  exact resolveOverrides_ok_iff.mpr ⟨start, hs, hread, hc, Config.validate_order hvalid⟩

theorem textOf_of_mem {row : String × String} (h : row ∈ values.rows) :
    textOf values row.1 = some row.2 := by
  unfold textOf
  rw [Table.find?_eq_some_iff.mpr ⟨h, rfl⟩]
  rfl

theorem mem_of_textOf {name value : String} (h : textOf values name = some value) :
    (name, value) ∈ values.rows := by
  obtain ⟨⟨name', value'⟩, hrow, rfl⟩ := Option.map_eq_some_iff.mp h
  obtain ⟨hmem, rfl⟩ := Table.find?_eq_some_iff.mp hrow
  exact hmem

theorem resolveOverrides_congr {values' : Values} (htext : textOf values = textOf values')
    (h : resolveOverrides lib order base values = .ok c) :
    resolveOverrides lib order base values' = .ok c := by
  obtain ⟨start, hs, hread, hc, hvalid⟩ := resolveOverrides_ok_iff.mp h
  have hlayer : layer lib values = layer lib values' := by
    unfold layer
    rw [htext]
  refine resolveOverrides_ok_iff.mpr ⟨start, ?_, fun row hrow => ?_, hlayer ▸ hc, hvalid⟩
  · rw [← hs]
    unfold presetBase
    rw [htext]
  · have hsame : textOf values row.1 = some row.2 := htext ▸ textOf_of_mem hrow
    exact hread row (mem_of_textOf hsame)

theorem resolveOverrides_get (h : resolveOverrides lib order base values = .ok c) :
    ∃ start, presetBase lib base values = .ok start ∧
      ∀ k : Key, k.OfRetention → c.get k = overlay (layer lib values) start.get k := by
  obtain ⟨start, hs, -, rfl, -⟩ := resolveOverrides_ok_iff.mp h
  refine ⟨start, hs, fun k hk => ?_⟩
  rw [← get_under]
  exact get_eq_of_retention (Config.retention_normalize lib _) hk

end ResolveSpec

end Binnacle.Settings
