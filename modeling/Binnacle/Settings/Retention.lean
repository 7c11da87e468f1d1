import Binnacle.Settings.Service
import Binnacle.Storage.Writer

/-!
# Retention through the settings

Where the four tiers of the retention come from: the defaults, the file, the environment,
the preset that overrides name, and overrides of single tiers.

- `retention_ordered_iff`: along a run of successful calls, which of them keep the tiers
  in order. `Validate` looks at the tiers only under the preset `advanced`.
- `preset_effective_iff`: when the choice of a preset gives its tiers. Only
  `ResolveOverrides` expands a preset, and overrides of single tiers stay above it.
-/

namespace Binnacle.Settings

open Relational Layers Runs

/-! ## Where the tiers come from -/

section Sources

variable {lib : Library} {order : RowOrder} {d : Deployment} {base c : Config} {values : Values}

def tierLayer (lib : Library) (values : Values) (t : RetentionTier) : Option Duration :=
  layer lib values (.tier t)

def environmentTiers (lib : Library) (d : Deployment) (t : RetentionTier) : Option Duration :=
  environmentLayer lib d.getenv environment (.tier t)

def deployedTiers (lib : Library) (order : RowOrder) (d : Deployment) : Tiers :=
  overlay (environmentTiers lib d)
    (overlay (tierLayer lib (fileValues order d)) defaults.retention.tiers)

def deployedPreset (lib : Library) (order : RowOrder) (d : Deployment) : String :=
  ((environmentLayer lib d.getenv environment .preset).or
    (layer lib (fileValues order d) .preset)).getD defaults.retention.preset

/-- The tiers of a named preset; `advanced` has none of its own. -/
def presetTiers (lib : Library) (name : Option String) (below : Tiers) : Tiers :=
  match name with
  | some name =>
    if name ≠ "advanced" then ((retentionPreset (lib.toLower name)).map Retention.tiers).getD below
    else below
  | none => below

/-- The tiers with overrides: by the override of the tier, or the preset they name, or from
below. -/
def settledTiers (lib : Library) (base : Retention) (values : Values) : Tiers :=
  overlay (tierLayer lib values)
    (presetTiers lib (textOf values "retention.preset") base.tiers)

def settledPreset (lib : Library) (base : Retention) (values : Values) : String :=
  ((textOf values "retention.preset").map lib.toLower).getD base.preset

theorem load_retention (h : load lib order d = .ok c) :
    c.retention.tiers = deployedTiers lib order d ∧
      c.retention.preset = deployedPreset lib order d := by
  obtain ⟨-, hget⟩ := load_get h
  constructor
  · funext t
    exact hget (.tier t) (.inr ⟨t, rfl⟩)
  · refine (hget .preset (.inl rfl)).trans ?_
    rw [overlay_overlay]
    rfl

theorem presetBase_tiers {start : Config} (h : presetBase lib base values = .ok start) :
    start.retention.tiers =
      presetTiers lib (textOf values "retention.preset") base.retention.tiers := by
  unfold presetBase at h
  unfold presetTiers
  cases hname : textOf values "retention.preset" with
  | none =>
    rw [hname] at h
    cases h
    rfl
  | some name =>
    rw [hname] at h
    dsimp only at h ⊢
    split at h
    · next hadvanced =>
      rw [if_pos hadvanced]
      cases hpreset : retentionPreset (lib.toLower name) with
      | none =>
        rw [hpreset] at h
        cases h
      | some preset =>
        rw [hpreset] at h
        cases h
        rfl
    · next hadvanced =>
      rw [if_neg hadvanced]
      cases h
      rfl

theorem resolve_retention (h : resolveOverrides lib order base values = .ok c) :
    c.retention.tiers = settledTiers lib base.retention values ∧
      c.retention.preset = settledPreset lib base.retention values := by
  obtain ⟨start, hstart, hget⟩ := resolveOverrides_get h
  constructor
  · unfold settledTiers
    rw [← presetBase_tiers hstart]
    funext t
    exact hget (.tier t) (.inr ⟨t, rfl⟩)
  · have hpreset : c.retention.preset = ((textOf values "retention.preset").map lib.toLower).getD
        start.retention.preset := by
      refine (hget .preset (.inl rfl)).trans ?_
      rw [overlay_apply]
      unfold layer
      show ((textOf values "retention.preset").bind _).getD start.retention.preset = _
      cases textOf values "retention.preset" with
      | none => rfl
      | some name => rfl
    rw [hpreset]
    unfold settledPreset
    cases hname : textOf values "retention.preset" with
    | none =>
      unfold presetBase at hstart
      rw [hname] at hstart
      cases hstart
      rfl
    | some name => rfl

theorem resolve_ordered (h : resolveOverrides lib order base values = .ok c)
    (hadvanced : c.retention.preset = "advanced") : Ordered c.retention.tiers := by
  obtain ⟨start, -, -, -, hvalid⟩ := resolveOverrides_ok_iff.mp h
  exact Config.ordered_of_validate hvalid hadvanced

end Sources

/-! ## Runs of calls -/

/-- A call, with the order in which it iterates maps and the instant it reads. -/
inductive Call where
  | initializeService (order : RowOrder)
  | patch (order : RowOrder) (fails : PatchPoint → Bool) (now : Time) (expected : Int)
      (changes : Values) (actor : String)
  | setRetentionPreset (order : RowOrder) (now : Time) (preset actor : String)

def Call.perform (lib : Library) (s : Service) : Call → Except SettingsError Unit × Service
  | .initializeService order =>
    match s.initializeService lib order with
    | .ok s' => (.ok (), s')
    | .error e => (.error e, s)
  | .patch order fails now expected changes actor =>
    let (answer, s') := s.patch lib order fails now expected changes actor
    (answer.map fun _ => (), s')
  | .setRetentionPreset order now preset actor => s.setRetentionPreset lib order now preset actor

def Call.Succeeds (lib : Library) (s : Service) (call : Call) : Prop :=
  (call.perform lib s).1 = .ok ()

def Call.step (lib : Library) (s : Service) (call : Call) : Service := (call.perform lib s).2

/-- `storage.RetentionCutoffs{…}` (main.go:94, 194). -/
def Config.cutoffs (c : Config) : Storage.RetentionCutoffs where
  raw := c.retention.raw
  oneMinute := c.retention.oneMinute
  fifteenMinute := c.retention.fifteenMinute
  oneHour := c.retention.oneHour

def cutoffTiers (r : Storage.RetentionCutoffs) : Tiers
  | .raw => r.raw
  | .oneMinute => r.oneMinute
  | .fifteenMinute => r.fifteenMinute
  | .oneHour => r.oneHour

theorem cutoffTiers_cutoffs (c : Config) : cutoffTiers c.cutoffs = c.retention.tiers := by
  funext t
  cases t <;> rfl

structure TiersOrdered (s : Service) : Prop where
  current : Ordered s.current.retention.tiers
  cutoffs : ∀ c ∈ s.applied, Ordered (cutoffTiers c.cutoffs)

/-- Overrides under which the tiers are looked at, or are in order as they are. -/
def Sound (lib : Library) (base : Retention) (values : Values) : Prop :=
  settledPreset lib base values = "advanced" ∨ Ordered (settledTiers lib base values)

/-- The deployment sets `advanced`, or tiers that are in order. -/
def SoundDeployment (lib : Library) (order : RowOrder) (d : Deployment) : Prop :=
  deployedPreset lib order d = "advanced" ∨ Ordered (deployedTiers lib order d)

/-- The overrides that a call brings into force: the stored ones, with its changes over
them. Setting the preset that is in force brings none. -/
def Call.Brings (lib : Library) (s : Service) (values : Values) : Call → Prop
  | .initializeService _ => s.store.overrides lib = .ok values
  | .patch order _ _ _ changes _ =>
    ∃ stored, s.store.overrides lib = .ok stored ∧ values = merge order stored changes
  | .setRetentionPreset order _ preset _ =>
    s.current.retention.preset ≠ preset ∧ ∃ stored, s.store.overrides lib = .ok stored ∧
      values = merge order stored (single "retention.preset" preset)

def SoundCall (lib : Library) (s : Service) (call : Call) : Prop :=
  ∀ values, call.Brings lib s values → Sound lib s.base.retention values

variable {call : Call}

section Runs

variable {lib : Library} {s : Service}

theorem ordered_iff_sound {order : RowOrder} {base c : Config} {values : Values}
    (h : resolveOverrides lib order base values = .ok c) :
    Ordered c.retention.tiers ↔ Sound lib base.retention values := by
  obtain ⟨htiers, hpreset⟩ := resolve_retention h
  unfold Sound
  rw [← htiers, ← hpreset]
  exact ⟨.inr, fun h' => h'.elim (resolve_ordered h) fun h' => h'⟩

theorem tiersOrdered_applied_iff (h : TiersOrdered s) (store : Store) (c : Config) :
    TiersOrdered { s with store := store, current := c, applied := c :: s.applied } ↔
      Ordered c.retention.tiers := by
  refine ⟨fun h' => h'.current, fun hc => ⟨hc, List.forall_mem_cons.mpr ⟨?_, h.cutoffs⟩⟩⟩
  rw [cutoffTiers_cutoffs]
  exact hc

theorem Call.Brings.unique {values values' : Values} (h : call.Brings lib s values)
    (h' : call.Brings lib s values') : values = values' := by
  cases call with
  | initializeService order => exact Except.ok.inj (h.symm.trans h')
  | patch order fails now expected changes actor =>
    obtain ⟨stored, hstored, rfl⟩ := h
    obtain ⟨stored', hstored', rfl⟩ := h'
    cases hstored.symm.trans hstored'
    rfl
  | setRetentionPreset order now preset actor =>
    obtain ⟨-, stored, hstored, rfl⟩ := h
    obtain ⟨-, stored', hstored', rfl⟩ := h'
    cases hstored.symm.trans hstored'
    rfl

/-- A successful call brings overrides into force that resolve, or it sets the preset that is
in force and changes nothing. -/
theorem Call.Succeeds.cases (hok : call.Succeeds lib s) :
    (∃ order now preset actor, call = .setRetentionPreset order now preset actor ∧
      s.current.retention.preset = preset ∧ call.step lib s = s) ∨
    ∃ order values store' resolved, call.Brings lib s values ∧
      resolveOverrides lib order s.base values = .ok resolved ∧ call.step lib s =
        { s with store := store', current := resolved, applied := resolved :: s.applied } := by
  cases call with
  | initializeService order =>
    simp only [Call.Succeeds, Call.step, Call.perform] at hok ⊢
    cases hinit : s.initializeService lib order with
    | error e =>
      rw [hinit] at hok
      cases hok
    | ok s' =>
      obtain ⟨stored, hstored, hrest⟩ := bind_ok.mp hinit
      obtain ⟨resolved, hresolved, hreturn⟩ := bind_ok.mp hrest
      cases hreturn
      exact .inr ⟨order, stored, s.store, resolved, hstored, mapError_ok.mp hresolved, rfl⟩
  | patch order fails now expected changes actor =>
    simp only [Call.Succeeds, Call.step, Call.perform] at hok ⊢
    cases hpatch : s.patch lib order fails now expected changes actor with
    | mk answer s' =>
      rw [hpatch] at hok
      cases answer with
      | error e => cases hok
      | ok revision =>
        obtain ⟨-, store', resolved, rfl, hdone⟩ := patch_ok hpatch
        obtain ⟨stored, hstored, hresolve⟩ := hdone.resolves
        exact .inr ⟨order, _, store', resolved, ⟨stored, hstored, rfl⟩, hresolve, rfl⟩
  | setRetentionPreset order now preset actor =>
    simp only [Call.Succeeds, Call.step, Call.perform, Service.setRetentionPreset] at hok ⊢
    by_cases hsame : s.current.retention.preset = preset
    · rw [if_pos hsame]
      exact .inl ⟨order, now, preset, actor, rfl, hsame, rfl⟩
    · rw [if_neg hsame] at hok ⊢
      by_cases hnone : (retentionPreset preset).isNone = true
      · rw [if_pos hnone] at hok
        cases hok
      · rw [if_neg hnone] at hok ⊢
        cases hset : s.attemptPreset lib order now preset actor 3 with
        | mk answer s' =>
          rw [hset] at hok
          cases hok
          obtain ⟨store', resolved, rfl, hdone⟩ := attemptPreset_ok hset
          obtain ⟨stored, hstored, hresolve⟩ := hdone.resolves
          exact .inr ⟨order, _, store', resolved, ⟨hsame, stored, hstored, rfl⟩, hresolve, rfl⟩

/-- After a successful call the tiers are in order exactly if it was sound. -/
theorem step_ordered_iff (h : TiersOrdered s) (hok : call.Succeeds lib s) :
    TiersOrdered (call.step lib s) ↔ SoundCall lib s call := by
  rcases hok.cases with ⟨order, now, preset, actor, rfl, hsame, hstep⟩ |
    ⟨order, values, store', resolved, hbrings, hresolve, hstep⟩
  · rw [hstep]
    exact iff_of_true h fun values hbrings => absurd hsame hbrings.1
  · rw [hstep, tiersOrdered_applied_iff h, ordered_iff_sound hresolve]
    refine ⟨fun hsound values' hbrings' => ?_, fun hall => hall values hbrings⟩
    rw [← hbrings.unique hbrings']
    exact hsound

/-- Along a run of successful calls on any store, the tiers in force and the cutoffs given to
the store are always in order exactly if the deployment and every call are sound. -/
theorem retention_ordered_iff {order : RowOrder} {d : Deployment} {base : Config}
    (hload : load lib order d = .ok base) (store : Store) {calls : List Call}
    (hcalls : ∀ pre call, pre ++ [call] <+: calls →
      call.Succeeds lib (pre.foldl (Call.step lib) (newService store base))) :
    (∀ pre, pre <+: calls → TiersOrdered (pre.foldl (Call.step lib) (newService store base))) ↔
      SoundDeployment lib order d ∧ ∀ pre call, pre ++ [call] <+: calls →
        SoundCall lib (pre.foldl (Call.step lib) (newService store base)) call := by
  have hstart : TiersOrdered (newService store base) ↔ SoundDeployment lib order d := by
    obtain ⟨htiers, hpreset⟩ := load_retention hload
    unfold SoundDeployment
    rw [← htiers, ← hpreset]
    constructor
    · intro h
      exact .inr h.current
    · rintro (hadvanced | hordered)
      · exact ⟨Config.ordered_of_validate (load_get hload).1 hadvanced, fun _ hc => (nomatch hc)⟩
      · exact ⟨hordered, fun _ hc => (nomatch hc)⟩
  have hrun := forall_prefix_iff (I := fun _ => True) (P := TiersOrdered)
    (C := fun s call => SoundCall lib s call) (Q := fun s call => call.Succeeds lib s)
    (fun s call _ h hok => step_ordered_iff h hok) (fun _ _ _ _ => trivial) hcalls trivial
  constructor
  · intro h
    have hfirst : TiersOrdered (newService store base) := h [] List.nil_prefix
    exact ⟨hstart.mp hfirst, (hrun hfirst).mp h⟩
  · rintro ⟨hdeployment, hsound⟩
    exact (hrun (hstart.mpr hdeployment)).mpr hsound

end Runs

/-! ## A small deployment -/

def plainLibrary : Library where
  toLower text := text
  trimRight text _ := text
  split text _ := [text]
  parseDuration text :=
    if text = "1h" then .ok hour
    else if text = "48h" then .ok (48 * hour)
    else if text = "9000h" then .ok (9000 * hour)
    else .error ("time: invalid duration " ++ text)
  atoi _ := .error "invalid syntax"
  parseInt _ := .error "invalid syntax"
  parseFloat _ := .error "invalid syntax"
  parseBool _ := .error "invalid syntax"
  joinPath a b := a ++ "/" ++ b
  isAbs path := path.toList.head? = some '/'
  splitHostPort text := .ok ("", text)
  parsePrefix _ := .error "no /"
  parseURL text :=
    if text = "https://coolify.example" then .ok ⟨"https", "coolify.example", false⟩
    else .error "invalid URL"
  marshal text := text
  unmarshal text := .ok text
  unmarshal_marshal _ := rfl
  toLower_preset _ _ := rfl

def fileDeployment (file : Option TomlTable) : Deployment where
  getenv _ := ""
  exists_ path := file.isSome && path = "/etc/binnacle/binnacle.toml"
  decodeFile path :=
    match file with
    | some table => .ok table
    | none => .error ("open " ++ path)
  readFile path := .error ("open " ++ path)
  openFile path := .error ("open " ++ path)

def emptyStore : Store := ⟨Table.empty, [], 0⟩

def plainBase : Config := defaults.normalize plainLibrary

theorem load_plain : load plainLibrary RowOrder.stored (fileDeployment none) = .ok plainBase := by
  decide +kernel

def patchOne (expected : Int) (key value : String) : Call :=
  .patch RowOrder.stored (fun _ => false) 0 expected (single key value) "admin"

/-- With the default preset a patch may keep the raw samples longer than the minutes. -/
theorem patch_breaks_order :
    load plainLibrary RowOrder.stored (fileDeployment none) = .ok plainBase ∧
      (patchOne 0 "retention.raw" "9000h").Succeeds plainLibrary (newService emptyStore plainBase) ∧
      ¬ TiersOrdered ((patchOne 0 "retention.raw" "9000h").step plainLibrary
        (newService emptyStore plainBase)) := by
  have hrun : (patchOne 0 "retention.raw" "9000h").Succeeds plainLibrary
        (newService emptyStore plainBase) ∧
      ¬ Ordered ((patchOne 0 "retention.raw" "9000h").step plainLibrary
        (newService emptyStore plainBase)).current.retention.tiers := by
    unfold Call.Succeeds
    decide +kernel
  exact ⟨load_plain, hrun.1, fun h => hrun.2 h.current⟩

/-- A patch to a tier that keeps the order is sound, and so is the run. -/
theorem retention_ordered_iff_shorter :
    load plainLibrary RowOrder.stored (fileDeployment none) = .ok plainBase ∧
      ∀ pre, pre <+: [patchOne 0 "retention.raw" "1h"] →
        TiersOrdered (pre.foldl (Call.step plainLibrary) (newService emptyStore plainBase)) := by
  have hok : (patchOne 0 "retention.raw" "1h").Succeeds plainLibrary
      (newService emptyStore plainBase) := by
    unfold Call.Succeeds
    decide +kernel
  have hsound : SoundCall plainLibrary (newService emptyStore plainBase)
      (patchOne 0 "retention.raw" "1h") := by
    rintro values ⟨stored, hstored, rfl⟩
    have hempty : emptyStore.overrides plainLibrary = .ok Table.empty := rfl
    cases hempty.symm.trans hstored
    refine .inr ?_
    decide +kernel
  refine ⟨load_plain, (retention_ordered_iff load_plain emptyStore ?_).mpr ⟨.inr ?_, ?_⟩⟩
  · exact forall_snoc_singleton hok
  · decide +kernel
  · exact forall_snoc_singleton hsound

/-! ## Choosing a preset -/

/-- A way to select a preset: in the file or the environment of a restart, by a patch of
the preset alone, or by `SetRetentionPreset`. -/
inductive Selection where
  | file (order : RowOrder) (d : Deployment)
  | environment (order : RowOrder) (d : Deployment)
  | patch (order : RowOrder) (fails : PatchPoint → Bool) (now : Time) (expected : Int)
      (text actor : String)
  | setRetentionPreset (order : RowOrder) (now : Time) (preset actor : String)

/-- A start of the process on the stored settings (main.go:65, 92, 190). -/
def restart (lib : Library) (order : RowOrder) (d : Deployment) (store : Store) :
    Except SettingsError Service := do
  let base ← (load lib order d).mapError .message
  (newService store base).initializeService lib order

def Selection.perform (lib : Library) (s : Service) :
    Selection → Except SettingsError Unit × Service
  | .file order d | .environment order d =>
    match restart lib order d s.store with
    | .ok s' => (.ok (), s')
    | .error e => (.error e, s)
  | .patch order fails now expected text actor =>
    (Call.patch order fails now expected (single "retention.preset" text) actor).perform lib s
  | .setRetentionPreset order now preset actor =>
    (Call.setRetentionPreset order now preset actor).perform lib s

def RetentionTier.variable_ : RetentionTier → String
  | .raw => "BINNACLE_RETENTION_RAW"
  | .oneMinute => "BINNACLE_RETENTION_ONE_MINUTE"
  | .fifteenMinute => "BINNACLE_RETENTION_FIFTEEN_MINUTE"
  | .oneHour => "BINNACLE_RETENTION_ONE_HOUR"

/-- The selection names the preset, and its source sets no tier. -/
def Selection.Selects (lib : Library) (name : String) : Selection → Prop
  | .file order d =>
    (∃ text, textOf (fileValues order d) "retention.preset" = some text ∧ lib.toLower text = name) ∧
      ∀ t : RetentionTier, textOf (fileValues order d) (Key.tier t).text = none
  | .environment _ d =>
    (d.getenv "BINNACLE_RETENTION_PRESET" ≠ "" ∧
      lib.toLower (d.getenv "BINNACLE_RETENTION_PRESET") = name) ∧
      ∀ t : RetentionTier, d.getenv t.variable_ = ""
  | .patch _ _ _ _ text _ => lib.toLower text = name
  | .setRetentionPreset _ _ preset _ => preset = name

def Store.tier (lib : Library) (store : Store) (t : RetentionTier) : Option Duration :=
  (store.stored lib (Key.tier t).text).bind fun text => (lib.parseDuration text).toOption

/-- What decides the tiers when the process starts: the stored override of a tier, the stored
preset, the environment, the file, the defaults. -/
def startTiers (lib : Library) (order : RowOrder) (d : Deployment) (store : Store) : Tiers :=
  overlay (store.tier lib)
    (presetTiers lib (store.stored lib "retention.preset") (deployedTiers lib order d))

/-- Before the selection, every source that will decide a tier has it as the preset does. -/
def Agrees (lib : Library) (s : Service) (r : Retention) : Selection → Prop
  | .file order d | .environment order d => ∀ t, startTiers lib order d s.store t = r.tiers t
  | .patch .. => ∀ t d, s.store.tier lib t = some d → d = r.tiers t
  | .setRetentionPreset _ _ preset _ =>
    if s.current.retention.preset = preset then s.current.retention.tiers = r.tiers
    else ∀ t d, s.store.tier lib t = some d → d = r.tiers t

section Selection

variable {lib : Library} {s s' : Service} {name text : String} {r : Retention} {stored : Values}
  {order : RowOrder} {store : Store}

theorem tierLayer_stored (h : store.overrides lib = .ok stored) :
    tierLayer lib stored = store.tier lib := by
  funext t
  unfold tierLayer layer Store.tier
  rw [textOf_overrides h]
  rfl

theorem tierLayer_merge_preset (h : store.overrides lib = .ok stored) :
    tierLayer lib (merge order stored (single "retention.preset" text)) = store.tier lib := by
  rw [← tierLayer_stored h]
  funext t
  unfold tierLayer layer
  rw [textOf_merge, overlay_apply, textOf_single, if_neg (by cases t <;> decide)]
  rfl

theorem textOf_merge_preset :
    textOf (merge order stored (single "retention.preset" text)) "retention.preset"
      = some text := by
  rw [textOf_merge, overlay_apply, textOf_single, if_pos rfl]
  rfl

/-- A preset in the overrides gives its tiers where no override of a tier says otherwise. -/
theorem merge_preset_iff {order' : RowOrder} {base c : Config}
    (hstored : store.overrides lib = .ok stored) (hresolve : resolveOverrides lib order base
      (merge order' stored (single "retention.preset" text)) = .ok c)
    (hname : lib.toLower text = name) (hpreset : retentionPreset name = some r) :
    c.retention.tiers = r.tiers ↔ ∀ t d, store.tier lib t = some d → d = r.tiers t := by
  have hadvanced : text ≠ "advanced" := by
    rintro rfl
    rw [lib.toLower_preset _ (by simp)] at hname
    rw [← hname] at hpreset
    exact (nomatch (show none = some r from hpreset))
  rw [(resolve_retention hresolve).1]
  unfold settledTiers
  rw [tierLayer_merge_preset hstored]
  have hbelow : presetTiers lib (some text) base.retention.tiers = r.tiers := by
    unfold presetTiers
    dsimp only
    rw [if_pos hadvanced, hname, hpreset]
    rfl
  rw [textOf_merge_preset, hbelow]
  exact overlay_eq_self_iff

theorem restart_tiers {d : Deployment} (h : restart lib order d store = .ok s') :
    s'.current.retention.tiers = startTiers lib order d store := by
  obtain ⟨base, hbase, hrest⟩ := bind_ok.mp h
  obtain ⟨stored, hstored, hrest⟩ := bind_ok.mp hrest
  obtain ⟨resolved, hresolved, hreturn⟩ := bind_ok.mp hrest
  cases hreturn
  have hoverrides : store.overrides lib = .ok stored := hstored
  have hresolve : resolveOverrides lib order base stored = .ok resolved := mapError_ok.mp hresolved
  show resolved.retention.tiers = _
  rw [(resolve_retention hresolve).1]
  unfold settledTiers startTiers
  rw [tierLayer_stored hoverrides, textOf_overrides hoverrides,
    (load_retention (mapError_ok.mp hbase)).1]

theorem call_preset_iff (hperform : call.perform lib s = (.ok (), s'))
    (htext : lib.toLower text = name) (hpreset : retentionPreset name = some r)
    (hother : ∀ order now preset actor, call = .setRetentionPreset order now preset actor →
      s.current.retention.preset ≠ preset)
    (hbring : ∀ values, call.Brings lib s values → ∃ order stored,
      s.store.overrides lib = .ok stored ∧
        values = merge order stored (single "retention.preset" text)) :
    s'.current.retention.tiers = r.tiers ↔
      ∀ t d, s.store.tier lib t = some d → d = r.tiers t := by
  have hsucceeds : call.Succeeds lib s := congrArg Prod.fst hperform
  rcases hsucceeds.cases with ⟨order, now, preset, actor, hset, hsame, -⟩ |
    ⟨order, values, store', resolved, hbrings, hresolve, hstep⟩
  · exact absurd hsame (hother order now preset actor hset)
  · obtain ⟨order', stored, hstored, rfl⟩ := hbring values hbrings
    have hs' : s' = { s with store := store', current := resolved
                             applied := resolved :: s.applied } :=
      (congrArg Prod.snd hperform).symm.trans hstep
    rw [hs']
    exact merge_preset_iff hstored hresolve htext hpreset

theorem restart_preset_iff {d : Deployment} (h : (match restart lib order d s.store with
      | .ok s' => (.ok (), s')
      | .error e => (.error e, s) : Except SettingsError Unit × Service) = (.ok (), s')) :
    s'.current.retention.tiers = r.tiers ↔
      ∀ t, startTiers lib order d s.store t = r.tiers t := by
  split at h
  · next s'' hs'' =>
    cases h
    rw [restart_tiers hs'']
    exact funext_iff
  · cases h

/-- A selection of a preset gives its tiers exactly if the sources that decide the tiers
agree with it beforehand. -/
theorem preset_effective_iff {selection : Selection} (hselects : selection.Selects lib name)
    (hpreset : retentionPreset name = some r) (hok : selection.perform lib s = (.ok (), s')) :
    s'.current.retention.tiers = r.tiers ↔ Agrees lib s r selection := by
  cases selection with
  | file order d | environment order d => exact restart_preset_iff hok
  | patch order fails now expected text actor =>
    have hperform : (Call.patch order fails now expected (single "retention.preset" text)
        actor).perform lib s = (.ok (), s') := hok
    exact call_preset_iff hperform hselects hpreset (fun _ _ _ _ h => Call.noConfusion h)
      fun values hbrings => ⟨order, hbrings⟩
  | setRetentionPreset order now preset actor =>
    have hperform : (Call.setRetentionPreset order now preset actor).perform lib s =
        (.ok (), s') := hok
    simp only [Agrees]
    by_cases hsame : s.current.retention.preset = preset
    · have hs' : s = s' := by
        have hnothing := congrArg Prod.snd hperform
        simp only [Call.perform, Service.setRetentionPreset] at hnothing
        rwa [if_pos hsame] at hnothing
      rw [if_pos hsame, hs']
    · rw [if_neg hsame]
      have hlower : lib.toLower preset = name := by
        rw [show preset = name from hselects]
        exact lib.toLower_preset name (name_of_retentionPreset hpreset)
      refine call_preset_iff hperform hlower hpreset (fun _ _ _ _ h => ?_)
        fun values hbrings => ⟨order, hbrings.2⟩
      cases h
      exact hsame

end Selection

/-- A file that selects the preset `minimal`, by a key in quotes: a table `[retention]` would be
refused. -/
def minimalFile : Deployment := fileDeployment (some (.value "retention.preset" "minimal" .nil))

def selectMinimal (expected : Int) : Selection :=
  .patch RowOrder.stored (fun _ => false) 0 expected "minimal" "admin"

def shortRaw : Service :=
  (patchOne 0 "retention.raw" "1h").step plainLibrary (newService emptyStore plainBase)

/-- A file that selects `minimal` leaves the tiers of the default preset, and a patch that
selects it leaves a tier that was patched before. -/
theorem preset_without_effect :
    (Selection.file RowOrder.stored minimalFile).Selects plainLibrary "minimal" ∧
      ((Selection.file RowOrder.stored minimalFile).perform plainLibrary
        (newService emptyStore plainBase)).1 = .ok () ∧
      ((Selection.file RowOrder.stored minimalFile).perform plainLibrary
        (newService emptyStore plainBase)).2.current.retention.raw = 48 * hour ∧
      ((selectMinimal 1).perform plainLibrary shortRaw).1 = .ok () ∧
      ((selectMinimal 1).perform plainLibrary shortRaw).2.current.retention =
        { preset := "minimal", raw := hour, oneMinute := 7 * day, fifteenMinute := 90 * day
          oneHour := 365 * day } ∧
      (retentionPreset "minimal").map Retention.raw = some (12 * hour) := by
  have hfile : textOf (fileValues RowOrder.stored minimalFile) "retention.preset" =
      some "minimal" ∧ (∀ t ∈ [RetentionTier.raw, .oneMinute, .fifteenMinute, .oneHour],
        textOf (fileValues RowOrder.stored minimalFile) (Key.tier t).text = none) := by
    decide +kernel
  refine ⟨⟨⟨"minimal", hfile.1, rfl⟩, fun t => hfile.2 t (by cases t <;> simp)⟩, ?_⟩
  decide +kernel

/-- On a store without overrides the patch gives the tiers of the preset. -/
theorem preset_effective_iff_fresh :
    ((selectMinimal 0).perform plainLibrary (newService emptyStore plainBase)).1 = .ok () ∧
      ∃ r, retentionPreset "minimal" = some r ∧
        ((selectMinimal 0).perform plainLibrary
          (newService emptyStore plainBase)).2.current.retention.tiers = r.tiers := by
  have hok : ((selectMinimal 0).perform plainLibrary (newService emptyStore plainBase)).1 =
      .ok () := by decide +kernel
  have hselects : (selectMinimal 0).Selects plainLibrary "minimal" := rfl
  refine ⟨hok, _, rfl, (preset_effective_iff hselects rfl (Prod.ext hok rfl)).mpr ?_⟩
  -- nothing is stored
  intro t d hd
  cases hd

end Binnacle.Settings
