import Binnacle.Settings.Load

/-!
# The settings service

Model of `internal/settings/store.go`: the stored overrides with their audit rows and
revision, and the operations of `Service`.

- `Store.overrides`, `Service.initializeService`, `Service.snapshot`, `Service.patch`,
  `Service.setRetentionPreset`.
- `textOf_overrides`: what the decoded overrides are, by name.

Each statement of a transaction may fail (`PatchPoint`); a failure before the commit
rolls the transaction back. Of a snapshot only the revision is kept.
-/

namespace Binnacle.Settings

open Relational Layers

/-- A row of `settings`. -/
structure SettingRow where
  key : String
  valueJSON : String
  updatedAt : Int
  updatedBy : String

/-- A row of `settings_audit`. -/
structure AuditRow where
  revision : Int
  settingKey : String
  previousValueJSON : Option String
  newValueJSON : String
  actor : String
  changedAt : Int

/-- The stored settings: the audit rows from the oldest on, and the revision kept in
`application_metadata`. -/
structure Store where
  settings : Table SettingRow.key
  audit : List AuditRow
  revision : Int

inductive SettingsError where
  /-- `ErrRevisionConflict`. -/
  | revisionConflict
  | message (text : String)
  /-- A statement failed. -/
  | storage
  deriving DecidableEq

/-- `Service` (store.go:71-78), with the configurations given to its `apply` function, the
newest first. -/
structure Service where
  store : Store
  base : Config
  current : Config
  applied : List Config

/-- `NewService` (store.go:80-82). -/
def newService (store : Store) (base : Config) : Service := ⟨store, base, base, []⟩

/-- The statements of `Patch`, in the order they are made. -/
inductive PatchPoint where
  | beginTx
  | revision
  | overrides
  | setting (key : String)
  | audit (key : String)
  | metadata
  | commit
  /-- The reads after the commit. -/
  | snapshot

/-- `editable` (store.go:127-134); every mode in it is live. -/
def editable : List Key :=
  [.hostInterval, .containerInterval, .rawInterval, .preset, .tier .raw, .tier .oneMinute,
   .tier .fifteenMinute, .tier .oneHour, .targetBudgetBytes, .maxPointsPerSeries, .idleTimeout,
   .absoluteLifetime]

section Operations

variable (lib : Library) (order : RowOrder)

/-- One row of the result (store.go:40-49). -/
def decodeRow (values : Values) (row : SettingRow) : Except SettingsError Values :=
  match lib.unmarshal row.valueJSON with
  | .error e => .error (.message ("decode setting " ++ row.key ++ ": " ++ e))
  | .ok value => .ok (values.insertOrReplace (row.key, value))

/-- `overrides` (store.go:30-51): `ORDER BY key`. -/
def Store.overrides (s : Store) : Except SettingsError Values :=
  (s.settings.rows.insertionSort fun a b => a.key ≤ b.key).foldlM (decodeRow lib) Table.empty

/-- `Initialize` (store.go:109-125). -/
def Service.initializeService (s : Service) : Except SettingsError Service := do
  let overrides ← s.store.overrides lib
  let resolved ← (resolveOverrides lib order s.base overrides).mapError .message
  return { s with current := resolved, applied := resolved :: s.applied }

/-- `Snapshot` (store.go:146-173). -/
def Service.snapshot (s : Service) : Except SettingsError Int := do
  let overrides ← s.store.overrides lib
  let _ ← (resolveOverrides lib order s.base overrides).mapError .message
  return s.store.revision

/-- The changes laid over the stored overrides (store.go:202-208). -/
def merge (current changes : Values) : Values :=
  (order.arrange changes.rows).foldl Table.insertOrReplace current

def statement (fails : PatchPoint → Bool) (point : PatchPoint) : Except SettingsError Unit :=
  if fails point then .error .storage else .ok ()

/-- One change (store.go:215-229). -/
def writeChange (fails : PatchPoint → Bool) (now : Time) (actor : String) (next : Int)
    (current : Values) (store : Store) (change : String × String) : Except SettingsError Store := do
  let raw := lib.marshal change.2
  let row : SettingRow := ⟨change.1, raw, unixMilli now, actor⟩
  statement fails (.setting change.1)
  let settings := store.settings.upsert row
    (fun s => { s with valueJSON := raw, updatedAt := unixMilli now, updatedBy := actor })
    fun _ => rfl
  statement fails (.audit change.1)
  let entry : AuditRow :=
    { revision := next, settingKey := change.1
      previousValueJSON := (textOf current change.1).map lib.marshal
      newValueJSON := raw, actor, changedAt := unixMilli now }
  return { store with settings, audit := store.audit ++ [entry] }

/-- The transaction of `Patch` (store.go:186-235). -/
def patchTx (fails : PatchPoint → Bool) (now : Time) (base : Config) (expected : Int)
    (changes : Values) (actor : String) (store : Store) :
    Except SettingsError (Store × Config) := do
  statement fails .beginTx
  statement fails .revision
  if store.revision ≠ expected then .error .revisionConflict
  else
    statement fails .overrides
    let current ← store.overrides lib
    let merged := merge order current changes
    let resolved ← (resolveOverrides lib order base merged).mapError .message
    let next := store.revision + 1
    let store ← (order.arrange changes.rows).foldlM
      (writeChange lib fails now actor next current) store
    statement fails .metadata
    statement fails .commit
    return ({ store with revision := next }, resolved)

/-- `Patch` (store.go:175-241): the answer, and the service it leaves. -/
def Service.patch (fails : PatchPoint → Bool) (now : Time) (expected : Int) (changes : Values)
    (actor : String) (s : Service) : Except SettingsError Int × Service :=
  if changes.rows.length = 0 ∨ changes.rows.length > 16 then
    (.error (.message "one to sixteen settings changes are required"), s)
  else
    match (order.arrange changes.rows).find? fun row =>
      !((editable.map Key.text).contains row.1) || !uiOverridable row.1 with
    | some row => (.error (.message ("setting " ++ row.1 ++ " is not editable")), s)
    | none =>
      match patchTx lib order fails now s.base expected changes actor s.store with
      | .error e => (.error e, s)
      | .ok (store, resolved) =>
        let s := { s with store, current := resolved, applied := resolved :: s.applied }
        -- `snapshotLocked` reads the store again after the commit
        (if fails .snapshot then .error .storage
          else (s.store.overrides lib).map fun _ => s.store.revision, s)

/-- The loop of `SetRetentionPreset` (store.go:98-107). -/
def Service.attemptPreset (now : Time) (preset actor : String) :
    Nat → Service → Except SettingsError Unit × Service
  | 0, s => (.error .revisionConflict, s)
  | attempts + 1, s =>
    match s.snapshot lib order with
    | .error e => (.error e, s)
    | .ok revision =>
      match s.patch lib order (fun _ => false) now revision (single "retention.preset" preset)
        actor with
      | (.error .revisionConflict, s) => s.attemptPreset now preset actor attempts
      | (.error e, s) => (.error e, s)
      | (.ok _, s) => (.ok (), s)

/-- `SetRetentionPreset` (store.go:91-108), while no other call is made. -/
def Service.setRetentionPreset (now : Time) (preset actor : String) (s : Service) :
    Except SettingsError Unit × Service :=
  if s.current.retention.preset = preset then (.ok (), s)
  else if (retentionPreset preset).isNone then
    (.error (.message "retention preset is invalid"), s)
  else s.attemptPreset lib order now preset actor 3

end Operations

/-! ## Stored overrides -/

section Overrides

variable {lib : Library} {order : RowOrder} {store : Store} {values : Values}

def Store.stored (lib : Library) (store : Store) (name : String) : Option String :=
  (store.settings.find? name).bind fun row => (lib.unmarshal row.valueJSON).toOption

theorem textOf_insertOrReplace (values : Values) (name value : String) (name' : String) :
    textOf (values.insertOrReplace (name, value)) name' =
      if name = name' then some value else textOf values name' := by
  unfold textOf
  rw [Table.find?_insertOrReplace]
  split
  · rfl
  · rfl

theorem decodeRow_ok {values' : Values} {row : SettingRow}
    (h : decodeRow lib values row = .ok values') :
    textOf values' = overlay (fun name => if row.key = name then
      some (lib.unmarshal row.valueJSON).toOption else none) (textOf values) := by
  unfold decodeRow at h
  cases hvalue : lib.unmarshal row.valueJSON with
  | error e =>
    rw [hvalue] at h
    cases h
  | ok value =>
    rw [hvalue] at h
    cases h
    funext name
    rw [textOf_insertOrReplace, overlay_ite]
    rfl

theorem textOf_overrides (h : store.overrides lib = .ok values) :
    textOf values = store.stored lib := by
  have hfold := foldlM_ok_proj textOf (fun f (row : SettingRow) => overlay (fun name =>
    if row.key = name then some (lib.unmarshal row.valueJSON).toOption else none) f)
    (fun _ _ _ => decodeRow_ok) h
  have hplace : ∀ (row : SettingRow) (name : String), row.key ≠ name →
      (if row.key = name then some (lib.unmarshal row.valueJSON).toOption else none) = none :=
    fun row name hne => if_neg hne
  rw [hfold, foldl_overlay_rows (List.perm_insertionSort _ _) hplace]
  funext name
  rw [overlay_apply]
  unfold Store.stored
  cases hrow : store.settings.find? name with
  | none => rfl
  | some row =>
    rw [Option.bind_some, if_pos (Table.find?_eq_some_iff.mp hrow).2]
    rfl

def Store.Decodable (lib : Library) (store : Store) : Prop :=
  ∀ row ∈ store.settings.rows, ∃ value, lib.unmarshal row.valueJSON = .ok value

theorem overrides_ok_of_decodable (h : store.Decodable lib) :
    ∃ values, store.overrides lib = .ok values := by
  have hsorted : ∀ row ∈ store.settings.rows.insertionSort fun a b => a.key ≤ b.key,
      ∃ value, lib.unmarshal row.valueJSON = .ok value := fun row hrow =>
    h row ((List.perm_insertionSort _ _).mem_iff.mp hrow)
  obtain ⟨values, hvalues, -⟩ := foldlM_ok_of_inv (f := decodeRow lib)
    (fun rows _ => ∀ row ∈ rows, ∃ value, lib.unmarshal row.valueJSON = .ok value) (by
      intro row rows values hrows
      obtain ⟨value, hvalue⟩ := hrows row List.mem_cons_self
      refine ⟨values.insertOrReplace (row.key, value), ?_, fun r hr => hrows r (.tail _ hr)⟩
      unfold decodeRow
      rw [hvalue]) (s := Table.empty) hsorted
  exact ⟨values, hvalues⟩

theorem decodable_of_overrides_ok (h : store.overrides lib = .ok values) : store.Decodable lib := by
  have hrows : ∀ (rows : List SettingRow) (values values' : Values),
      rows.foldlM (decodeRow lib) values = .ok values' →
        ∀ row ∈ rows, ∃ value, lib.unmarshal row.valueJSON = .ok value := by
    intro rows
    induction rows with
    | nil => exact nofun
    | cons row rows ih =>
      intro values values' h
      obtain ⟨values₁, hrow, hrest⟩ := foldlM_cons_ok.mp h
      refine List.forall_mem_cons.mpr ⟨?_, ih values₁ values' hrest⟩
      unfold decodeRow at hrow
      cases hvalue : lib.unmarshal row.valueJSON with
      | error e =>
        rw [hvalue] at hrow
        cases hrow
      | ok value => exact ⟨value, rfl⟩
  intro row hrow
  exact hrows _ _ _ h row ((List.perm_insertionSort _ _).mem_iff.mpr hrow)

theorem foldl_overlay_changes (order : RowOrder) (changes : Values) (f : String → Option String) :
    (order.arrange changes.rows).foldl (fun f change =>
      overlay (fun name => if change.1 = name then some (some change.2) else none) f) f =
      overlay (fun name => (textOf changes name).map some) f := by
  have hplace : ∀ (change : String × String) (name : String), change.1 ≠ name →
      (if change.1 = name then some (some change.2) else none : Option (Option String)) = none :=
    fun change name hne => if_neg hne
  rw [foldl_overlay_rows (order.perm changes.rows) hplace]
  refine congrFun (congrArg overlay (funext fun name => ?_)) _
  unfold textOf
  cases hchange : changes.find? name with
  | none => rfl
  | some change => exact if_pos (Table.find?_eq_some_iff.mp hchange).2

theorem textOf_merge (current changes : Values) :
    textOf (merge order current changes) =
      overlay (fun name => (textOf changes name).map some) (textOf current) := by
  have hstep : ∀ (values : Values) (change : String × String),
      textOf (values.insertOrReplace change) = overlay (fun name => if change.1 = name then
        some (some change.2) else none) (textOf values) := by
    intro values change
    funext name
    rw [textOf_insertOrReplace values change.1 change.2, overlay_ite]
  have hfold : ∀ (rows : List (String × String)) (values : Values),
      textOf (rows.foldl Table.insertOrReplace values) = rows.foldl (fun f change =>
        overlay (fun name => if change.1 = name then some (some change.2) else none) f)
        (textOf values) := by
    intro rows values
    exact (List.foldl_hom textOf fun values change => (hstep values change).symm).symm
  exact (hfold _ _).trans (foldl_overlay_changes order changes _)

end Overrides

/-! ## What a patch writes -/

section Patch

variable {lib : Library} {order : RowOrder} {fails : PatchPoint → Bool} {now : Time}
  {actor : String} {store store' : Store} {current : Values} {change : String × String}

def Store.newest (store : Store) (name : String) : Option AuditRow :=
  store.audit.reverse.find? fun entry => entry.settingKey = name

def Store.Audited (store : Store) : Prop :=
  ∀ k ∈ editable, ∀ row, store.settings.find? k.text = some row →
    ∃ entry, store.newest k.text = some entry ∧ entry.newValueJSON = row.valueJSON

theorem find?_upsert_setting (settings : Table SettingRow.key) (name raw : String) (at_ : Int)
    (by_ : String) (name' : String) :
    (settings.upsert ⟨name, raw, at_, by_⟩
      (fun s => { s with valueJSON := raw, updatedAt := at_, updatedBy := by_ })
      fun _ => rfl).find? name' =
        if name = name' then some ⟨name, raw, at_, by_⟩ else settings.find? name' := by
  rw [Table.find?_upsert]
  by_cases h : name = name'
  · rw [if_pos h, if_pos h]
    cases hrow : settings.find? name' with
    | none => rfl
    | some row =>
      have hkey : row.key = name' := (Table.find?_eq_some_iff.mp hrow).2
      subst h
      show some (SettingRow.mk row.key raw at_ by_) = _
      rw [hkey]
  · rw [if_neg h, if_neg h]

section Written

variable {next : Int}
  (h : writeChange lib fails now actor next current store change = .ok store')

include h

theorem writeChange_ok :
    store'.revision = store.revision ∧
      (∀ name, store'.settings.find? name = if change.1 = name then
        some ⟨change.1, lib.marshal change.2, unixMilli now, actor⟩
        else store.settings.find? name) ∧
      ∃ entry, entry.settingKey = change.1 ∧ entry.newValueJSON = lib.marshal change.2 ∧
        store'.audit = store.audit ++ [entry] := by
  obtain ⟨_, -, h⟩ := bind_ok.mp h
  obtain ⟨_, -, h⟩ := bind_ok.mp h
  cases h
  exact ⟨rfl, find?_upsert_setting _ _ _ _ _, _, rfl, rfl, rfl⟩

theorem writeChange_stored :
    store'.stored lib = overlay (fun name => if change.1 = name then some (some change.2) else none)
      (store.stored lib) := by
  obtain ⟨-, hfind, -⟩ := writeChange_ok h
  funext name
  rw [overlay_ite]
  unfold Store.stored
  rw [hfind]
  by_cases hname : change.1 = name
  · rw [if_pos hname, if_pos hname, Option.bind_some, lib.unmarshal_marshal]
    rfl
  · rw [if_neg hname, if_neg hname]

theorem writeChange_decodable (hstore : store.Decodable lib) : store'.Decodable lib := by
  obtain ⟨-, hfind, -⟩ := writeChange_ok h
  intro row hrow
  have hself := hfind row.key
  rw [Table.find?_eq_some_iff.mpr ⟨hrow, rfl⟩] at hself
  split at hself
  · cases hself
    exact ⟨change.2, lib.unmarshal_marshal _⟩
  · exact hstore row (Table.find?_eq_some_iff.mp hself.symm).1

theorem writeChange_audited (hstore : store.Audited) : store'.Audited := by
  obtain ⟨-, hfind, entry, hkey, hvalue, haudit⟩ := writeChange_ok h
  have hnewest : ∀ name, store'.newest name =
      if change.1 = name then some entry else store.newest name := by
    intro name
    unfold Store.newest
    rw [haudit, List.reverse_append, List.reverse_singleton, List.singleton_append]
    by_cases hname : change.1 = name
    · rw [if_pos hname, List.find?_cons_of_pos (by simpa [hkey] using hname)]
    · rw [if_neg hname, List.find?_cons_of_neg (by simpa [hkey] using hname)]
  intro k hk row hrow
  rw [hfind] at hrow
  rw [hnewest]
  by_cases hname : change.1 = k.text
  · rw [if_pos hname] at hrow ⊢
    cases hrow
    exact ⟨entry, rfl, hvalue⟩
  · rw [if_neg hname] at hrow ⊢
    exact hstore k hk row hrow

end Written

theorem foldlM_writeChange_stored {next : Int} {changes : Values}
    (h : (order.arrange changes.rows).foldlM (writeChange lib fails now actor next current) store =
      .ok store') :
    store'.stored lib =
      overlay (fun name => (textOf changes name).map some) (store.stored lib) := by
  have hfold := foldlM_ok_proj (Store.stored lib) (fun f (change : String × String) =>
    overlay (fun name => if change.1 = name then some (some change.2) else none) f)
    (fun _ _ _ => writeChange_stored) h
  exact hfold.trans (foldl_overlay_changes order changes _)

structure Committed (lib : Library) (order : RowOrder) (base : Config) (expected : Int)
    (changes : Values) (store store' : Store) (resolved : Config) : Prop where
  found : store.revision = expected
  next : store'.revision = expected + 1
  resolves : ∃ current, store.overrides lib = .ok current ∧
    resolveOverrides lib order base (merge order current changes) = .ok resolved
  stored : store'.stored lib =
    overlay (fun name => (textOf changes name).map some) (store.stored lib)
  decodable : store.Decodable lib → store'.Decodable lib
  audited : store.Audited → store'.Audited

theorem patchTx_ok {base resolved : Config} {expected : Int} {changes : Values}
    (h : patchTx lib order fails now base expected changes actor store = .ok (store', resolved)) :
    Committed lib order base expected changes store store' resolved := by
  obtain ⟨_, -, h⟩ := bind_ok.mp h
  obtain ⟨_, -, h⟩ := bind_ok.mp h
  split at h
  · cases h
  · next hrevision =>
    obtain ⟨_, -, h⟩ := bind_ok.mp h
    obtain ⟨current, hcurrent, h⟩ := bind_ok.mp h
    obtain ⟨config, hconfig, h⟩ := bind_ok.mp h
    obtain ⟨written, hwritten, h⟩ := bind_ok.mp h
    obtain ⟨_, -, h⟩ := bind_ok.mp h
    obtain ⟨_, -, h⟩ := bind_ok.mp h
    cases h
    have hfound : store.revision = expected := not_not.mp hrevision
    have hstored := foldlM_writeChange_stored hwritten
    have hdecodable : store.Decodable lib → written.Decodable lib :=
      foldlM_ok_rel (R := fun s s' => s.Decodable lib → s'.Decodable lib) (fun _ h => h)
        (fun h h' hs => h' (h hs)) (fun _ _ _ hstep => writeChange_decodable hstep) hwritten
    have haudited : store.Audited → written.Audited :=
      foldlM_ok_rel (R := fun s s' => s.Audited → s'.Audited) (fun _ h => h)
        (fun h h' hs => h' (h hs)) (fun _ _ _ hstep => writeChange_audited hstep) hwritten
    exact {
      found := hfound
      next := congrArg (· + 1) hfound
      resolves := ⟨current, hcurrent, mapError_ok.mp hconfig⟩
      stored := hstored
      decodable := hdecodable
      audited := haudited }

theorem patch_cases (lib : Library) (order : RowOrder) (fails : PatchPoint → Bool) (now : Time)
    (expected : Int) (changes : Values) (actor : String) (s : Service) :
    (∃ e, s.patch lib order fails now expected changes actor = (.error e, s)) ∨
    ∃ answer store' resolved, s.patch lib order fails now expected changes actor =
        (answer,
          { s with store := store', current := resolved, applied := resolved :: s.applied }) ∧
      (answer = .ok (expected + 1) ∨ fails .snapshot = true ∧ answer = .error .storage) ∧
      (∀ row ∈ changes.rows, ∃ k ∈ editable, row.1 = k.text) ∧
      Committed lib order s.base expected changes s.store store' resolved := by
  unfold Service.patch
  split
  · exact .inl ⟨_, rfl⟩
  · split
    · exact .inl ⟨_, rfl⟩
    · next heditable =>
      cases htx : patchTx lib order fails now s.base expected changes actor s.store with
      | error e => exact .inl ⟨e, rfl⟩
      | ok done =>
        obtain ⟨store', resolved⟩ := done
        have hdone := patchTx_ok htx
        refine .inr ⟨_, store', resolved, rfl, ?_, fun row hrow => ?_, hdone⟩
        · by_cases hsnapshot : fails .snapshot = true
          · exact .inr ⟨hsnapshot, if_pos hsnapshot⟩
          · obtain ⟨current, hcurrent, -⟩ := hdone.resolves
            obtain ⟨values, hvalues⟩ :=
              overrides_ok_of_decodable (hdone.decodable (decodable_of_overrides_ok hcurrent))
            refine .inl ?_
            dsimp only
            rw [if_neg hsnapshot, hvalues, hdone.next]
            rfl
        · have hrow' := List.find?_eq_none.mp heditable row (order.mem_arrange.mpr hrow)
          simp only [Bool.or_eq_true, Bool.not_eq_true', not_or, Bool.not_eq_false,
            List.contains_iff_mem, List.mem_map] at hrow'
          obtain ⟨k, hk, htext⟩ := hrow'.1
          exact ⟨k, hk, htext.symm⟩

theorem patch_ok {expected revision : Int} {changes : Values} {s s' : Service}
    (h : s.patch lib order fails now expected changes actor = (.ok revision, s')) :
    revision = expected + 1 ∧ ∃ store' resolved,
      s' = { s with store := store', current := resolved, applied := resolved :: s.applied } ∧
        Committed lib order s.base expected changes s.store store' resolved := by
  rcases patch_cases lib order fails now expected changes actor s with
    ⟨e, he⟩ | ⟨answer, store', resolved, hanswer, hrevision, -, hdone⟩
  · rw [he] at h
    cases h
  · rw [hanswer] at h
    cases h
    refine ⟨?_, store', resolved, rfl, hdone⟩
    rcases hrevision with hrevision | ⟨-, herror⟩
    · exact Except.ok.inj hrevision
    · cases herror

theorem attemptPreset_ok {preset : String} {attempts : Nat} {s s' : Service}
    (h : s.attemptPreset lib order now preset actor attempts = (.ok (), s')) :
    ∃ store' resolved,
      s' = { s with store := store', current := resolved, applied := resolved :: s.applied } ∧
        Committed lib order s.base s.store.revision (single "retention.preset" preset) s.store
          store' resolved := by
  induction attempts with
  | zero => cases h
  | succ attempts ih =>
    unfold Service.attemptPreset at h
    cases hsnapshot : s.snapshot lib order with
    | error e =>
      rw [hsnapshot] at h
      cases h
    | ok revision =>
      rw [hsnapshot] at h
      have hrevision : revision = s.store.revision := by
        obtain ⟨_, -, hrest⟩ := bind_ok.mp hsnapshot
        obtain ⟨_, -, hrest⟩ := bind_ok.mp hrest
        cases hrest
        rfl
      subst hrevision
      dsimp only at h
      rcases patch_cases lib order (fun _ => false) now s.store.revision
          (single "retention.preset" preset) actor s with
        ⟨e, he⟩ | ⟨answer, store', resolved, hanswer, hanswered, -, hdone⟩
      · rw [he] at h
        cases e with
        | revisionConflict => exact ih h
        | message text => cases h
        | storage => cases h
      · rcases hanswered with rfl | ⟨hfails, -⟩
        · rw [hanswer] at h
          cases h
          exact ⟨store', resolved, rfl, hdone⟩
        · cases hfails

end Patch

end Binnacle.Settings
