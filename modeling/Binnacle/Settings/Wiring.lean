import Binnacle.Auth.Sessions
import Binnacle.Settings.Updates
import Binnacle.Storage.Budget
import Binnacle.Storage.History

/-!
# Which settings are live

The components as `main` wires them to the settings (`cmd/binnacle/main.go`), and what they
use of each key that `editable` marks as live.

- `wire`, `Components.apply`: the components at the start, and the function the service calls
  with every configuration it brings into force.
- `samplerInterval`: the sampler asks the service before every wait.
- `Live`: the components use what `Current` says.
- `settings_live_iff`: when they do. The interval of the persistence and the target of the
  budget are read once from the deployment's configuration, the interval of the containers and
  the limit of the points by nobody.

The demo mode, which has no sampler, is left out.
-/

namespace Binnacle.Settings

open Relational Layers Runs

/-! ## The components -/

structure Components where
  sessions : Auth.Sessions
  manager : Storage.Manager
  /-- `Interval` of `Persistence`. -/
  persistenceInterval : Duration

/-- `auth.SessionConfig{…}` (main.go:87, 93). -/
def Config.sessionConfig (c : Config) : Auth.SessionConfig where
  idleTimeout := c.sessions.idleTimeout
  absoluteLifetime := c.sessions.absoluteLifetime

/-- The components at the start (main.go:76-87), with the default that `Persistence` puts in
place of an interval that is not positive (persistence.go:33-35). -/
def wire (base : Config) (table : Table Auth.SessionRow.idHash) (db : Storage.Database) :
    Components where
  sessions := { table, cfg := base.sessionConfig }
  manager := Storage.setBudgetTarget { db } base.database.targetBudgetBytes
  persistenceInterval :=
    if base.persistence.rawInterval ≤ 0 then 10 * second else base.persistence.rawInterval

/-- The function given to `NewService` (main.go:92-95). -/
def Components.apply (updated : Config) (p : Components) : Components :=
  { p with
    sessions := p.sessions.setConfig updated.sessionConfig
    manager := Storage.setRetention p.manager updated.cutoffs }

/-- The components after all that the service has given to `apply`. After `Initialize` the
cutoffs are set once more, to what they are (main.go:193-194). -/
def Components.after (p : Components) (s : Service) : Components :=
  s.applied.foldr Components.apply p

/-- The wait between two collections, of the host and the containers alike
(sampler.go:93-96, main.go:159-161). -/
def samplerInterval (s : Service) : Duration :=
  let interval := s.current.collection.hostInterval
  if interval ≥ second then interval else 2 * second

/-- The components use what `Current` says of every live key. -/
structure Live (p : Components) (s : Service) : Prop where
  hostInterval : samplerInterval s = s.current.collection.hostInterval
  containerInterval : samplerInterval s = s.current.collection.containerInterval
  rawInterval : p.persistenceInterval = s.current.persistence.rawInterval
  cutoffs : p.manager.retention = s.current.cutoffs
  targetBudgetBytes : p.manager.budget.targetBytes = s.current.database.targetBudgetBytes
  maxPointsPerSeries : ∀ q order r, Storage.queryMetrics order p.manager.db q = .ok r →
    ∀ series ∈ r.series, (series.points.length : Int) ≤ s.current.maxPointsPerSeries
  sessions : p.sessions.cfg = s.current.sessionConfig

/-! ## Which overrides are live -/

/-- A key other than those of the retention, with overrides: by the override, or from the
deployment. -/
def settled (lib : Library) (base : Config) (values : Values) (k : Key) : k.Value :=
  overlay (layer lib values) base.get k

/-- Overrides that the components follow: one interval of at least a second for the host and the
containers, the interval of the persistence and the target of the deployment, and no query with
more rows than points are allowed. -/
structure LiveValues (lib : Library) (base : Config) (db : Storage.Database) (values : Values) :
    Prop where
  hostInterval : second ≤ settled lib base values .hostInterval
  containerInterval :
    settled lib base values .containerInterval = settled lib base values .hostInterval
  rawInterval : settled lib base values .rawInterval = base.persistence.rawInterval
  targetBudgetBytes :
    settled lib base values .targetBudgetBytes = base.database.targetBudgetBytes
  maxPointsPerSeries : ∀ q : Storage.MetricQuery, q.validate = .ok () →
    (Storage.rowsInRange db q : Int) ≤ settled lib base values .maxPointsPerSeries

section Live

variable {lib : Library} {order : RowOrder} {base c : Config} {values : Values} {s : Service}
  {table : Table Auth.SessionRow.idHash} {db : Storage.Database}

def plainKeys : List Key :=
  [.hostInterval, .containerInterval, .rawInterval, .targetBudgetBytes, .maxPointsPerSeries]

theorem resolveOverrides_settled (h : resolveOverrides lib order base values = .ok c) {k : Key}
    (hk : k ∈ plainKeys) : c.get k = settled lib base values k := by
  obtain ⟨start, hstart, -, rfl, -⟩ := resolveOverrides_ok_iff.mp h
  have hbase : start.get k = base.get k := by
    obtain ⟨retention, rfl⟩ := presetBase_eq hstart
    simp only [plainKeys, List.mem_cons, List.not_mem_nil, or_false] at hk
    rcases hk with rfl | rfl | rfl | rfl | rfl <;> rfl
  have heditable : k ∈ editable := by
    have hall : ∀ k ∈ plainKeys, k ∈ editable := by decide
    exact hall k hk
  rw [get_normalize _ heditable, get_under]
  unfold settled
  rw [overlay_apply, overlay_apply, hbase]

theorem after_eq (p : Components) (s : Service) :
    (p.after s).persistenceInterval = p.persistenceInterval ∧
      (p.after s).manager.budget = p.manager.budget ∧ (p.after s).manager.db = p.manager.db := by
  unfold Components.after
  induction s.applied with
  | nil => exact ⟨rfl, rfl, rfl⟩
  | cons c applied ih => exact ih

theorem durations_of_validate (h : c.validate lib order = .ok ()) :
    0 < c.persistence.rawInterval ∧ c.sessionConfig.valid = true := by
  have hchecks := (Config.validate_ok_iff.mp h).1
  unfold Config.checks at hchecks
  simp only [List.forall_mem_cons, forM_ok_iff, refuse_ok, decide_eq_false_iff_not, not_le,
    not_lt] at hchecks
  obtain ⟨-, -, -, -, -, -, -, -, -, -, -, hpositive, habsolute, -⟩ := hchecks
  have hraw := hpositive ("persistence.raw_interval", c.persistence.rawInterval)
    (order.mem_arrange.mpr (by simp [Config.normalize]))
  have hidle := hpositive ("sessions.idle_timeout", c.sessions.idleTimeout)
    (order.mem_arrange.mpr (by simp [Config.normalize]))
  refine ⟨hraw, ?_⟩
  unfold Auth.SessionConfig.valid
  simp only [Bool.and_eq_true, decide_eq_true_eq]
  exact ⟨hidle, habsolute⟩

theorem samplerInterval_eq_iff (s : Service) :
    samplerInterval s = s.current.collection.hostInterval ↔
      second ≤ s.current.collection.hostInterval := by
  unfold samplerInterval
  dsimp only
  split
  · next hlong => exact iff_of_true rfl hlong
  · next hshort =>
    refine iff_of_false (fun h => hshort ?_) hshort
    rw [← h]
    decide

/-- Once a configuration is in force, the components follow it exactly if the overrides it
comes from are live. -/
theorem live_iff_values (hbase : base.validate lib order = .ok ()) {applied : List Config}
    (happlied : s.applied = s.current :: applied) {order' : RowOrder}
    (hresolved : resolveOverrides lib order' base values = .ok s.current) :
    Live ((wire base table db).after s) s ↔ LiveValues lib base db values := by
  obtain ⟨hinterval, hbudget, hdb⟩ := after_eq (wire base table db) s
  obtain ⟨-, -, -, -, hvalid⟩ := resolveOverrides_ok_iff.mp hresolved
  have hraw : (wire base table db).persistenceInterval = base.persistence.rawInterval :=
    if_neg (not_le.mpr (durations_of_validate hbase).1)
  have hcutoffs : ((wire base table db).after s).manager.retention = s.current.cutoffs := by
    unfold Components.after
    rw [happlied]
    rfl
  have hsessions : ((wire base table db).after s).sessions.cfg = s.current.sessionConfig := by
    unfold Components.after
    rw [happlied]
    show ((List.foldr Components.apply (wire base table db) applied).sessions.setConfig
      s.current.sessionConfig).cfg = _
    unfold Auth.Sessions.setConfig
    rw [if_pos (durations_of_validate hvalid).2]
  have hsettled : ∀ k ∈ plainKeys, s.current.get k = settled lib base values k :=
    fun k hk => resolveOverrides_settled hresolved hk
  have hhost : s.current.collection.hostInterval = settled lib base values .hostInterval :=
    hsettled .hostInterval (by decide)
  have hcontainer : s.current.collection.containerInterval =
    settled lib base values .containerInterval := hsettled .containerInterval (by decide)
  have hrawSettled : s.current.persistence.rawInterval = settled lib base values .rawInterval :=
    hsettled .rawInterval (by decide)
  have htarget : s.current.database.targetBudgetBytes =
    settled lib base values .targetBudgetBytes := hsettled .targetBudgetBytes (by decide)
  have hpoints : s.current.maxPointsPerSeries = settled lib base values .maxPointsPerSeries :=
    hsettled .maxPointsPerSeries (by decide)
  constructor
  · intro h
    have hfollows := h.hostInterval
    refine ⟨?_, ?_, ?_, ?_, fun q => ?_⟩
    · rw [← hhost]
      exact (samplerInterval_eq_iff s).mp hfollows
    · rw [← hcontainer, ← hhost, ← h.containerInterval, hfollows]
    · rw [← hrawSettled, ← h.rawInterval, hinterval, hraw]
    · rw [← htarget, ← h.targetBudgetBytes, hbudget]
      rfl
    · rw [← hpoints]
      have hq := h.maxPointsPerSeries q
      rw [hdb] at hq
      exact Storage.queryMetrics_length_le_iff.mp hq
  · intro h
    have hfollows : samplerInterval s = s.current.collection.hostInterval := by
      rw [samplerInterval_eq_iff, hhost]
      exact h.hostInterval
    refine ⟨hfollows, ?_, ?_, hcutoffs, ?_, fun q => ?_, hsessions⟩
    · rw [hfollows, hcontainer, hhost, h.containerInterval]
    · rw [hinterval, hraw, hrawSettled, h.rawInterval]
    · rw [hbudget, htarget, h.targetBudgetBytes]
      rfl
    · rw [hdb, hpoints]
      exact Storage.queryMetrics_length_le_iff.mpr (h.maxPointsPerSeries q)

end Live

/-! ## Runs -/

def LiveCall (lib : Library) (db : Storage.Database) (s : Service) (call : Call) : Prop :=
  ∀ values, call.Brings lib s values → LiveValues lib s.base db values

/-- The last configuration given to `apply` is the one in force. -/
structure InForce (base : Config) (s : Service) : Prop where
  base : s.base = base
  applied : ∃ applied, s.applied = s.current :: applied

section Runs

variable {lib : Library} {base : Config} {s : Service} {call : Call}
  {table : Table Auth.SessionRow.idHash} {db : Storage.Database}

theorem InForce.step (h : InForce base s) (hok : call.Succeeds lib s) :
    InForce base (call.step lib s) := by
  rcases hok.cases with ⟨order, now, preset, actor, rfl, hsame, hstep⟩ |
    ⟨order, values, store', resolved, hbrings, hresolve, hstep⟩
  · rw [hstep]
    exact h
  · rw [hstep]
    exact ⟨h.base, s.applied, rfl⟩

theorem step_live_iff {order : RowOrder} (hbase : base.validate lib order = .ok ())
    (hforce : InForce base s) (h : Live ((wire base table db).after s) s)
    (hok : call.Succeeds lib s) :
    Live ((wire base table db).after (call.step lib s)) (call.step lib s) ↔
      LiveCall lib db s call := by
  obtain ⟨rfl, -⟩ := hforce
  rcases hok.cases with ⟨order, now, preset, actor, rfl, hsame, hstep⟩ |
    ⟨order, values, store', resolved, hbrings, hresolve, hstep⟩
  · rw [hstep]
    exact iff_of_true h fun values hbrings => absurd hsame hbrings.1
  · rw [hstep, live_iff_values hbase rfl hresolve]
    refine ⟨fun hlive values' hbrings' => ?_, fun hall => hall values hbrings⟩
    rw [← hbrings.unique hbrings']
    exact hlive

/-- After the start, along a run of successful calls on any store and any history, the
components always use what `Current` says of the live keys exactly if the stored overrides and
those that every call brings are live. -/
theorem settings_live_iff {order order' : RowOrder} {d : Deployment}
    (hload : load lib order d = .ok base) (table : Table Auth.SessionRow.idHash)
    (db : Storage.Database) {store : Store}
    (hstart : (newService store base).initializeService lib order' = .ok s) {calls : List Call}
    (hcalls : ∀ pre call, pre ++ [call] <+: calls →
      call.Succeeds lib (pre.foldl (Call.step lib) s)) :
    (∀ pre, pre <+: calls → Live ((wire base table db).after (pre.foldl (Call.step lib) s))
        (pre.foldl (Call.step lib) s)) ↔
      (∀ values, store.overrides lib = .ok values → LiveValues lib base db values) ∧
        ∀ pre call, pre ++ [call] <+: calls →
          LiveCall lib db (pre.foldl (Call.step lib) s) call := by
  have hbase := (load_get hload).1
  obtain ⟨values, hvalues, hrest⟩ := bind_ok.mp hstart
  obtain ⟨resolved, hresolved, hreturn⟩ := bind_ok.mp hrest
  have hforce : InForce base s := by
    cases hreturn
    exact ⟨rfl, [], rfl⟩
  have hlive : Live ((wire base table db).after s) s ↔
      ∀ values, store.overrides lib = .ok values → LiveValues lib base db values := by
    cases hreturn
    rw [live_iff_values hbase rfl (mapError_ok.mp hresolved)]
    refine ⟨fun h values' hvalues' => ?_, fun h => h values hvalues⟩
    cases hvalues.symm.trans hvalues'
    exact h
  have hrun := forall_prefix_iff (I := InForce base)
    (P := fun s => Live ((wire base table db).after s) s)
    (C := fun s call => LiveCall lib db s call)
    (Q := fun s call => call.Succeeds lib s)
    (fun s call hforce h hok => step_live_iff hbase hforce h hok)
    (fun s call hforce hok => hforce.step hok) hcalls hforce
  constructor
  · intro h
    have hfirst := h [] List.nil_prefix
    exact ⟨hlive.mp hfirst, (hrun hfirst).mp h⟩
  · rintro ⟨hvalues, hall⟩
    exact (hrun (hlive.mpr hvalues)).mpr hall

end Runs

/-! ## A small deployment -/

def plainService : Service := ⟨emptyStore, plainBase, plainBase, [plainBase]⟩

theorem initialize_plain :
    (newService emptyStore plainBase).initializeService plainLibrary RowOrder.stored =
      .ok plainService := by
  have hresolved := resolveOverrides_empty (load_get load_plain).1 RowOrder.stored
  rw [show plainBase.normalize plainLibrary = plainBase from normalize_normalize defaults]
    at hresolved
  exact bind_ok.mpr ⟨Table.empty, rfl, bind_ok.mpr ⟨plainBase, mapError_ok.mpr hresolved, rfl⟩⟩

def plainComponents : Components := wire plainBase Table.empty Storage.Database.empty

/-- A patch of the interval of the persistence, a live key, reaches `Current` and not the
persistence. -/
theorem raw_interval_not_live :
    (newService emptyStore plainBase).initializeService plainLibrary RowOrder.stored =
        .ok plainService ∧
      (patchOne 0 "persistence.raw_interval" "1h").Succeeds plainLibrary plainService ∧
      ((patchOne 0 "persistence.raw_interval" "1h").step plainLibrary
        plainService).current.persistence.rawInterval = hour ∧
      (plainComponents.after ((patchOne 0 "persistence.raw_interval" "1h").step plainLibrary
        plainService)).persistenceInterval = 10 * second ∧
      ¬ Live (plainComponents.after ((patchOne 0 "persistence.raw_interval" "1h").step plainLibrary
        plainService)) ((patchOne 0 "persistence.raw_interval" "1h").step plainLibrary
        plainService) := by
  have hrun : (patchOne 0 "persistence.raw_interval" "1h").Succeeds plainLibrary plainService ∧
      ((patchOne 0 "persistence.raw_interval" "1h").step plainLibrary
        plainService).current.persistence.rawInterval = hour := by
    unfold Call.Succeeds
    decide +kernel
  have hinterval : (plainComponents.after ((patchOne 0 "persistence.raw_interval" "1h").step
      plainLibrary plainService)).persistenceInterval = 10 * second := (after_eq _ _).1
  refine ⟨initialize_plain, hrun.1, hrun.2, hinterval, fun h => ?_⟩
  have hlive := h.rawInterval
  rw [hinterval, hrun.2] at hlive
  revert hlive
  decide

/-- A patch of a tier is live. -/
theorem settings_live_iff_tier :
    (newService emptyStore plainBase).initializeService plainLibrary RowOrder.stored =
        .ok plainService ∧
      ∀ pre, pre <+: [patchOne 0 "retention.raw" "1h"] →
        Live (plainComponents.after (pre.foldl (Call.step plainLibrary) plainService))
          (pre.foldl (Call.step plainLibrary) plainService) := by
  have hok : (patchOne 0 "retention.raw" "1h").Succeeds plainLibrary plainService := by
    unfold Call.Succeeds
    decide +kernel
  have hempty : emptyStore.overrides plainLibrary = .ok Table.empty := rfl
  have hrows : ∀ q, Storage.rowsInRange Storage.Database.empty q = 0 := by
    intro q
    unfold Storage.rowsInRange
    cases Storage.selectResolution (q.to_ - q.from_) with
    | raw => exact ite_self 0
    | rolled tier => exact ite_self 0
  have hlive : ∀ values, (∀ k ∈ plainKeys, layer plainLibrary values k = none) →
      LiveValues plainLibrary plainBase Storage.Database.empty values := by
    intro values hnone
    have hsame : ∀ k ∈ plainKeys, settled plainLibrary plainBase values k = plainBase.get k := by
      intro k hk
      unfold settled
      rw [overlay_apply, hnone k hk]
      rfl
    refine ⟨?_, ?_, hsame .rawInterval (by decide), hsame .targetBudgetBytes (by decide),
      fun q _ => ?_⟩
    · rw [hsame .hostInterval (by decide)]
      decide
    · rw [hsame .hostInterval (by decide), hsame .containerInterval (by decide)]
      rfl
    · rw [hrows, hsame .maxPointsPerSeries (by decide)]
      decide
  refine ⟨initialize_plain,
    (settings_live_iff load_plain Table.empty Storage.Database.empty initialize_plain
    (forall_snoc_singleton hok)).mpr ⟨fun values hvalues => ?_, forall_snoc_singleton ?_⟩⟩
  · cases hempty.symm.trans hvalues
    exact hlive _ fun _ _ => rfl
  · rintro values ⟨stored, hstored, rfl⟩
    cases hempty.symm.trans hstored
    refine hlive _ ?_
    decide +kernel

end Binnacle.Settings
