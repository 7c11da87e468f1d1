import Binnacle.Alerts.RuleSets

/-!
# Passes over a quiet database

What a pass comes to over a database in which little is to be observed: there are no events, the
Docker collector is not down, and a stored state is healthy or one of those looked for. Up to the
stage in question such a pass makes no transition but for the Docker collector, whose state it
stores.

- `evaluate_of_healthy`: an evaluation of a healthy key commits;
- `quiet_until…`: a pass reaches a stage with the database as it was.

With them a database can be given, for a rule set, on which a pass comes to something.
-/

namespace Binnacle.Alerts

open Relational Storage Notifications

/-! ## An evaluation of a healthy key -/

variable {db : Database} {o : Observation}

theorem evaluate_of_healthy (sink : Option Repository) (env : Ambient)
    (hphase : (loadState db o.key o.now).phase = .healthy)
    (hrule : db.alertRules.has o.rule.id = true) :
    evaluate sink env db o = .ok (putState db o (o.answer db).state) := by
  have hflags : (o.answer db).triggered = false ∧ (o.answer db).repeated = false ∧
      (o.answer db).resolved = false := by
    generalize o.answer db = tr, o.advances db = h
    cases h with
    | stayHealthy | pend => exact ⟨rfl, rfl, rfl⟩
    | _ => simp_all
  unfold evaluate
  rw [storeState, if_pos hrule]
  show recordTransition sink env o _ _ _ = _
  rw [recordTransition, hflags.1, hflags.2.1, hflags.2.2, hphase]
  rfl

theorem answer_of_healthy
    (hphase : (loadState db o.key o.now).phase = .healthy) (hfailing : o.failing = false) :
    (o.answer db).state.phase = .healthy := by
  unfold Observation.answer
  rw [hfailing]
  simp [advance, hphase]

theorem mem_putState {state : State} {s : EvaluationStateRow} :
    s ∈ (putState db o state).alertEvaluationState.rows ↔
      (s ∈ db.alertEvaluationState.rows ∧ s.dedupKey ≠ o.key) ∨
        (s.dedupKey = o.key ∧ s = ((db.alertEvaluationState.find? o.key).map
          (mergeState o state)).getD (stateRow o state)) := by
  have hfind : ∀ k, (putState db o state).alertEvaluationState.find? k =
      if o.key = k then some (((db.alertEvaluationState.find? k).map (mergeState o state)).getD
        (stateRow o state)) else db.alertEvaluationState.find? k :=
    fun k => Table.find?_upsert _ _ _ _ _
  have hmem : s ∈ (putState db o state).alertEvaluationState.rows ↔
      (putState db o state).alertEvaluationState.find? s.dedupKey = some s := by
    rw [Table.find?_eq_some_iff]
    simp
  rw [hmem, hfind]
  by_cases hkey : o.key = s.dedupKey
  · rw [if_pos hkey, Option.some.injEq, hkey]
    simp [eq_comm]
  · rw [if_neg hkey, Table.find?_eq_some_iff]
    simp [Ne.symm hkey]

def Observation.MadeUnder (o : Observation) (rule : Rule) : Prop :=
  o.rule = { rule with recoveryDuration := o.rule.recoveryDuration }

/-! ## Quiet databases -/

/-- Nothing but rules, checks and samples as they were found, and the unhealthy states. -/
structure Quiet (found db : Database) : Prop where
  rules : db.alertRules = found.alertRules
  checks : db.healthChecks = found.healthChecks
  filesystems : db.filesystemSamples = found.filesystemSamples
  events : db.events.rows = []
  unhealthy : ∀ s ∈ db.alertEvaluationState.rows, s.phase ≠ .healthy →
    s ∈ found.alertEvaluationState.rows
  kept : ∀ s ∈ found.alertEvaluationState.rows, s ∈ db.alertEvaluationState.rows

def dockerKey : String := dedup familyDockerDown "docker"

def NoDocker (found : Database) : Prop :=
  ∀ s ∈ found.alertEvaluationState.rows, s.dedupKey ≠ dockerKey

section Quiet

variable {sink : Option Repository} {input : PassInput} {found db : Database} {rule : Rule}
  {threshold : ℚ}

abbrev StaysQuiet (found : Database) (p : Pass) : Prop :=
  Session.Completes (Quiet found) (fun _ _ => True) p

theorem Quiet.refl (h : found.events.rows = []) : Quiet found found :=
  ⟨rfl, rfl, rfl, h, fun _ hs _ => hs, fun _ hs => hs⟩

theorem Quiet.phase_of_free (h : Quiet found db) {key : String} {now : Time}
    (hkey : ∀ s ∈ found.alertEvaluationState.rows, s.dedupKey ≠ key) :
    (loadState db key now).phase = .healthy := by
  unfold loadState
  split
  · rfl
  · next s hfind =>
    obtain ⟨hs, hsame⟩ := Table.find?_eq_some_iff.mp hfind
    by_contra hphase
    exact hkey s (h.unhealthy s hs hphase) hsame

theorem Quiet.putState (h : Quiet found db) {state : State}
    (hkey : ∀ s ∈ found.alertEvaluationState.rows, s.dedupKey ≠ o.key)
    (hstate : state.phase = .healthy) : Quiet found (putState db o state) where
  rules := h.rules
  checks := h.checks
  filesystems := h.filesystems
  events := h.events
  unhealthy s hs hphase := by
    rcases mem_putState.mp hs with ⟨hs, -⟩ | ⟨-, hs⟩
    · exact h.unhealthy s hs hphase
    · refine absurd ?_ hphase
      rw [hs]
      cases db.alertEvaluationState.find? o.key <;> exact hstate
  kept s hs := mem_putState.mpr (.inl ⟨h.kept s hs, hkey s hs⟩)

theorem completes_cleanup :
    StaysQuiet found (.execute fun db => .ok (cleanup db input.now) : Pass) :=
  Session.completes_execute fun _ hs =>
    ⟨_, rfl, hs.rules, hs.checks, hs.filesystems, hs.events, hs.unhealthy, hs.kept⟩

theorem Quiet.has_rule (h : Quiet found db) (hrule : rule ∈ Alerts.rules input.order found) :
    db.alertRules.has rule.id = true := by
  obtain ⟨r, hr, rfl⟩ := rules_mem_iff.mp hrule
  rw [h.rules]
  exact Table.has_iff.mpr ⟨r, hr, rfl⟩

theorem completes_evaluateDocker (hfree : NoDocker found)
    (hdown : collectorState input.snapshot "docker" ≠ some .down)
    (hrule : rule ∈ rules input.order found) (hfamily : rule.family = familyDockerDown) :
    StaysQuiet found (evaluateDocker sink (rules input.order found) input rule) := by
  unfold evaluateDocker
  split
  · exact Session.completes_done
  · refine Session.completes_transact fun s hs _ => ?_
    have hkey : dedup rule.family "docker" = dockerKey := by rw [hfamily, dockerKey]
    have hfree' :
        ∀ r ∈ found.alertEvaluationState.rows, r.dedupKey ≠ dedup rule.family "docker" := by
      rw [hkey]
      exact hfree
    have hphase : (loadState s (dedup rule.family "docker") input.now).phase = .healthy :=
      hs.phase_of_free hfree'
    refine ⟨_, mapError_ok.mpr (evaluate_of_healthy sink _ hphase (hs.has_rule hrule)), ?_⟩
    exact hs.putState hfree' (answer_of_healthy hphase (decide_eq_false hdown))

theorem completes_evaluateRule (hfree : NoDocker found)
    (hdown : collectorState input.snapshot "docker" ≠ some .down)
    (hrule : rule ∈ rules input.order found)
    (hcpu : rule.family = familyHostCPU → evaluateHost sink (rules input.order found) input rule
      input.snapshot.host.cpuPercent = .done)
    (hmemory : rule.family = familyHostMemory → evaluateHost sink (rules input.order found) input
      rule input.snapshot.host.memoryPercent = .done) :
    StaysQuiet found (evaluateRule sink (rules input.order found) input rule) := by
  unfold evaluateRule
  split
  · exact Session.completes_done
  · split
    · next hf =>
      rw [hcpu hf]
      exact Session.completes_done
    · split
      · next hf =>
        rw [hmemory hf]
        exact Session.completes_done
      · split
        · next hf => exact completes_evaluateDocker hfree hdown hrule hf
        · exact Session.completes_done

def Unmeasured (input : PassInput) : Prop :=
  input.snapshot.host.cpuPercent = none ∧ input.snapshot.host.memoryPercent = none ∧
    collectorState input.snapshot "docker" ≠ some .down

theorem evaluateHost_none (sink : Option Repository) (rules : List Rule) (input : PassInput)
    (rule : Rule) : evaluateHost sink rules input rule none = .done := by
  unfold evaluateHost
  split <;> rfl

theorem completes_hostRules (hfree : NoDocker found) (hinput : Unmeasured input) :
    StaysQuiet found
      (.forEach (rules input.order found) (evaluateRule sink (rules input.order found) input)) := by
  refine (Session.closed_completes _ _).forEach fun rule hrule => ?_
  refine completes_evaluateRule hfree hinput.2.2 hrule (fun _ => ?_) fun _ => ?_
  · rw [hinput.1]
    exact evaluateHost_none _ _ _ _
  · rw [hinput.2.1]
    exact evaluateHost_none _ _ _ _

theorem completes_filesystems (hsamples : found.filesystemSamples.rows = []) :
    StaysQuiet found (evaluateFilesystems sink (rules input.order found) input) := by
  refine Session.completes_read fun s hs => ?_
  have hlatest : latestFilesystems s = [] := by
    unfold latestFilesystems
    rw [hs.filesystems, hsamples]
    rfl
  rw [hlatest, RowOrder.arrange_nil]
  exact Session.completes_done

theorem Quiet.eventCounts (h : Quiet found db) (rule : Rule) (now : Time) :
    eventCounts db rule now = [] := by
  unfold Alerts.eventCounts countedEvents
  rw [h.events]
  rfl

theorem completes_eventRule (hnone : ∀ s ∈ found.alertEvaluationState.rows, s.ruleId ≠ rule.id) :
    StaysQuiet found (evaluateEventRule sink input rule) := by
  rcases evaluateEventRule_cases rule with hdone | ⟨threshold, hcounts⟩
  · rw [hdone]
    exact Session.completes_done
  · intro s hs _
    have hunhealthy : unhealthyTargets s rule = [] := by
      unfold unhealthyTargets
      rw [List.filter_eq_nil_iff.mpr, List.map_nil]
      intro row hrow hsel
      simp only [Bool.and_eq_true, decide_eq_true_eq] at hsel
      exact hnone row (hs.unhealthy row hrow hsel.2) hsel.1
    rw [hcounts.evaluateEventRule_uncounted (hs.eventCounts _ _), hunhealthy, RowOrder.arrange_nil]
    exact ⟨rfl, hs⟩

theorem completes_events (hnone : found.alertEvaluationState.rows = []) :
    StaysQuiet found (evaluateEvents sink (rules input.order found) input) := by
  refine (Session.closed_completes _ _).forEach fun rule _ => completes_eventRule fun s hs => ?_
  rw [hnone] at hs
  cases hs

theorem completes_persistence :
    StaysQuiet found (evaluatePersistence sink (rules input.order found) input) := by
  refine Session.completes_read fun s hs => ?_
  have hnone : latestPersistence s = none := by
    unfold latestPersistence
    rw [hs.events]
    rfl
  simp only [hnone]
  split <;> exact Session.completes_done

theorem completes_correlateDeployments :
    StaysQuiet found (correlateDeployments input) := by
  refine Session.completes_read fun s hs => ?_
  have hnone : recentDeployments s input.now = [] := by
    unfold recentDeployments
    rw [hs.events]
    rfl
  simp only [hnone, List.filterMap_nil, List.dedup_nil, RowOrder.arrange_nil]
  exact Session.completes_done

/-! ## Databases made for a rule set -/

def probe (rules : Table AlertRuleRow.id) (resource : String) (project : Option String)
    (states : Table EvaluationStateRow.dedupKey) (checks : Table HealthCheckRow.id) : Database :=
  { Database.empty with
    hosts := ⟨[⟨"host", "h", "Server"⟩], List.nodup_singleton _⟩
    resources := ⟨[⟨resource, "host", "k", "docker", resource, "", project, none, "app", "healthy",
      none, 0, 0⟩], List.nodup_singleton _⟩
    alertRules := rules
    alertEvaluationState := states
    healthChecks := checks }

theorem unmeasured_passAt (seconds : Int) : Unmeasured (passAt seconds) :=
  ⟨rfl, rfl, nofun⟩

def pendingState (r : AlertRuleRow) (target : String) : EvaluationStateRow where
  dedupKey := dedup r.family target
  ruleId := r.id
  targetType := "resource"
  targetId := target
  phase := .pending
  phaseSince := 0
  lastEvaluatedAt := 0
  lastNotifiedAt := none
  cooldownUntil := none
  observedValue := 0
  detailsObserved := 0

theorem exposes_eventRule (hcounts : CountsEvents rule threshold)
    {row : EvaluationStateRow} (hrow : found.alertEvaluationState.rows = [row])
    (hid : row.ruleId = rule.id) (hphase : row.phase ≠ .healthy) (h : Quiet found db) :
    Session.Exposes (fun _ => False)
      (fun _ o => o.rule = rule ∧ o.targetType = "resource" ∧ o.target = row.targetId)
      (evaluateEventRule sink input rule db) := by
  have hmem : row.targetId ∈ unhealthyTargets db rule := by
    refine List.mem_map_of_mem (List.mem_filter.mpr ⟨h.kept row (by simp [hrow]), ?_⟩)
    simp [hid, hphase]
  have hall : ∀ target ∈ unhealthyTargets db rule, target = row.targetId := by
    intro target htarget
    obtain ⟨s, hs, rfl⟩ := List.mem_map.mp htarget
    rw [List.mem_filter, Bool.and_eq_true, decide_eq_true_eq, decide_eq_true_eq] at hs
    have hfound := h.unhealthy s hs.1 hs.2.2
    rw [hrow, List.mem_singleton] at hfound
    rw [hfound]
  rw [hcounts.evaluateEventRule_uncounted (h.eventCounts _ _)]
  refine Session.exposes_forEach (fun l _ => ∀ target ∈ l, target = row.targetId)
    (fun b l s hJ hb => absurd (hJ b List.mem_cons_self) hb)
    (fun l s _ => Session.exposes_transact ⟨rfl, rfl, rfl⟩) (input.order.mem_arrange.mpr hmem)
    fun target htarget => hall target (input.order.mem_arrange.mp htarget)

/-- The pending state of an event rule's target is advanced under the rule, whatever the
target is. -/
theorem tries_pending {rules : Table AlertRuleRow.id} {r : AlertRuleRow}
    (hr : r ∈ rules.rows) (hcounts : CountsEvents (ruleOf r) threshold) (resource : String)
    (project : Option String) :
    ∃ x ∈ (evaluatePass none (passAt 0) (probe rules resource project
        ⟨[pendingState r resource], List.nodup_singleton _⟩ .empty)).tried,
      x.2.rule = ruleOf r ∧ x.2.targetType = "resource" ∧ x.2.target = resource := by
  let found :=
    probe rules resource project ⟨[pendingState r resource], List.nodup_singleton _⟩ .empty
  let A : Database → Observation → Prop := fun _ o =>
    o.rule = ruleOf r ∧ o.targetType = "resource" ∧ o.target = resource
  have hfree : NoDocker found := by
    intro s hs hkey
    rw [List.mem_singleton.mp hs] at hkey
    have hfamily : r.family ∈ eventFamilies := hcounts.2.2
    have hsame := (dedup_inj (family_no_colon (by simp [earlierFamilies, hfamily]))
      (family_no_colon (by decide)) hkey).1
    rw [hsame] at hfamily
    exact absurd hfamily (by decide)
  have hrule : ruleOf r ∈ Alerts.rules (passAt 0).order found := rules_mem_iff.mpr ⟨r, hr, rfl⟩
  have hevents : ∀ s, Quiet found s → Session.Exposes (fun _ => False) A
      (evaluateEvents none (Alerts.rules (passAt 0).order found) (passAt 0) s) := by
    intro s hs
    refine Session.exposes_of_completes (fun b hb hne => completes_eventRule ?_)
      (fun s hs => exposes_eventRule hcounts rfl rfl (by simp [pendingState]) hs) hrule hs
    -- the other rules have no states
    intro row hrow hid
    rw [List.mem_singleton.mp hrow] at hid
    exact hne (rules_eq_of_id hb hrule hid.symm)
  have huntil : Session.Exposes (fun _ => False) A
      (untilChecks none (Alerts.rules (passAt 0).order found) (passAt 0) found) :=
    completes_cleanup.exposes (fun s hs =>
      (completes_hostRules hfree (unmeasured_passAt 0)).exposes (fun s hs =>
        (completes_filesystems rfl).exposes (fun s hs => (hevents s hs).andThen) hs) hs)
      (.refl rfl)
  rcases huntil.andThen (q := evaluateChecks none (Alerts.rules (passAt 0).order found) (passAt 0))
    with ⟨e, -, he⟩ | hexposed
  · exact he.elim
  · exact hexposed

def probeCheck (family resource : String) : HealthCheckRow where
  id := "check"
  resourceId := resource
  intervalSeconds := 60
  required := family = familyRequiredCheck
  enabled := true

theorem checkFamily_probeCheck {family : String} (h : family ∈ checkFamilies) (resource : String) :
    checkFamily (probeCheck family resource) = family := by
  simp only [checkFamilies, List.mem_cons, List.not_mem_nil, or_false] at h
  rcases h with rfl | rfl <;> rfl

theorem tries_check {rules : Table AlertRuleRow.id} {family : String} (h : family ∈ checkFamilies)
    (resource : String) (project : Option String)
    (hrule : ∀ order, effectiveRule (Alerts.rules order (probe rules resource project .empty
      ⟨[probeCheck family resource], List.nodup_singleton _⟩)) family "resource" resource = rule)
    (hid : rule.id ≠ "") :
    ∃ x ∈ (evaluatePass none (passAt 0) (probe rules resource project .empty
        ⟨[probeCheck family resource], List.nodup_singleton _⟩)).tried,
      x.2.MadeUnder rule ∧ x.2.targetType = "resource" ∧ x.2.target = resource := by
  let c := probeCheck family resource
  let found := probe rules resource project .empty ⟨[c], List.nodup_singleton _⟩
  let A : Database → Observation → Prop := fun _ o =>
    o.MadeUnder rule ∧ o.targetType = "resource" ∧ o.target = resource
  have hclosed := Session.closed_completes (ε := PassError) (Quiet found)
    fun (_ : Database) (_ : Observation) => True
  have huntil :
      StaysQuiet found (untilChecks none (Alerts.rules (passAt 0).order found) (passAt 0)) :=
    hclosed.andThen completes_cleanup <|
    hclosed.andThen (completes_hostRules (fun _ hs => nomatch hs) (unmeasured_passAt 0)) <|
    hclosed.andThen (completes_filesystems rfl) <|
    hclosed.andThen (completes_events rfl) <|
    hclosed.andThen completes_persistence completes_correlateDeployments
  have hchecks : ∀ s, Quiet found s → Session.Exposes (fun _ => False) A
      (evaluateChecks none (Alerts.rules (passAt 0).order found) (passAt 0) s) := by
    intro s hs
    have henabled : enabledChecks s = [c] := by
      unfold enabledChecks
      rw [hs.checks]
      rfl
    have hcheck : Session.Exposes (fun _ => False) A
        (evaluateCheck none (Alerts.rules (passAt 0).order found) (passAt 0) s c s) := by
      unfold evaluateCheck
      rw [checkFamily_probeCheck h, show c.resourceId = resource from rfl,
        show effectiveRule _ family "resource" resource = rule from hrule _, if_neg hid]
      exact Session.exposes_transact ⟨checkObservation_rule _ _ _ _, rfl, rfl⟩
    show Session.Exposes _ _ (Session.forEach ((passAt 0).order.arrange (enabledChecks s)) _ s)
    rw [henabled]
    exact hcheck.andThen
  rcases huntil.exposes hchecks (.refl rfl) with ⟨e, -, he⟩ | hexposed
  · exact he.elim
  · exact hexposed

end Quiet

end Binnacle.Alerts
