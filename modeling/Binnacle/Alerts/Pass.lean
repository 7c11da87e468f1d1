import Binnacle.Alerts.Evaluate
import Binnacle.Alerts.Repository
import Binnacle.Relational.Session

/-!
# One pass of the evaluator (`internal/alerts/evaluator.go`, `Evaluate`)

A pass reads the rules, cleans up and then looks at one source after the other:
host metrics, filesystems, container events, persistence, deployments and health
checks. Everything it observes goes through `evaluate`, each time a transaction
of its own, and the first one that fails ends the pass (`Relational.Session`).

- `effectiveRule_cases`: the rule that applies is an enabled one of the family;
- `closed_…`: a property of sessions that the evaluations of a stage have is one
  of the stage, so that invariants and success are proved once for all stages.
-/

namespace Binnacle.Alerts

open Relational Storage Metrics Notifications

inductive PassError where
  | sql (error : SqlError)
  /-- A host rule without a threshold is dereferenced: the process panics. -/
  | nilThreshold (rule : String)
  deriving DecidableEq

/-- The random draws of a pass: each evaluation draws ids that its database does
not contain. -/
structure Draws where
  draw : Database → Ambient
  fresh : ∀ db, Fresh (draw db) db

structure PassInput where
  now : Time
  snapshot : Snapshot
  /-- The order of rows and map entries where the code leaves it open. -/
  order : RowOrder
  draws : Draws

def passAt (seconds : Int) : PassInput where
  now := seconds * second
  snapshot := {}
  order := .stored
  draws := ⟨fun db => ⟨unusedIds db, seconds * second, .stored⟩, fun db => fresh_unusedIds db _ _⟩

abbrev Pass := Session PassError Database Observation

/-- One call of `evaluate` in a pass. -/
def evaluateTx (sink : Option Repository) (draws : Draws) (o : Observation) : Pass :=
  .transact o fun db => (evaluate sink (draws.draw db) db o).mapError .sql

/-- `effectiveRule` (evaluator.go:223-237): the last global rule, unless a rule for
the target comes first. -/
def effectiveRuleFrom (family targetType target : String) : Rule → List Rule → Rule
  | global, [] => global
  | global, rule :: rules =>
    if !rule.enabled || rule.family ≠ family then
      effectiveRuleFrom family targetType target global rules
    else if rule.scopeType = targetType && rule.scopeId = target then
      rule
    else if rule.scopeType = "global" then
      effectiveRuleFrom family targetType target rule rules
    else
      effectiveRuleFrom family targetType target global rules

def effectiveRule (rules : List Rule) (family targetType target : String) : Rule :=
  effectiveRuleFrom family targetType target Rule.zero rules

section Stages

variable (sink : Option Repository) (rules : List Rule) (input : PassInput)

/-! ## Host metrics and the Docker collector (evaluator.go:66-96) -/

/-- A host rule; the value is `nil` until it was measured once. -/
def evaluateHost (rule : Rule) (value : Option ℚ) : Pass :=
  if (effectiveRule rules rule.family "host" "server").id ≠ rule.id then
    .done
  else
    match value with
    | none => .done
    | some v =>
      match rule.threshold, rule.recoveryThreshold with
      | some threshold, some recovery =>
        evaluateTx sink input.draws
          { rule, targetType := "host", target := "server", value := v, failing := v > threshold,
            recovered := v < recovery, now := input.now }
      | _, _ => .fail (.nilThreshold rule.id)

def collectorState (snapshot : Snapshot) (name : String) : Option CollectorState :=
  (snapshot.collectors.find? fun c => c.1 = name).map fun c => c.2.state

def evaluateDocker (rule : Rule) : Pass :=
  if (effectiveRule rules rule.family "server" "docker").id ≠ rule.id then
    .done
  else
    evaluateTx sink input.draws
      { rule, targetType := "server", target := "docker", value := 0
        failing := collectorState input.snapshot "docker" = some .down
        recovered := collectorState input.snapshot "docker" = some .healthy
        now := input.now }

def evaluateRule (rule : Rule) : Pass :=
  if !rule.enabled then .done
  else if rule.family = familyHostCPU then
    evaluateHost sink rules input rule input.snapshot.host.cpuPercent
  else if rule.family = familyHostMemory then
    evaluateHost sink rules input rule input.snapshot.host.memoryPercent
  else if rule.family = familyDockerDown then
    evaluateDocker sink rules input rule
  else .done

/-! ## Filesystems (evaluator.go:173-221) -/

/-- The rows of `JOIN (SELECT mount_key,MAX(ts) … GROUP BY mount_key)`. -/
def latestFilesystems (db : Database) : List FilesystemSample :=
  db.filesystemSamples.rows.filter fun f =>
    db.filesystemSamples.rows.all fun g => g.mountKey ≠ f.mountKey || g.ts ≤ f.ts

/-- The value a rule of a filesystem family looks at; `NULL` is skipped like the
rules of other families. -/
def filesystemValue (rule : Rule) (f : FilesystemSample) : Option ℚ :=
  if rule.family ∈ [familyFilesystemWarning, familyFilesystemCritical] then f.usedPct
  else if rule.family ∈ [familyInodeWarning, familyInodeCritical] then f.inodesUsedPct
  else none

def evaluateFilesystem (f : FilesystemSample) (rule : Rule) : Pass :=
  match rule.threshold, rule.recoveryThreshold with
  | some threshold, some recovery =>
    if !rule.enabled || (effectiveRule rules rule.family "filesystem" f.mountKey).id ≠ rule.id then
      .done
    else
      match filesystemValue rule f with
      | some v =>
        evaluateTx sink input.draws
          { rule, targetType := "filesystem", target := f.mountKey, value := v
            failing := v > threshold, recovered := v < recovery, now := input.now }
      | none => .done
  | _, _ => .done

def evaluateFilesystems : Pass :=
  .read fun db => .forEach (input.order.arrange (latestFilesystems db)) fun f =>
    .forEach rules (evaluateFilesystem sink rules input f)

/-! ## Container events (evaluator.go:239-305) -/

def countedType (rule : Rule) : String :=
  if rule.family = familyOOMLoop then "container_oom" else "container_restart"

/-- The counted events since the window began, as the query selects them. -/
def countedEvents (db : Database) (rule : Rule) (now : Time) : List EventRow :=
  db.events.rows.filter fun e => e.type = countedType rule && e.resourceId.isSome &&
    unixMilli (now - rule.window) ≤ e.ts

/-- `SELECT resource_id,COUNT(*) … GROUP BY resource_id`. -/
def eventCounts (db : Database) (rule : Rule) (now : Time) : List (String × Nat) :=
  let events := countedEvents db rule now
  ((events.filterMap EventRow.resourceId).dedup).map fun resource =>
    (resource, events.countP fun e => e.resourceId = some resource)

/-- `SELECT target_id FROM alert_evaluation_state WHERE rule_id=? AND phase!='healthy'`. -/
def unhealthyTargets (db : Database) (rule : Rule) : List String :=
  (db.alertEvaluationState.rows.filter fun s => s.ruleId = rule.id && s.phase ≠ .healthy).map
    EvaluationStateRow.targetId

def evaluateEventRule (rule : Rule) : Pass :=
  match rule.threshold with
  | none => .done
  | some threshold =>
    if !rule.enabled || (rule.family ≠ familyRestartStorm && rule.family ≠ familyOOMLoop) then
      .done
    else .read fun db =>
      let counts := eventCounts db rule input.now
      Session.andThen
        (.forEach (input.order.arrange counts) fun c =>
          evaluateTx sink input.draws
            { rule, targetType := "resource", target := c.1, value := c.2
              failing := if rule.family = familyOOMLoop then (c.2 : ℚ) ≥ threshold
                else (c.2 : ℚ) > threshold
              recovered := (c.2 : ℚ) ≤ 0, now := input.now })
        (.read fun db => .forEach ((input.order.arrange (unhealthyTargets db rule)).filter
            fun target => target ∉ counts.map Prod.fst) fun target =>
          evaluateTx sink input.draws
            { rule, targetType := "resource", target, value := 0, failing := false
              recovered := true, now := input.now })

def evaluateEvents : Pass := .forEach rules (evaluateEventRule sink input)

/-! ## Persistence (evaluator.go:112-127) -/

def persistenceTypes : List String :=
  ["persistence_emergency", "persistence_degraded", "persistence_resumed"]

/-- `ORDER BY ts DESC,id DESC`. -/
def newerEvent (a b : EventRow) : Bool := b.ts < a.ts || (a.ts = b.ts && b.id ≤ a.id)

def latestPersistence (db : Database) : Option String :=
  (((db.events.rows.filter fun e => e.type ∈ persistenceTypes).insertionSort
    fun a b => newerEvent a b).head?).map EventRow.type

def persistenceObservation (rule : Rule) (now : Time) (eventType : String) : Observation where
  rule
  targetType := "server"
  target := "persistence"
  value := 0
  failing := eventType = "persistence_emergency" || eventType = "persistence_degraded"
  recovered := eventType = "persistence_resumed"
  now

def evaluatePersistence : Pass :=
  .read fun db =>
    let rule := effectiveRule rules familyPersistence "server" "persistence"
    if rule.id = "" then .done
    else
      match latestPersistence db with
      | none => .done
      | some eventType =>
        evaluateTx sink input.draws (persistenceObservation rule input.now eventType)

/-! ## Deployments (evaluator.go:307-339) -/

def deploymentTypes : List String := ["deployment", "deployment_likely", "container_replacement"]

def recentDeployments (db : Database) (now : Time) : List EventRow :=
  db.events.rows.filter fun e => e.type ∈ deploymentTypes && e.resourceId.isSome &&
    unixMilli (now - 10 * minute) ≤ e.ts

/-- One group of the query: the resource's newest event decides the start, and one
confirmed deployment confirms. -/
def gracePeriod (events : List EventRow) (resource : String) : GracePeriodRow :=
  let own := events.filter fun e => e.resourceId = some resource
  let ms := (own.map EventRow.ts).foldl max ((own.map EventRow.ts).headD 0)
  { resourceId := resource
    startsAt := unix (ms * millisecond)
    endsAt := unix (ms * millisecond + 5 * minute)
    confirmed := own.any fun e => e.type = "deployment" }

/-- `INSERT INTO deployment_grace_periods … ON CONFLICT(resource_id) DO UPDATE`. -/
def storeGracePeriod (g : GracePeriodRow) (db : Database) : Except PassError Database :=
  if db.resources.has g.resourceId then
    .ok { db with
      gracePeriods := db.gracePeriods.upsert g (fun r => { g with resourceId := r.resourceId })
        (fun _ => rfl) }
  else
    .error (.sql (.foreignKey "deployment_grace_periods.resource_id"))

def correlateDeployments : Pass :=
  .read fun db =>
    let events := recentDeployments db input.now
    .forEach (input.order.arrange ((events.filterMap EventRow.resourceId).dedup)) fun resource =>
      .execute (storeGracePeriod (gracePeriod events resource))

/-! ## Health checks (evaluator.go:128-171) -/

def enabledChecks (db : Database) : List HealthCheckRow :=
  db.healthChecks.rows.filter HealthCheckRow.enabled

/-- `COALESCE(s.status,'unknown')`. -/
def checkStatus (db : Database) (c : HealthCheckRow) : CheckStatus :=
  ((db.healthCheckState.find? c.id).map HealthCheckStateRow.status).getD .unknown

/-- `COALESCE(s.consecutive_successes,0)`. -/
def checkSuccesses (db : Database) (c : HealthCheckRow) : Nat :=
  ((db.healthCheckState.find? c.id).map HealthCheckStateRow.consecutiveSuccesses).getD 0

def checkFamily (c : HealthCheckRow) : String :=
  if c.required then familyRequiredCheck else familyOptionalCheck

def checkObservation (db : Database) (now : Time) (rule : Rule) (c : HealthCheckRow) :
    Observation where
  rule := if checkSuccesses db c ≥ 2 then { rule with recoveryDuration := 0 } else rule
  targetType := "resource"
  target := c.resourceId
  value := 0
  failing := checkStatus db c = .failure
  recovered := checkStatus db c = .success
  now

/-- One round of the loop over the checks read from `db`. -/
def evaluateCheck (db : Database) (c : HealthCheckRow) : Pass :=
  let rule := effectiveRule rules (checkFamily c) "resource" c.resourceId
  if rule.id = "" then .done
  else evaluateTx sink input.draws (checkObservation db input.now rule c)

def evaluateChecks : Pass :=
  .read fun db => .forEach (input.order.arrange (enabledChecks db))
    (evaluateCheck sink rules input db)

/-! ## The pass (evaluator.go:56-110) -/

def untilChecks : Pass :=
  Session.andThen (.execute fun db => .ok (cleanup db input.now)) <|
  Session.andThen (.forEach rules (evaluateRule sink rules input)) <|
  Session.andThen (evaluateFilesystems sink rules input) <|
  Session.andThen (evaluateEvents sink rules input) <|
  Session.andThen (evaluatePersistence sink rules input) <|
  correlateDeployments input

end Stages

/-- `Evaluate`. -/
def evaluatePass (sink : Option Repository) (input : PassInput) : Pass :=
  .read fun db =>
    let rules := rules input.order db
    Session.andThen (untilChecks sink rules input) (evaluateChecks sink rules input)

/-! ## What a pass observes -/

variable {o : Observation} {db : Database}

theorem evaluateTx_eq (sink : Option Repository) (draws : Draws)
    {db' : Database} (h : evaluate sink (draws.draw db) db o = .ok db') :
    evaluateTx sink draws o db = ⟨db', none, [(db, o)]⟩ := by
  simp only [evaluateTx, Session.transact, mapError_ok.mpr h]

theorem effectiveRuleFrom_cases (family targetType target : String) (global : Rule)
    (rules : List Rule) :
    effectiveRuleFrom family targetType target global rules = global ∨
      (effectiveRuleFrom family targetType target global rules ∈ rules ∧
        (effectiveRuleFrom family targetType target global rules).enabled = true ∧
        (effectiveRuleFrom family targetType target global rules).family = family) := by
  induction rules generalizing global with
  | nil => exact .inl rfl
  | cons rule rules ih =>
    have hrest := fun g => (ih g).imp_right (And.imp_left (List.mem_cons_of_mem rule))
    unfold effectiveRuleFrom
    split
    · exact hrest global
    · next hrule =>
      simp only [Bool.or_eq_true, Bool.not_eq_true', decide_eq_true_eq, not_or,
        Bool.not_eq_false, ne_eq, Decidable.not_not] at hrule
      split
      · exact .inr ⟨List.mem_cons_self, hrule⟩
      · split
        · rcases hrest rule with h | h
          · rw [h]
            exact .inr ⟨List.mem_cons_self, hrule⟩
          · exact .inr h
        · exact hrest global

theorem effectiveRule_cases {rules : List Rule} {family targetType target : String}
    (h : (effectiveRule rules family targetType target).id ≠ "") :
    effectiveRule rules family targetType target ∈ rules ∧
      (effectiveRule rules family targetType target).family = family := by
  rcases effectiveRuleFrom_cases family targetType target Rule.zero rules with hzero | hrule
  · exact absurd (congrArg Rule.id hzero) h
  · exact ⟨hrule.1, hrule.2.2⟩

def hostFamilies : List String := [familyHostCPU, familyHostMemory, familyDockerDown]

def filesystemFamilies : List String :=
  [familyFilesystemWarning, familyFilesystemCritical, familyInodeWarning, familyInodeCritical]

def eventFamilies : List String := [familyRestartStorm, familyOOMLoop]

def checkFamilies : List String := [familyRequiredCheck, familyOptionalCheck]

def earlierFamilies : List String :=
  hostFamilies ++ filesystemFamilies ++ eventFamilies ++ [familyPersistence]

theorem family_no_colon {family : String} (h : family ∈ earlierFamilies ++ checkFamilies) :
    ':' ∉ family.toList := by
  revert family
  decide

/-- What a pass can observe at a time, stage by stage: the list of families says of which
stage an observation is. -/
inductive Observed (rules : List Rule) (now : Time) : List String → Observation → Prop where
  | host {rule : Rule} (v : ℚ) {threshold recovery : ℚ} : rule ∈ rules → rule.enabled = true →
      rule.family ∈ [familyHostCPU, familyHostMemory] →
      (effectiveRule rules rule.family "host" "server").id = rule.id →
      rule.threshold = some threshold → rule.recoveryThreshold = some recovery →
      Observed rules now hostFamilies
        { rule, targetType := "host", target := "server", value := v, failing := v > threshold
          recovered := v < recovery, now }
  | docker {rule : Rule} (state : Option CollectorState) : rule ∈ rules → rule.enabled = true →
      rule.family = familyDockerDown →
      (effectiveRule rules rule.family "server" "docker").id = rule.id →
      Observed rules now hostFamilies
        { rule, targetType := "server", target := "docker", value := 0
          failing := state = some .down, recovered := state = some .healthy, now }
  | filesystem {rule : Rule} (mount : String) (v : ℚ) {threshold recovery : ℚ} : rule ∈ rules →
      rule.enabled = true → rule.family ∈ filesystemFamilies →
      (effectiveRule rules rule.family "filesystem" mount).id = rule.id →
      rule.threshold = some threshold → rule.recoveryThreshold = some recovery →
      Observed rules now filesystemFamilies
        { rule, targetType := "filesystem", target := mount, value := v, failing := v > threshold
          recovered := v < recovery, now }
  | counted {rule : Rule} (resource : String) (count : Nat) {threshold : ℚ} : rule ∈ rules →
      rule.enabled = true → rule.family ∈ eventFamilies → rule.threshold = some threshold →
      0 < count →
      Observed rules now eventFamilies
        { rule, targetType := "resource", target := resource, value := count
          failing := if rule.family = familyOOMLoop then (count : ℚ) ≥ threshold
            else (count : ℚ) > threshold
          recovered := (count : ℚ) ≤ 0, now }
  | uncounted {rule : Rule} (resource : String) {threshold : ℚ} : rule ∈ rules →
      rule.enabled = true → rule.family ∈ eventFamilies → rule.threshold = some threshold →
      Observed rules now eventFamilies
        { rule, targetType := "resource", target := resource, value := 0, failing := false
          recovered := true, now }
  | persistence (eventType : String) :
      (effectiveRule rules familyPersistence "server" "persistence").id ≠ "" →
      Observed rules now [familyPersistence] (persistenceObservation
        (effectiveRule rules familyPersistence "server" "persistence") now eventType)
  | check {db : Database} {c : HealthCheckRow} : c ∈ enabledChecks db →
      (effectiveRule rules (checkFamily c) "resource" c.resourceId).id ≠ "" →
      Observed rules now checkFamilies (checkObservation db now
        (effectiveRule rules (checkFamily c) "resource" c.resourceId) c)

/-- The observation is made under one of the rules, of one of the families; only the
recovery duration may be another one. -/
def Observation.Under (rules : List Rule) (families : List String) (o : Observation) : Prop :=
  o.rule.family ∈ families ∧ ∃ rule ∈ rules, rule.id = o.rule.id ∧ rule.family = o.rule.family ∧
    rule.severity = o.rule.severity

theorem checkFamily_mem (c : HealthCheckRow) : checkFamily c ∈ checkFamilies := by
  unfold checkFamily checkFamilies
  split <;> simp

theorem checkObservation_rule (db : Database) (now : Time) (rule : Rule) (c : HealthCheckRow) :
    (checkObservation db now rule c).rule =
      { rule with recoveryDuration := (checkObservation db now rule c).rule.recoveryDuration } := by
  simp only [checkObservation]
  split <;> rfl

variable {now : Time} {families : List String}

theorem Observed.under {rules : List Rule}
    (h : Observed rules now families o) : o.Under rules families ∧ o.now = now := by
  cases h with
  | host v hrule _ hfamily =>
    refine ⟨⟨?_, _, hrule, rfl, rfl, rfl⟩, rfl⟩
    simp only [hostFamilies, List.mem_cons, List.not_mem_nil, or_false] at hfamily ⊢
    exact hfamily.imp_right .inl
  | docker state hrule _ hfamily =>
    exact ⟨⟨by simp [hostFamilies, hfamily], _, hrule, rfl, rfl, rfl⟩, rfl⟩
  | filesystem mount v hrule _ hfamily | counted resource count hrule _ hfamily
  | uncounted resource hrule _ hfamily => exact ⟨⟨hfamily, _, hrule, rfl, rfl, rfl⟩, rfl⟩
  | persistence eventType hid =>
    obtain ⟨hmem, hfamily⟩ := effectiveRule_cases hid
    exact ⟨⟨by simp [persistenceObservation, hfamily], _, hmem, rfl, rfl, rfl⟩, rfl⟩
  | @check db c _ hid =>
    obtain ⟨hmem, hfamily⟩ := effectiveRule_cases hid
    refine ⟨?_, rfl⟩
    rw [Observation.Under, checkObservation_rule]
    refine ⟨?_, _, hmem, rfl, rfl, rfl⟩
    show (effectiveRule rules (checkFamily c) "resource" c.resourceId).family ∈ checkFamilies
    rw [hfamily]
    exact checkFamily_mem c

theorem Observed.family_mem {rules : List Rule} (h : Observed rules now families o) :
    o.rule.family ∈ earlierFamilies ++ checkFamilies := by
  have hfamily := h.under.1.1
  unfold earlierFamilies
  simp only [List.mem_append]
  cases h with
  | host | docker => exact .inl (.inl (.inl (.inl hfamily)))
  | filesystem => exact .inl (.inl (.inl (.inr hfamily)))
  | counted | uncounted => exact .inl (.inl (.inr hfamily))
  | persistence => exact .inl (.inr hfamily)
  | check => exact .inr hfamily

theorem Observed.enabled {rules : List Rule} (h : Observed rules now families o) :
    ∃ rule ∈ rules, rule.enabled = true ∧ rule.family = o.rule.family := by
  have heffective : ∀ {family targetType target : String},
      (effectiveRule rules family targetType target).id ≠ "" →
      ∃ rule ∈ rules, rule.enabled = true ∧
        rule.family = (effectiveRule rules family targetType target).family := by
    intro family targetType target hid
    rcases effectiveRuleFrom_cases family targetType target Rule.zero rules with hzero | hrule
    · exact absurd (congrArg Rule.id hzero) hid
    · exact ⟨_, hrule.1, hrule.2.1, rfl⟩
  cases h with
  | host v hrule henabled | docker state hrule henabled | filesystem mount v hrule henabled
  | counted resource count hrule henabled | uncounted resource hrule henabled =>
    exact ⟨_, hrule, henabled, rfl⟩
  | persistence eventType hid => exact heffective hid
  | check _ hid =>
    rw [checkObservation_rule]
    exact heffective hid

/-! ## What a stage is made of -/

variable {rule : Rule}

section Parts

variable (sink : Option Repository) (rules : List Rule) (input : PassInput)

def AtMostOne (E : PassError → Prop) (Q : Observation → Prop) (p : Pass) : Prop :=
  p = .done ∨ (∃ e, E e ∧ p = .fail e) ∨ ∃ o, Q o ∧ p = evaluateTx sink input.draws o

def LacksThreshold (rule : Rule) (e : PassError) : Prop :=
  rule.family ∈ [familyHostCPU, familyHostMemory] ∧
    (effectiveRule rules rule.family "host" "server").id = rule.id ∧
    (rule.threshold = none ∨ rule.recoveryThreshold = none) ∧ e = .nilThreshold rule.id

theorem atMostOne_evaluateHost (hrule : rule ∈ rules) (henabled : rule.enabled = true)
    (hfamily : rule.family ∈ [familyHostCPU, familyHostMemory]) (value : Option ℚ) :
    AtMostOne sink input (LacksThreshold rules rule)
      (fun o => o.rule = rule ∧ Observed rules input.now hostFamilies o)
      (evaluateHost sink rules input rule value) := by
  unfold evaluateHost
  split
  · exact .inl rfl
  · next heffective =>
    split
    · exact .inl rfl
    · next v =>
      split
      · next ht hr =>
        exact .inr (.inr ⟨_, ⟨rfl, .host v hrule henabled hfamily
          (Decidable.not_not.mp heffective) ht hr⟩, rfl⟩)
      · next hnone =>
        refine .inr (.inl ⟨_, ⟨hfamily, Decidable.not_not.mp heffective, ?_, rfl⟩, rfl⟩)
        cases ht : rule.threshold with
        | none => exact .inl rfl
        | some t =>
          cases hr : rule.recoveryThreshold with
          | none => exact .inr rfl
          | some r => exact absurd hr (hnone t r ht)

theorem atMostOne_evaluateRule (hrule : rule ∈ rules) :
    AtMostOne sink input (LacksThreshold rules rule)
      (fun o => o.rule = rule ∧ Observed rules input.now hostFamilies o)
      (evaluateRule sink rules input rule) := by
  unfold evaluateRule
  split
  · exact .inl rfl
  · next henabled =>
    have henabled : rule.enabled = true := by simpa using henabled
    split
    · next hf => exact atMostOne_evaluateHost sink rules input hrule henabled (by simp [hf]) _
    · split
      · next hf => exact atMostOne_evaluateHost sink rules input hrule henabled (by simp [hf]) _
      · split
        · next hf =>
          unfold evaluateDocker
          split
          · exact .inl rfl
          · next heffective =>
            exact .inr (.inr ⟨_, ⟨rfl, .docker _ hrule henabled hf
              (Decidable.not_not.mp heffective)⟩, rfl⟩)
        · exact .inl rfl

theorem family_of_filesystemValue {f : FilesystemSample} {v : ℚ}
    (h : filesystemValue rule f = some v) : rule.family ∈ filesystemFamilies := by
  unfold filesystemValue at h
  simp only [filesystemFamilies, List.mem_cons, List.not_mem_nil, or_false] at h ⊢
  split at h
  · next hf => rcases hf with hf | hf <;> simp [hf]
  · split at h
    · next hf => rcases hf with hf | hf <;> simp [hf]
    · cases h

theorem atMostOne_evaluateFilesystem (hrule : rule ∈ rules) (f : FilesystemSample) :
    AtMostOne sink input (fun _ => False)
      (fun o => o.rule = rule ∧ o.target = f.mountKey ∧
        (effectiveRule rules rule.family "filesystem" f.mountKey).id = rule.id ∧
        Observed rules input.now filesystemFamilies o)
      (evaluateFilesystem sink rules input f rule) := by
  unfold evaluateFilesystem
  split
  · next ht hr =>
    split
    · exact .inl rfl
    · next happlies =>
      simp only [Bool.or_eq_true, Bool.not_eq_true', decide_eq_true_eq, not_or, Bool.not_eq_false,
        ne_eq, Decidable.not_not] at happlies
      split
      · next v hv =>
        exact .inr (.inr ⟨_, ⟨rfl, rfl, happlies.2, .filesystem f.mountKey v hrule happlies.1
          (family_of_filesystemValue hv) happlies.2 ht hr⟩, rfl⟩)
      · exact .inl rfl
  · exact .inl rfl

theorem atMostOne_evaluateCheck (db : Database) {c : HealthCheckRow} (hc : c ∈ enabledChecks db) :
    AtMostOne sink input (fun _ => False)
      (fun o => o.rule.family = checkFamily c ∧ o.target = c.resourceId ∧
        Observed rules input.now checkFamilies o)
      (evaluateCheck sink rules input db c) := by
  unfold evaluateCheck
  simp only
  split
  · exact .inl rfl
  · next hid =>
    refine .inr (.inr ⟨_, ⟨?_, rfl, .check hc hid⟩, rfl⟩)
    rw [checkObservation_rule]
    exact (effectiveRule_cases hid).2

theorem pos_of_mem_eventCounts {c : String × Nat} (h : c ∈ eventCounts db rule now) : 0 < c.2 := by
  obtain ⟨resource, hresource, rfl⟩ := List.mem_map.mp h
  obtain ⟨e, he, hid⟩ := List.mem_filterMap.mp (List.mem_dedup.mp hresource)
  exact List.countP_pos_iff.mpr ⟨e, he, by simp [hid]⟩

/-- What the loop over the event rules looks at: an enabled rule of the two families with a
threshold. -/
def CountsEvents (rule : Rule) (threshold : ℚ) : Prop :=
  rule.threshold = some threshold ∧ rule.enabled = true ∧ rule.family ∈ eventFamilies

end Parts

section Closed

variable {sink : Option Repository} {rules : List Rule} {input : PassInput} {P : Pass → Prop}

theorem AtMostOne.closed {E : PassError → Prop} {Q : Observation → Prop} {p : Pass}
    (h : AtMostOne sink input E Q p) (hP : Session.Closed P) (hfail : ∀ e, E e → P (.fail e))
    (hQ : ∀ o, Q o → P (evaluateTx sink input.draws o)) : P p := by
  rcases h with rfl | ⟨e, he, rfl⟩ | ⟨o, ho, rfl⟩
  · exact hP.done
  · exact hfail e he
  · exact hQ o ho

def ObservationsHave (sink : Option Repository) (rules : List Rule) (input : PassInput)
    (P : Pass → Prop) (families : List String) : Prop :=
  ∀ o, Observed rules input.now families o → P (evaluateTx sink input.draws o)

def EvaluationsHave (sink : Option Repository) (rules : List Rule) (input : PassInput)
    (P : Pass → Prop) (families : List String) : Prop :=
  ∀ o : Observation, o.Under rules families → o.now = input.now → P (evaluateTx sink input.draws o)

theorem EvaluationsHave.observed (h : EvaluationsHave sink rules input P families) :
    ObservationsHave sink rules input P families :=
  fun o ho => h o ho.under.1 ho.under.2

theorem evaluateEventRule_cases (rule : Rule) :
    evaluateEventRule sink input rule = .done ∨
      ∃ threshold, CountsEvents rule threshold := by
  unfold evaluateEventRule
  split
  · exact .inl rfl
  · next threshold ht =>
    split
    · exact .inl rfl
    · next hf =>
      simp only [Bool.or_eq_true, Bool.not_eq_true', Bool.and_eq_true, decide_eq_true_eq, not_or,
        not_and_or, Bool.not_eq_false, ne_eq, Decidable.not_not] at hf
      exact .inr ⟨threshold, ht, hf.1, by simpa [eventFamilies] using hf.2⟩

theorem CountsEvents.evaluateEventRule_eq {threshold : ℚ} (h : CountsEvents rule threshold) :
    evaluateEventRule sink input rule = .read fun db =>
      Session.andThen
        (.forEach (input.order.arrange (eventCounts db rule input.now)) fun c =>
          evaluateTx sink input.draws
            { rule, targetType := "resource", target := c.1, value := c.2
              failing := if rule.family = familyOOMLoop then (c.2 : ℚ) ≥ threshold
                else (c.2 : ℚ) > threshold
              recovered := (c.2 : ℚ) ≤ 0, now := input.now })
        (.read fun db' => .forEach ((input.order.arrange (unhealthyTargets db' rule)).filter
            fun target => target ∉ (eventCounts db rule input.now).map Prod.fst) fun target =>
          evaluateTx sink input.draws
            { rule, targetType := "resource", target, value := 0, failing := false
              recovered := true, now := input.now }) := by
  obtain ⟨ht, henabled, hfamily⟩ := h
  have hguard : ¬ (!rule.enabled || (rule.family ≠ familyRestartStorm
      && rule.family ≠ familyOOMLoop)) = true := by
    simp only [eventFamilies, List.mem_cons, List.not_mem_nil, or_false] at hfamily
    rcases hfamily with hf | hf <;> simp [henabled, hf]
  simp only [evaluateEventRule, ht, if_neg hguard]

theorem CountsEvents.evaluateEventRule_uncounted {threshold : ℚ} (h : CountsEvents rule threshold)
    {db : Database} (hnone : eventCounts db rule input.now = []) :
    evaluateEventRule sink input rule db =
      Session.forEach (input.order.arrange (unhealthyTargets db rule)) (fun target =>
        evaluateTx sink input.draws
          { rule, targetType := "resource", target, value := 0, failing := false
            recovered := true, now := input.now }) db := by
  rw [h.evaluateEventRule_eq]
  show Session.andThen _ _ db = _
  rw [hnone, RowOrder.arrange_nil, Session.forEach_nil, Session.done_andThen]
  show Session.forEach _ _ db = _
  simp only [List.map_nil, List.not_mem_nil, not_false_eq_true, decide_true, List.filter_true]

theorem storeGracePeriod_ok {g : GracePeriodRow} {db db' : Database}
    (h : storeGracePeriod g db = .ok db') : ∃ gracePeriods, db' = { db with gracePeriods } := by
  unfold storeGracePeriod at h
  split at h
  · cases h
    exact ⟨_, rfl⟩
  · cases h

section Stages

variable (hP : Session.Closed P)
include hP

theorem closed_hostRules (h : ObservationsHave sink rules input P hostFamilies)
    (hfail : ∀ rule ∈ rules, ∀ e, LacksThreshold rules rule e → P (.fail e)) :
    P (.forEach rules (evaluateRule sink rules input)) :=
  hP.forEach fun rule hrule => (atMostOne_evaluateRule sink rules input hrule).closed hP
    (hfail rule hrule) fun o ho => h o ho.2

theorem closed_filesystems (h : ObservationsHave sink rules input P filesystemFamilies) :
    P (evaluateFilesystems sink rules input) :=
  hP.read fun _ => hP.forEach fun f _ => hP.forEach fun _ hrule =>
    (atMostOne_evaluateFilesystem sink rules input hrule f).closed hP (fun _ he => he.elim)
      fun o ho => h o ho.2.2.2

theorem closed_events (h : ObservationsHave sink rules input P eventFamilies) :
    P (evaluateEvents sink rules input) := by
  refine hP.forEach fun rule hrule => ?_
  rcases evaluateEventRule_cases rule with hdone | ⟨threshold, hcounts⟩
  · rw [hdone]
    exact hP.done
  · rw [hcounts.evaluateEventRule_eq]
    obtain ⟨ht, henabled, hfamily⟩ := hcounts
    refine hP.read fun db => hP.andThen (hP.forEach fun c hc => ?_) ?_
    · have hcount := pos_of_mem_eventCounts (input.order.mem_arrange.mp hc)
      exact h _ (.counted c.1 c.2 hrule henabled hfamily ht hcount)
    · exact hP.read fun db => hP.forEach fun target _ =>
        h _ (.uncounted target hrule henabled hfamily ht)

theorem closed_persistence (h : ObservationsHave sink rules input P [familyPersistence]) :
    P (evaluatePersistence sink rules input) := by
  refine hP.read fun db => ?_
  simp only
  split
  · exact hP.done
  · next hid =>
    split
    · exact hP.done
    · exact h _ (.persistence _ hid)

theorem closed_deployments
    (h : ∀ db : Database, ∀ resource ∈ (recentDeployments db input.now).filterMap
      EventRow.resourceId, P (.execute (storeGracePeriod
        (gracePeriod (recentDeployments db input.now) resource)))) :
    P (correlateDeployments input) := by
  refine hP.read fun db => hP.forEach fun resource hres => h db resource ?_
  exact List.mem_dedup.mp (input.order.mem_arrange.mp hres)

theorem closed_checks (h : ObservationsHave sink rules input P checkFamilies) :
    P (evaluateChecks sink rules input) :=
  hP.read fun db => hP.forEach fun _ hc =>
    (atMostOne_evaluateCheck sink rules input db (input.order.mem_arrange.mp hc)).closed hP
      (fun _ he => he.elim) fun o ho => h o ho.2.2

theorem closed_untilChecks
    (h : ∀ families ⊆ earlierFamilies, ObservationsHave sink rules input P families)
    (hcleanup : P (.execute fun db => .ok (cleanup db input.now)))
    (hfail : ∀ rule ∈ rules, ∀ e, LacksThreshold rules rule e → P (.fail e))
    (hgrace : ∀ g, P (.execute (storeGracePeriod g))) :
    P (untilChecks sink rules input) :=
  hP.andThen hcleanup <|
  hP.andThen (closed_hostRules hP (h _ (by decide)) hfail) <|
  hP.andThen (closed_filesystems hP (h _ (by decide))) <|
  hP.andThen (closed_events hP (h _ (by decide))) <|
  hP.andThen (closed_persistence hP (h _ (by decide))) <|
  closed_deployments hP fun _ _ _ => hgrace _

end Stages

theorem evaluatePass_keeps {I : Database → Prop} (hdb : I db) (hevaluate : ∀ s s' o families, I s →
      Observed (Alerts.rules input.order db) input.now families o →
      evaluate sink (input.draws.draw s) s o = .ok s' → I s')
    (hcleanup : ∀ s, I s → I (cleanup s input.now))
    (hgrace : ∀ s gracePeriods, I s → I { s with gracePeriods }) :
    I (evaluatePass sink input db).state := by
  have hclosed := Session.closed_keeps (ε := PassError) (ω := Observation) I
  have hhave : ∀ families, ObservationsHave sink (Alerts.rules input.order db) input
      (Session.Keeps I) families := fun families o ho =>
    Session.keeps_transact fun s s' hs hok => hevaluate s s' o families hs ho (mapError_ok.mp hok)
  have hclean : Session.Keeps I (.execute fun s => .ok (cleanup s input.now) : Pass) := by
    refine Session.keeps_execute fun s s' hs hok => ?_
    cases hok
    exact hcleanup s hs
  have hgraces : ∀ g, Session.Keeps I (.execute (storeGracePeriod g) : Pass) := by
    refine fun g => Session.keeps_execute fun s s' hs hok => ?_
    obtain ⟨gracePeriods, rfl⟩ := storeGracePeriod_ok hok
    exact hgrace s gracePeriods hs
  have huntil := closed_untilChecks hclosed (fun families _ => hhave families) hclean
    (fun _ _ _ _ => Session.keeps_fail _) hgraces
  exact hclosed.andThen huntil (closed_checks hclosed (hhave _)) db hdb

theorem observed_of_tried {x : Database × Observation}
    (h : x ∈ (evaluatePass sink input db).tried) :
    ∃ families, Observed (Alerts.rules input.order db) input.now families x.2 := by
  let A : Database → Observation → Prop := fun _ o =>
    ∃ families, Observed (Alerts.rules input.order db) input.now families o
  have hclosed := Session.closed_tries (ε := PassError) (fun _ => True) A
  have hhave : ∀ families, ObservationsHave sink (Alerts.rules input.order db) input
      (Session.Tries (fun _ => True) A) families := fun families o ho =>
    Session.tries_transact (fun _ _ _ _ => trivial) fun _ _ => ⟨families, ho⟩
  have huntil := closed_untilChecks hclosed (fun families _ => hhave families)
    (Session.tries_execute fun _ _ _ _ => trivial) (fun _ _ _ _ => Session.tries_fail _)
    fun _ => Session.tries_execute fun _ _ _ _ => trivial
  exact (hclosed.andThen huntil (closed_checks hclosed (hhave _)) db trivial).2 x h

end Closed

end Binnacle.Alerts
