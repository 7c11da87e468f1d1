import Binnacle.Alerts.Lifecycle
import Binnacle.Alerts.Pass
import Binnacle.Collector.Sampler
import Binnacle.Storage.Restarts

/-!
# From Docker's messages to the event rules

The whole way of a Docker message: the sampler, the engine, a batch, the events
table, and the pass that counts events by resource. No link of it writes the
resource of the container, so the counts of `evaluateEvents` are always empty.

- `Anonymous`: what every run of the pipeline keeps: no event on its way and no
  stored event of a counted type names a resource, and no evaluation state
  belongs to a rule of the two families;
- `eventRule_never_leaves_healthy`: in every reachable state, whatever Docker has
  reported, a pass leaves the keys of the two families healthy.
-/

namespace Binnacle.Alerts

open Relational Runs Storage Metrics Notifications

structure Pipeline where
  pending : List Event
  site : Installation

def countedTypes : List String := ["container_oom", "container_restart"]

def otherFamilies : List String :=
  hostFamilies ++ filesystemFamilies ++ [familyPersistence] ++ checkFamilies

inductive Happening where
  | docker (event : Collector.Event)
  | collect (wallClock : Time) (snapshot : Snapshot)
  /-- The process is started again. -/
  | restart
  /-- Batches are taken and written, hosts and resources stored. -/
  | storage (a : Activity)
  | seedDefaults (now : Time)
  | createRule (rule : Rule) (now : Time)
  | updateRule (rule : Rule) (now : Time)
  | pass (input : PassInput)
  | edit (db : Database)

def Pipeline.db (p : Pipeline) : Database := p.site.m.db

def Pipeline.setManager (p : Pipeline) (m : Manager) : Pipeline :=
  { p with site := { p.site with m } }

def happen (lib : Collector.EventText) (sink : Option Repository) (p : Pipeline) :
    Happening → Pipeline
  | .docker event => { p with pending := Collector.accept lib p.pending event }
  | .collect wallClock snapshot =>
    { pending := [], site := act p.site (.publish wallClock snapshot p.pending) }
  | .restart => { pending := [], site := act p.site (.start 128) }
  | .storage a => { p with site := act p.site a }
  | .seedDefaults now => p.setManager (p.site.m.attempt (seedDefaults p.db now))
  | .createRule rule now => p.setManager (p.site.m.attempt (createRule p.db rule now))
  | .updateRule rule now => p.setManager (p.site.m.attempt (updateRule p.db rule now))
  | .pass input => p.setManager { p.site.m with db := (evaluatePass sink input p.db).state }
  | .edit db => p.setManager { p.site.m with db }

/-- Only the sampler publishes and only a restart makes a new engine. The rest of
the program writes no event of a counted type, no evaluation state and no rule; it
may delete. -/
def Happening.Enabled (p : Pipeline) : Happening → Prop
  | .storage (.start _) => False
  | .storage (.publish _ _ _) => False
  | .storage a => a.Enabled p.site
  | .edit db => db.alertRules = p.db.alertRules ∧
    (∀ e ∈ db.events.rows, e.type ∈ countedTypes → e ∈ p.db.events.rows) ∧
    ∀ s ∈ db.alertEvaluationState.rows, s ∈ p.db.alertEvaluationState.rows
  | _ => True

def pipelines (lib : Collector.EventText) (sink : Option Repository) :
    System Pipeline Happening :=
  .ofStep { pending := [], site := installed } (happen lib sink) Happening.Enabled

/-! ## No link names the resource -/

/-- No stored event of a counted type names a resource, and every evaluation state
is one of a rule of another family. -/
structure Unattributed (db : Database) : Prop where
  events : ∀ e ∈ db.events.rows, e.type ∈ countedTypes → e.resourceId = none
  states : ∀ s ∈ db.alertEvaluationState.rows, ∃ r ∈ db.alertRules.rows, r.id = s.ruleId ∧
    r.family ∈ otherFamilies ∧ ∃ target, s.dedupKey = dedup r.family target

def Anonymous (events : List Event) : Prop := ∀ e ∈ events, e.resourceId = ""

structure PipelineAnonymous (p : Pipeline) : Prop where
  pending : Anonymous p.pending
  engine : Anonymous p.site.engine.events
  captured : ∀ b ∈ p.site.captured, Anonymous b.events
  db : Unattributed p.db

variable {family : String}

theorem otherFamilies_not_event (h : family ∈ otherFamilies) :
    family ∉ eventFamilies := by
  revert family
  decide

variable {db : Database}

theorem Unattributed.healthy (h : Unattributed db)
    (hf : family ∈ eventFamilies) (resource : String) :
    phaseOf db (dedup family resource) = .healthy := by
  have hnone : db.alertEvaluationState.find? (dedup family resource) = none := by
    refine Table.find?_eq_none_iff.mpr fun s hs hkey => ?_
    obtain ⟨r, -, -, hother, target, hdedup⟩ := h.states s hs
    have hkeys : dedup r.family target = dedup family resource := hdedup.symm.trans hkey
    have hknown : otherFamilies ++ eventFamilies ⊆ earlierFamilies ++ checkFamilies := by decide
    have hsame := (dedup_inj (family_no_colon (hknown (List.mem_append_left _ hother)))
      (family_no_colon (hknown (List.mem_append_right _ hf))) hkeys).1
    exact otherFamilies_not_event hother (hsame ▸ hf)
  simp only [phaseOf, loadState, hnone]

/-! ## A pass keeps it -/

def UnattributedUnder (rows : Table AlertRuleRow.id) (db : Database) : Prop :=
  db.alertRules = rows ∧ Unattributed db

section Pass

variable {sink : Option Repository} {input : PassInput} {rows : Table AlertRuleRow.id}
  {rules : List Rule}

theorem keeps_evaluateTx (hrules : ∀ v ∈ rules, ∃ r ∈ rows.rows, ruleOf r = v) {o : Observation}
    (ho : o.Under rules otherFamilies) (draws : Draws) :
    Session.Keeps (UnattributedUnder rows) (evaluateTx sink draws o) := by
  refine Session.keeps_transact fun db db' hdb h => ?_
  obtain ⟨heq, hun⟩ := hdb
  have hok := mapError_ok.mp h
  have hsame : db'.alertRules = rows := by
    rw [evaluate_frame hok]
    exact heq
  refine ⟨hsame, ⟨fun e he htype => ?_, fun s hs => ?_⟩⟩
  · -- the event an evaluation adds is of none of the counted types
    exact hun.events e ((evaluate_events hok).mem_old (by decide) he htype) htype
  · have hfind := Table.find?_eq_some_iff.mpr ⟨hs, rfl⟩
    rw [evaluate_state hok] at hfind
    rw [hsame]
    by_cases hk : o.key = s.dedupKey
    · rw [if_pos hk] at hfind
      obtain ⟨hfamily, v, hv, hid, hvf, -⟩ := ho
      obtain ⟨r, hr, rfl⟩ := hrules v hv
      have hrid : r.id = s.ruleId := by
        rw [← Option.some.inj hfind]
        cases db.alertEvaluationState.find? s.dedupKey <;> exact hid
      have hrf : r.family = o.rule.family := hvf
      exact ⟨r, hr, hrid, hrf ▸ hfamily, o.target, by rw [hrf]; exact hk.symm⟩
    · rw [if_neg hk] at hfind
      rw [← heq]
      exact hun.states s (Table.find?_eq_some_iff.mp hfind).1

theorem evaluationsHave_keeps (hrules : ∀ v ∈ rules, ∃ r ∈ rows.rows, ruleOf r = v)
    {families : List String} (hf : families ⊆ otherFamilies) :
    EvaluationsHave sink rules input (Session.Keeps (UnattributedUnder rows)) families := by
  intro o ho _
  exact keeps_evaluateTx hrules ⟨hf ho.1, ho.2⟩ input.draws

theorem Unattributed.eventCounts (h : Unattributed db) {rule : Rule}
    (now : Time) : eventCounts db rule now = [] := by
  have hnone : countedEvents db rule now = [] := by
    refine List.filter_eq_nil_iff.mpr fun e he hcounted => ?_
    simp only [Bool.and_eq_true, decide_eq_true_eq] at hcounted
    have htype : e.type ∈ countedTypes := by
      rw [hcounted.1.1]
      unfold countedType countedTypes
      split <;> simp
    rw [h.events e he htype] at hcounted
    exact Bool.false_ne_true hcounted.1.2
  simp [Alerts.eventCounts, hnone]

theorem Unattributed.unhealthyTargets (h : Unattributed db) {r : AlertRuleRow}
    (hr : r ∈ db.alertRules.rows) (hf : r.family ∈ eventFamilies) :
    unhealthyTargets db (ruleOf r) = [] := by
  have hnone : (db.alertEvaluationState.rows.filter fun s => s.ruleId = (ruleOf r).id
      && s.phase ≠ .healthy) = [] := by
    refine List.filter_eq_nil_iff.mpr fun s hs hsel => ?_
    simp only [Bool.and_eq_true, decide_eq_true_eq] at hsel
    obtain ⟨r', hr', hid, hother, -⟩ := h.states s hs
    have hsame : r' = r := Table.eq_of_key_eq hr' hr (hid.trans hsel.1)
    exact otherFamilies_not_event hother (hsame ▸ hf)
  simp only [Alerts.unhealthyTargets, hnone, List.map_nil]

theorem keeps_evaluateEvents (hrules : ∀ v ∈ rules, ∃ r ∈ rows.rows, ruleOf r = v) :
    Session.Keeps (UnattributedUnder rows) (evaluateEvents sink rules input) := by
  refine (Session.closed_keeps _).forEach fun rule hrule => ?_
  rcases evaluateEventRule_cases rule with hdone | ⟨threshold, hcounts⟩
  · rw [hdone]
    exact Session.keeps_done
  · intro db hdb
    obtain ⟨r, hr, rfl⟩ := hrules rule hrule
    rw [← hdb.1] at hr
    rw [hcounts.evaluateEventRule_uncounted (hdb.2.eventCounts _),
      hdb.2.unhealthyTargets hr hcounts.2.2, RowOrder.arrange_nil]
    exact Session.keeps_done db hdb

theorem Unattributed.evaluatePass (h : Unattributed db) :
    Unattributed (evaluatePass sink input db).state := by
  have hrules : ∀ v ∈ Alerts.rules input.order db, ∃ r ∈ db.alertRules.rows, ruleOf r = v :=
    fun v hv => rules_mem_iff.mp hv
  have hclosed := Session.closed_keeps (ε := PassError) (ω := Observation)
    (UnattributedUnder db.alertRules)
  have hhave : ∀ families ⊆ otherFamilies, EvaluationsHave sink (Alerts.rules input.order db)
      input (Session.Keeps (UnattributedUnder db.alertRules)) families :=
    fun families hf => evaluationsHave_keeps hrules hf
  have hcleanup : Session.Keeps (UnattributedUnder db.alertRules)
      (.execute fun db => .ok (cleanup db input.now) : Pass) := by
    refine Session.keeps_execute fun s s' hs hok => ?_
    cases hok
    exact ⟨hs.1, hs.2.events, hs.2.states⟩
  have hdeploy : Session.Keeps (UnattributedUnder db.alertRules)
      (correlateDeployments input : Pass) := by
    refine closed_deployments hclosed fun db' resource _ => ?_
    refine Session.keeps_execute fun s s' hs hok => ?_
    obtain ⟨gracePeriods, rfl⟩ := storeGracePeriod_ok hok
    exact ⟨hs.1, hs.2.events, hs.2.states⟩
  have huntil : Session.Keeps (UnattributedUnder db.alertRules)
      (untilChecks sink (Alerts.rules input.order db) input) :=
    hclosed.andThen hcleanup <|
    hclosed.andThen (closed_hostRules hclosed (hhave _ (by decide)).observed
      fun _ _ _ _ => Session.keeps_fail _) <|
    hclosed.andThen (closed_filesystems hclosed (hhave _ (by decide)).observed) <|
    hclosed.andThen (keeps_evaluateEvents hrules) <|
    hclosed.andThen (closed_persistence hclosed (hhave _ (by decide)).observed) hdeploy
  have hchecks := closed_checks hclosed (hhave checkFamilies (by decide)).observed
  exact (hclosed.andThen huntil hchecks db ⟨rfl, h⟩).2

end Pass

/-! ## Every run keeps it -/

theorem anonymous_publish {engine : Engine} {pending : List Event}
    (hengine : Anonymous engine.events) (hpending : Anonymous pending) (wallClock : Time)
    (snapshot : Snapshot) : Anonymous (engine.publish wallClock snapshot pending).events := by
  intro e he
  rcases mem_publish_events he with hold | ⟨e', he', id, rfl⟩
  · exact hengine e hold
  · exact hpending e' he'

theorem Unattributed.writeBatch {m m' : Manager} {b : PersistenceBatch} (h : Unattributed m.db)
    (hb : Anonymous b.events) (hok : Storage.writeBatch m b = .ok m') : Unattributed m'.db := by
  have hframe := writeBatch_frame hok
  refine ⟨fun e he htype => ?_, ?_⟩
  · rw [writeBatch_events hok] at he
    rcases Table.mem_foldl_insertOrIgnore he with he | ⟨event, hevent, rfl⟩
    · exact h.events e he htype
    · simp [eventRow, nullable, hb event hevent]
  · rw [hframe]
    exact h.states

theorem Unattributed.of_rules {db' : Database} (h : Unattributed db) (hkept : RulesKept db db') :
    Unattributed db' := by
  refine ⟨?_, fun s hs => ?_⟩
  · rw [hkept.frame]
    exact h.events
  · rw [hkept.frame] at hs
    obtain ⟨r, hr, hid, hother, target, hkey⟩ := h.states s hs
    obtain ⟨r', hr', hid', hfamily⟩ := hkept.families r hr
    refine ⟨r', hr', hid'.trans hid, ?_, target, ?_⟩
    · rw [hfamily]
      exact hother
    · rw [hfamily]
      exact hkey

variable {p : Pipeline}

theorem PipelineAnonymous.storage (h : PipelineAnonymous p) {a : Activity}
    (ha : Happening.Enabled p (.storage a)) :
    PipelineAnonymous { p with site := act p.site a } := by
  cases a with
  | start maxEvents => exact ha.elim
  | publish wallClock snapshot events => exact ha.elim
  | publishFilesystems obs => exact ⟨h.pending, h.engine, h.captured, h.db⟩
  | capture =>
    refine ⟨h.pending, h.engine, fun b hb => ?_, h.db⟩
    rcases mem_snoc rfl hb with hb | rfl
    · exact h.captured b hb
    · exact h.engine
  | upsertHost id identity name =>
    refine ⟨h.pending, h.engine, h.captured, Manager.attempt_keeps h.db fun db hok => ?_⟩
    rw [upsertHost_frame hok]
    exact ⟨h.db.events, h.db.states⟩
  | upsertResource r now =>
    refine ⟨h.pending, h.engine, h.captured, Manager.attempt_keeps h.db fun db hok => ?_⟩
    rw [upsertResource_frame hok]
    exact ⟨h.db.events, h.db.states⟩
  | write batch =>
    cases hw : Storage.writeBatch p.site.m batch with
    | error err =>
      rw [act_write_error hw]
      exact h
    | ok m =>
      rw [act_write_ok hw]
      exact ⟨h.pending, h.engine, h.captured, h.db.writeBatch (h.captured batch ha) hw⟩

variable {lib : Collector.EventText} {sink : Option Repository}

theorem PipelineAnonymous.of_happen {a : Happening}
    (h : PipelineAnonymous p) (ha : a.Enabled p) : PipelineAnonymous (happen lib sink p a) := by
  cases a with
  | docker event =>
    refine ⟨fun e he => ?_, h.engine, h.captured, h.db⟩
    rcases Collector.mem_accept he with he | he
    · exact h.pending e he
    · exact (Collector.normalizeDocker_anonymous he).2
  | collect wallClock snapshot =>
    exact ⟨nofun, anonymous_publish h.engine h.pending wallClock snapshot,
      h.captured, h.db⟩
  | restart =>
    exact ⟨fun _ he => (nomatch he), fun _ he => (nomatch he), fun _ hb => (nomatch hb), h.db⟩
  | storage a => exact h.storage ha
  | seedDefaults now =>
    exact ⟨h.pending, h.engine, h.captured, Manager.attempt_keeps h.db fun _ hok =>
      h.db.of_rules (seedDefaults_keeps hok)⟩
  | createRule rule now =>
    exact ⟨h.pending, h.engine, h.captured, Manager.attempt_keeps h.db fun _ hok =>
      h.db.of_rules (createRule_keeps hok)⟩
  | updateRule rule now =>
    exact ⟨h.pending, h.engine, h.captured, Manager.attempt_keeps h.db fun _ hok =>
      h.db.of_rules (updateRule_keeps hok)⟩
  | pass input => exact ⟨h.pending, h.engine, h.captured, h.db.evaluatePass⟩
  | edit db =>
    obtain ⟨hrules, hevents, hstates⟩ := ha
    refine ⟨h.pending, h.engine, h.captured, ⟨fun e he htype => ?_, fun s hs => ?_⟩⟩
    · exact h.db.events e (hevents e he htype) htype
    · show ∃ r ∈ db.alertRules.rows, _
      rw [hrules]
      exact h.db.states s (hstates s hs)

theorem pipelineAnonymous_of_reachable
    (h : (pipelines lib sink).Reachable p) : PipelineAnonymous p := by
  refine h.invariant PipelineAnonymous ?_ ?_
  · exact ⟨fun _ he => (nomatch he), fun _ he => (nomatch he), fun _ hb => (nomatch hb),
      fun _ he => (nomatch he), fun _ hs => nomatch hs⟩
  · rintro p a p' hp ⟨ha, rfl⟩
    exact hp.of_happen ha

/-- Whatever Docker reports and whatever is stored of it, a pass leaves the keys of
the two families healthy. -/
theorem eventRule_never_leaves_healthy {lib : Collector.EventText} {sink : Option Repository}
    {p : Pipeline}
    (h : (pipelines lib sink).Reachable p) (input : PassInput) {family : String}
    (hf : family ∈ eventFamilies) (resource : String) :
    phaseOf (evaluatePass sink input p.db).state (dedup family resource) = .healthy :=
  (pipelineAnonymous_of_reachable h).db.evaluatePass.healthy hf resource

/-! ### A restart storm that is stored and not seen -/

/-- How many stored messages of the rule's type came, within its window, from
containers that belong to the resource. -/
def messagesOf (db : Database) (rule : Rule) (now : Time) (resource : String) : Nat :=
  db.events.rows.countP fun e => e.type = countedType rule &&
    unixMilli (now - rule.window) ≤ e.ts &&
    db.containerInstances.rows.any fun c =>
      e.containerInstanceId = some c.id && c.resourceId = some resource

/-- The resource `web`, with its one container. -/
def webSnapshot : Snapshot where
  at_ := 100 * second
  resources := [{ id := "web", name := "web", status := .healthy, components :=
    [{ id := "c1", name := "web-1", status := .healthy }] }]

def webResource : Resource where
  id := "web"
  hostId := "host"
  stableKey := "k"
  sourceKind := "docker"
  name := "web"
  category := "app"
  status := "healthy"

/-- Container `c1` restarts. -/
def restartAt (seconds : Int) : Happening :=
  .docker { id := "c1", action := "restart", time := Collector.tally.format seconds }

/-- The rules are seeded, and `c1` restarts four times before the next collection. -/
def stormHappenings : List Happening :=
  [.seedDefaults 0, .storage (.upsertHost "host" "h" "Server"),
    .storage (.upsertResource webResource 0),
    restartAt 80, restartAt 85, restartAt 90, restartAt 95,
    .collect (100 * second) webSnapshot]

def storm : Pipeline :=
  happen Collector.tally (some {}) (stormHappenings.foldl (happen Collector.tally (some {}))
    (pipelines Collector.tally (some {})).init) (.storage .capture)

def storedStorm : Pipeline :=
  happen Collector.tally (some {}) storm (.storage (.write storm.site.engine.persistenceBatch))

theorem reachable_storedStorm : (pipelines Collector.tally (some {})).Reachable storedStorm := by
  have halong : Along (happen Collector.tally (some {})) (fun p a => Happening.Enabled p a)
      (pipelines Collector.tally (some {})).init stormHappenings :=
    ⟨trivial, trivial, trivial, trivial, trivial, trivial, trivial, trivial, trivial⟩
  have hstorm : (pipelines Collector.tally (some {})).Reachable storm :=
    (halong.reachable .init).next (a := .storage .capture) ⟨trivial, rfl⟩
  refine hstorm.next (a := .storage (.write storm.site.engine.persistenceBatch)) ⟨?_, rfl⟩
  unfold storm
  exact List.mem_append_right _ List.mem_cons_self

def passAt110 : PassInput where
  now := 110 * second
  snapshot := webSnapshot
  order := .stored
  draws := ⟨fun db => ⟨unusedIds db, 110 * second, .stored⟩, fun db => fresh_unusedIds db _ _⟩

/-- The seeded restart storm rule as `Rules` reads it. -/
def stormRule : Rule :=
  { builtinRule "builtin-restart-storm" familyRestartStorm "Restart storm" .warning with
    threshold := some 3, recoveryDuration := 10 * minute, window := 10 * minute,
    cooldown := 300 * second, repeatEvery := 7200 * second, suppressDuringDeployment := true }

/-- Four restarts of `web` are stored, more than the three the rule allows, and the
pass leaves its key healthy. -/
theorem restart_storm_not_seen :
    (pipelines Collector.tally (some {})).Reachable storedStorm ∧
    stormRule ∈ rules .stored storedStorm.db ∧
    messagesOf storedStorm.db stormRule (110 * second) "web" = 4 ∧
    (evaluatePass (some {}) passAt110 storedStorm.db).error = none ∧
    phaseOf (evaluatePass (some {}) passAt110 storedStorm.db).state
      (dedup familyRestartStorm "web") = .healthy :=
  ⟨reachable_storedStorm, by decide +kernel, by decide +kernel, by decide +kernel,
    by decide +kernel⟩

/-- The theorem on that run, for the restarts of `web`. -/
theorem storedStorm_healthy :
    phaseOf (evaluatePass (some {}) passAt110 storedStorm.db).state
      (dedup familyRestartStorm "web") = .healthy :=
  eventRule_never_leaves_healthy reachable_storedStorm passAt110 (by decide) "web"

end Binnacle.Alerts
