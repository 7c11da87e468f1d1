import Binnacle.Alerts.Evaluate
import Binnacle.Alerts.Repository
import Binnacle.Storage.Writer

/-!
# The stored lifecycle over whole histories

Every history of rule operations, telemetry batches and evaluations over one
database, from the empty one. `Consistent` is what such a history keeps: an
alert row exists for exactly the keys that are firing or recovering, one per
key, still firing and with its event in `events`.

The event of a resolution is inserted under the id the trigger used, so the
resolving transaction is always rolled back, and `evaluate` follows `Advance`
exactly on the other answers (`evaluate_refines_advance_iff`).
-/

namespace Binnacle.Alerts

open Relational Runs Storage Metrics Notifications

/-- The operations of a history. -/
inductive Op where
  | seedDefaults (now : Time)
  | createRule (rule : Rule) (now : Time)
  | updateRule (rule : Rule) (now : Time)
  | writeBatch (batch : PersistenceBatch)
  | evaluate (env : Ambient) (o : Observation)

/-- One operation; `sink` is the incident sink the evaluator was given. -/
def step (sink : Option Repository) (m : Manager) : Op → Manager
  | .seedDefaults now => m.attempt (seedDefaults m.db now)
  | .createRule rule now => m.attempt (createRule m.db rule now)
  | .updateRule rule now => m.attempt (updateRule m.db rule now)
  | .writeBatch batch =>
    match Storage.writeBatch m batch with
    | .ok m' => m'
    | .error _ => m
  | .evaluate env o => m.attempt (evaluate sink env m.db o)

def Op.Enabled (m : Manager) : Op → Prop
  | .evaluate env _ => Fresh env m.db
  | _ => True

def histories (sink : Option Repository) : System Manager Op :=
  .ofStep { db := Database.empty } (step sink) Op.Enabled

/-! ## What histories keep -/

def phaseOf (db : Database) (key : String) : Phase := (loadState db key 0).phase

theorem loadState_phase (db : Database) (key : String) (now : Time) :
    (loadState db key now).phase = phaseOf db key := by
  unfold phaseOf loadState
  split <;> rfl

structure Consistent (db : Database) : Prop where
  sound : Sound db
  firing : ∀ a ∈ db.alerts.rows, a.status = .firing
  announced : ∀ a ∈ db.alerts.rows, db.events.has ("alert-" ++ a.id) = true
  active : ∀ key, (∃ a ∈ db.alerts.rows, a.dedupKey = key) ↔ (phaseOf db key).Active

/-- Databases whose alerts, states and incident tables agree and whose events
have grown. -/
structure SameAlerts (db db' : Database) : Prop where
  alerts : db'.alerts = db.alerts
  states : db'.alertEvaluationState = db.alertEvaluationState
  incidents : db'.incidents = db.incidents
  memberships : db'.incidentAlerts = db.incidentAlerts
  deliveries : db'.deliveries = db.deliveries
  events : ∀ id, db.events.has id = true → db'.events.has id = true

variable {db db' : Database} {o : Observation} {sink : Option Repository} {m : Manager}
  {env : Ambient}

theorem SameAlerts.consistent (h : SameAlerts db db') (hc : Consistent db) :
    Consistent db' where
  sound := by
    refine ⟨?_, ?_⟩
    · unfold Linked
      rw [h.memberships, h.incidents]
      exact hc.sound.linked
    · unfold DeliveriesNamed
      rw [h.deliveries]
      exact hc.sound.named
  firing := by
    rw [h.alerts]
    exact hc.firing
  announced := by
    rw [h.alerts]
    exact fun a ha => h.events _ (hc.announced a ha)
  active key := by
    rw [h.alerts, hc.active key, phaseOf, phaseOf, loadState, loadState, h.states]

theorem RulesOnly.sameAlerts (h : RulesOnly db db') : SameAlerts db db' := by
  constructor <;> rw [h.frame]
  exact fun _ hid => hid

theorem writeBatch_sameAlerts {m' : Manager} {b : PersistenceBatch}
    (h : Storage.writeBatch m b = .ok m') : SameAlerts m.db m'.db := by
  have hframe := writeBatch_frame h
  refine ⟨by rw [hframe], by rw [hframe], by rw [hframe], by rw [hframe], by rw [hframe], ?_⟩
  rw [writeBatch_events h]
  exact fun id => recordEvents_has

/-- Where the stored lifecycle is consistent, resolving is refused: the event
of the trigger holds the id the resolution needs. -/
theorem Consistent.refused_of_resolved (hc : Consistent db) (hr : (o.answer db).resolved = true) :
    refused db o = true := by
  have hphase : (phaseOf db o.key).Active := by
    rw [← loadState_phase db o.key o.now]
    exact .inr (advance_resolved_iff.mp hr).1
  obtain ⟨a, ha, hk⟩ := (hc.active o.key).mpr hphase
  obtain ⟨b, hb, -, hfound⟩ := firingAlert_of_mem ha (hc.firing a ha)
  rw [hk] at hfound
  simp [refused, hr, hfound, hc.announced b hb]

theorem Consistent.not_refused (hc : Consistent db) (hrule : db.alertRules.has o.rule.id = true)
    (hsev : o.rule.severity.level ≠ none) (hr : (o.answer db).resolved = false) :
    refused db o = false := by
  simp only [refused, hrule, hr, hsev, Bool.not_true, Bool.false_and, Bool.or_false,
    decide_false, Bool.false_or, Bool.and_eq_false_imp]
  intro ht
  have hpending := (advance_triggered_iff.mp ht).1
  rw [loadState_phase] at hpending
  -- a pending key has no alert yet, so `UNIQUE(dedup_key, started_at)` cannot fail
  have hnone : ¬ ∃ a ∈ db.alerts.rows, a.dedupKey = o.key := by
    rw [hc.active o.key, hpending]
    simp [Phase.Active]
  simp only [List.any_eq_false, Bool.and_eq_true, decide_eq_true_eq]
  exact fun a ha h => hnone ⟨a, ha, h.1⟩

theorem phaseOf_evaluate (h : evaluate sink env db o = .ok db') (key : String) :
    phaseOf db' key = if o.key = key then (o.answer db).state.phase else phaseOf db key := by
  rw [phaseOf, loadState_evaluate h]
  split <;> rfl

theorem Consistent.of_evaluate (hc : Consistent db)
    (hfresh : Fresh env db) (h : evaluate sink env db o = .ok db') : Consistent db' := by
  have href : refused db o = false := by
    cases hb : refused db o with
    | false => rfl
    | true => exact absurd h (evaluate_refused hb db')
  have hr : (o.answer db).resolved = false := by
    cases hb : (o.answer db).resolved with
    | false => rfl
    | true => exact absurd (hc.refused_of_resolved hb) (by simp [href])
  have hsound : Sound db' := by
    obtain ⟨db₂, h₂, hs⟩ := evaluate_commits sink hfresh hc.sound href
    rw [h] at h₂
    cases h₂
    exact hs
  have hevents := evaluate_events h
  have hactive : (o.answer db).state.phase.Active ↔
      (o.answer db).triggered = true ∨ (phaseOf db o.key).Active := by
    rw [← loadState_phase db o.key o.now]
    exact (o.advances db).active_iff hr
  cases ht : (o.answer db).triggered with
  | true =>
    obtain ⟨⟨level, -, halerts⟩, hnew⟩ := evaluate_triggered h ht
    refine ⟨hsound, fun a ha => ?_, fun a ha => ?_, fun key => ?_⟩
    · rcases mem_snoc halerts ha with ha | rfl
      · exact hc.firing a ha
      · rfl
    · rcases mem_snoc halerts ha with ha | rfl
      · exact hevents.has (hc.announced a ha)
      · exact Table.has_iff.mpr ⟨alertEvent (env.ids 0) "alert_triggered" o,
          by simp [hnew], rfl⟩
    · rw [phaseOf_evaluate h, halerts]
      by_cases hk : o.key = key
      · rw [if_pos hk]
        refine iff_of_true ⟨alertRow env o level, by simp, hk⟩ (hactive.mpr (.inl ht))
      · rw [if_neg hk, ← hc.active key]
        constructor
        · rintro ⟨a, ha, hak⟩
          rcases mem_snoc rfl ha with ha | rfl
          · exact ⟨a, ha, hak⟩
          · exact absurd hak hk
        · rintro ⟨a, ha, hak⟩
          exact ⟨a, List.mem_append_left _ ha, hak⟩
  | false =>
    obtain ⟨f, hrows, hf⟩ := evaluate_keepsAlerts h ht hr
    refine ⟨hsound, fun a ha => ?_, fun a ha => ?_, fun key => ?_⟩
    · rw [hrows] at ha
      obtain ⟨b, hb, rfl⟩ := List.mem_map.mp ha
      rw [(hf b).2.2]
      exact hc.firing b hb
    · rw [hrows] at ha
      obtain ⟨b, hb, rfl⟩ := List.mem_map.mp ha
      rw [(hf b).1]
      exact hevents.has (hc.announced b hb)
    · have hsame : (∃ a ∈ db'.alerts.rows, a.dedupKey = key) ↔
          ∃ a ∈ db.alerts.rows, a.dedupKey = key := by
        simp only [hrows, List.mem_map, exists_exists_and_eq_and, (hf _).2.1]
      rw [hsame, hc.active key, phaseOf_evaluate h]
      by_cases hk : o.key = key
      · rw [if_pos hk, hactive, ht, hk]
        simp
      · rw [if_neg hk]

theorem consistent_empty : Consistent Database.empty where
  sound := ⟨fun _ hm => (nomatch hm), fun _ hd => (nomatch hd)⟩
  firing _ ha := nomatch ha
  announced _ ha := nomatch ha
  active key := by simp [Database.empty, phaseOf, loadState, Phase.Active]

theorem Consistent.of_step {op : Op} (hc : Consistent m.db) (hop : op.Enabled m) :
    Consistent (step sink m op).db := by
  cases op with
  | seedDefaults now =>
    exact Manager.attempt_keeps hc fun _ h => (seedDefaults_keeps h).sameAlerts.consistent hc
  | createRule rule now =>
    exact Manager.attempt_keeps hc fun _ h => (createRule_keeps h).sameAlerts.consistent hc
  | updateRule rule now =>
    exact Manager.attempt_keeps hc fun _ h => (updateRule_keeps h).sameAlerts.consistent hc
  | writeBatch batch =>
    cases h : Storage.writeBatch m batch with
    | error e => simpa [step, h] using hc
    | ok m' => simpa [step, h] using (writeBatch_sameAlerts h).consistent hc
  | evaluate env o => exact Manager.attempt_keeps hc fun _ h => hc.of_evaluate hop h

theorem consistent_of_reachable (h : (histories sink).Reachable m) :
    Consistent m.db := by
  refine h.invariant (fun m => Consistent m.db) consistent_empty ?_
  rintro m op m' hc ⟨hop, rfl⟩
  exact hc.of_step hop

/-! ## The stored lifecycle against `Advance` -/

/-- `evaluate` commits, and what it commits for the key is `Advance`'s answer:
the state row holds it, `Triggered` adds one alert, a firing alert of the key
turns resolved on `Resolved`, and no alert comes or goes otherwise. -/
def Refines (sink : Option Repository) (env : Ambient) (db : Database) (o : Observation) :
    Prop :=
  ∃ db', evaluate sink env db o = .ok db' ∧
    (∃ r, db'.alertEvaluationState.find? o.key = some r ∧
      r.phase = (o.answer db).state.phase ∧
      r.phaseSince = unix (o.answer db).state.since ∧
      r.lastNotifiedAt = (o.answer db).state.lastNotifiedAt.map unix ∧
      r.cooldownUntil = (o.answer db).state.cooldownUntil.map unix) ∧
    ((o.answer db).triggered = true → ∃ level, o.rule.severity.level = some level ∧
      db'.alerts.rows = db.alerts.rows ++ [alertRow env o level]) ∧
    ((o.answer db).triggered = false →
      db'.alerts.rows.map AlertRow.id = db.alerts.rows.map AlertRow.id) ∧
    ((o.answer db).resolved = true → ∃ a ∈ db.alerts.rows, ∃ b ∈ db'.alerts.rows,
      a.dedupKey = o.key ∧ a.status = .firing ∧ b.id = a.id ∧ b.status = .resolved)

theorem Consistent.refines (hc : Consistent db) (hfresh : Fresh env db)
    (hrule : db.alertRules.has o.rule.id = true) (hsev : o.rule.severity.level ≠ none)
    (hr : (o.answer db).resolved = false) : Refines sink env db o := by
  obtain ⟨db', h, -⟩ := evaluate_commits sink hfresh hc.sound
    (hc.not_refused hrule hsev hr)
  have hrow := evaluate_state h o.key
  rw [if_pos rfl] at hrow
  refine ⟨db', h, ⟨_, hrow, ?_⟩, fun ht => (evaluate_triggered h ht).1, fun ht => ?_, ?_⟩
  · cases db.alertEvaluationState.find? o.key <;> exact ⟨rfl, rfl, rfl, rfl⟩
  · obtain ⟨f, hrows, hf⟩ := evaluate_keepsAlerts h ht hr
    rw [hrows, List.map_map]
    exact List.map_congr_left fun a _ => (hf a).1
  · intro hr'
    rw [hr] at hr'
    cases hr'

/-- The stored lifecycle follows `Advance` exactly as long as it is not told to
resolve: a recovering key that has been observed recovered for the recovery
duration never gets back to healthy. -/
theorem evaluate_refines_advance_iff {sink : Option Repository} {m : Manager}
    (hm : (histories sink).Reachable m) {env : Ambient} (hfresh : Fresh env m.db)
    {o : Observation} (hrule : m.db.alertRules.has o.rule.id = true)
    (hsev : o.rule.severity.level ≠ none) :
    Refines sink env m.db o ↔
      ¬ ((loadState m.db o.key o.now).phase = .recovering ∧ o.failing = false ∧
        o.recovered = true ∧
        o.rule.recoveryDuration ≤ o.now - (loadState m.db o.key o.now).since) := by
  have hc := consistent_of_reachable hm
  constructor
  · rintro ⟨db', h, -⟩ hres
    exact evaluate_refused (hc.refused_of_resolved (advance_resolved_iff.mpr hres)) db' h
  · intro hres
    refine hc.refines hfresh hrule hsev (Bool.eq_false_iff.mpr fun h => hres ?_)
    exact advance_resolved_iff.mp h

/-! ### A resolution that is rolled back -/

/-- The seeded persistence rule as `Rules` reads it. -/
def persistenceRule : Rule :=
  { builtinRule "builtin-persistence-failure" familyPersistence "Persistence failure"
      .critical with
    recoveryDuration := minute, cooldown := 300 * second, repeatEvery := 7200 * second }

def persistenceAt (seconds : Int) (failing : Bool) : Observation :=
  { rule := persistenceRule, targetType := "server", target := "persistence", value := 0
    failing, recovered := !failing, now := seconds * second }

def observe (m : Manager) (o : Observation) : Manager :=
  step (some {}) m (.evaluate ⟨unusedIds m.db, o.now, .stored⟩ o)

def seeded : Manager := step (some {}) { db := Database.empty } (.seedDefaults 0)

def recovering : Manager :=
  observe (observe (observe seeded (persistenceAt 0 true)) (persistenceAt 10 true))
    (persistenceAt 20 false)

theorem reachable_seeded : (histories (some {})).Reachable seeded :=
  System.Reachable.init.next (a := .seedDefaults 0) ⟨trivial, rfl⟩

theorem reachable_observe (h : (histories (some {})).Reachable m)
    (o : Observation) : (histories (some {})).Reachable (observe m o) :=
  h.next (a := .evaluate _ o) ⟨fresh_unusedIds m.db o.now .stored, rfl⟩

theorem reachable_recovering : (histories (some {})).Reachable recovering :=
  reachable_observe (reachable_observe (reachable_observe reachable_seeded _) _) _

/-- On the seeded database the equivalence applies, and its condition holds. -/
theorem evaluate_refines_advance_seeded :
    Refines (some {}) ⟨unusedIds seeded.db, 0, .stored⟩ seeded.db (persistenceAt 0 true) :=
  (evaluate_refines_advance_iff reachable_seeded (fresh_unusedIds _ _ _)
    (by decide +kernel) (by decide)).mpr (by decide +kernel)

/-- At 90 s `Advance` resolves the alert raised at 10 s, and `evaluate` rolls
back: `alert-` and the alert's id is already the key of the trigger's event. -/
theorem resolution_rolled_back :
    (histories (some {})).Reachable recovering ∧
    ((persistenceAt 90 false).answer recovering.db).resolved = true ∧
    ¬ Refines (some {}) ⟨unusedIds recovering.db, 90 * second, .stored⟩ recovering.db
      (persistenceAt 90 false) := by
  refine ⟨reachable_recovering, by decide +kernel, ?_⟩
  rintro ⟨db', h, -⟩
  exact evaluate_refused (by decide +kernel) db' h

end Binnacle.Alerts
