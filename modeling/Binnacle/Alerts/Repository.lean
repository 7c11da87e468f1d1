import Binnacle.Storage.Schema
import Binnacle.Relational.Statement

/-!
# Alert rules in the database (`internal/alerts/repository.go`)

`seedDefaults`, `rules`, `createRule`, `updateRule` and `cleanup`.

- `rules_mem_iff`: `Rules` reads every stored rule back;
- `seedDefaults_keeps`, `createRule_keeps`, `updateRule_keeps`: the rule
  operations touch `alert_rules` only, forget no rule and keep its family.
-/

namespace Binnacle.Alerts

open Relational Storage

/-- Why a rule operation is refused: its own validation, or the database. -/
inductive RuleError where
  | invalid (message : String)
  | sql (error : SqlError)

/-- The scopes `CHECK(scope_type IN (…))` admits. -/
def scopeTypes : List String := ["global", "host", "filesystem", "project", "resource", "check"]

/-- `int(d / time.Second)`: Go's division rounds towards zero. -/
def wholeSeconds (d : Duration) : Int := d.tdiv second

/-- The columns `SeedDefaults` and `CreateRule` bind for a rule. -/
def ruleRow (v : Rule) (level : Level) (builtIn : Bool) (cooldownSeconds repeatSeconds now : Int) :
    AlertRuleRow where
  id := v.id
  family := v.family
  name := v.name
  builtIn
  enabled := v.enabled
  severity := level
  scopeType := v.scopeType
  scopeId := v.scopeId
  threshold := v.threshold
  recoveryThreshold := v.recoveryThreshold
  triggerSeconds := wholeSeconds v.triggerDuration
  recoverySeconds := wholeSeconds v.recoveryDuration
  windowSeconds := wholeSeconds v.window
  cooldownSeconds
  repeatSeconds
  suppressDuringDeployment := v.suppressDuringDeployment
  createdAt := now
  updatedAt := now

/-- `INSERT INTO alert_rules`, with the table's constraints. -/
def insertRule (db : Database) (v : Rule) (builtIn : Bool)
    (cooldownSeconds repeatSeconds now : Int) : Except SqlError Database :=
  match v.severity.level with
  | none => .error (.check "alert_rules.severity")
  | some level =>
    if v.scopeType ∉ scopeTypes then
      .error (.check "alert_rules.scope_type")
    else if db.alertRules.rows.any (fun r =>
        r.family = v.family && r.scopeType = v.scopeType && r.scopeId = v.scopeId) then
      .error (.unique "alert_rules.family,scope_type,scope_id")
    else
      match db.alertRules.insert
          (ruleRow v level builtIn cooldownSeconds repeatSeconds now) with
      | none => .error (.unique "alert_rules.id")
      | some alertRules => .ok { db with alertRules }

/-- One statement of `SeedDefaults`: `ON CONFLICT(id) DO NOTHING`. -/
def seedRule (now : Int) (db : Database) (v : Rule) : Except SqlError Database :=
  if db.alertRules.has v.id then .ok db else insertRule db v v.builtIn 300 7200 now

/-- `SeedDefaults` (repository.go:23-40): one transaction. -/
def seedDefaults (db : Database) (now : Time) : Except SqlError Database :=
  defaultRules.foldlM (seedRule (unix now)) db

/-- A stored rule as `Rules` scans it (repository.go:49-66). -/
def ruleOf (r : AlertRuleRow) : Rule where
  id := r.id
  family := r.family
  name := r.name
  builtIn := r.builtIn
  enabled := r.enabled
  severity := r.severity.severity
  scopeType := r.scopeType
  scopeId := r.scopeId
  threshold := r.threshold
  recoveryThreshold := r.recoveryThreshold
  triggerDuration := r.triggerSeconds * second
  recoveryDuration := r.recoverySeconds * second
  window := r.windowSeconds * second
  cooldown := r.cooldownSeconds * second
  repeatEvery := r.repeatSeconds * second
  suppressDuringDeployment := r.suppressDuringDeployment

/-- `ORDER BY built_in DESC,name`. -/
def ruleBefore (a b : AlertRuleRow) : Bool :=
  if a.builtIn = b.builtIn then a.name ≤ b.name else a.builtIn

/-- `Rules` (repository.go:41-69). -/
def rules (order : RowOrder) (db : Database) : List Rule :=
  ((order.arrange db.alertRules.rows).insertionSort (fun a b => ruleBefore a b)).map ruleOf

variable {db db' : Database} {v : Rule} {cooldownSeconds repeatSeconds : Int} {now : Time}

theorem rules_mem_iff {order : RowOrder} :
    v ∈ rules order db ↔ ∃ r ∈ db.alertRules.rows, ruleOf r = v := by
  simp [rules, (List.perm_insertionSort _ _).mem_iff]

/-- `UpdateRule` (repository.go:158-174). -/
def updateRule (db : Database) (v : Rule) (now : Time) : Except RuleError Database :=
  match v.severity.level with
  | none => .error (.invalid "invalid severity")
  | some level =>
    if v.triggerDuration < 0 || v.recoveryDuration < 0 || v.repeatEvery < 0 || v.cooldown < 0 then
      .error (.invalid "invalid duration")
    else if db.alertRules.has v.id then
      .ok { db with
        alertRules := db.alertRules.update (fun r => r.id = v.id)
          (fun r => { r with
            enabled := v.enabled
            severity := level
            threshold := v.threshold
            recoveryThreshold := v.recoveryThreshold
            triggerSeconds := wholeSeconds v.triggerDuration
            recoverySeconds := wholeSeconds v.recoveryDuration
            windowSeconds := wholeSeconds v.window
            cooldownSeconds := wholeSeconds v.cooldown
            repeatSeconds := wholeSeconds v.repeatEvery
            suppressDuringDeployment := v.suppressDuringDeployment
            updatedAt := unix now }) (fun _ => rfl) }
    else
      .error (.sql .noRows)

/-- `CreateRule` (repository.go:175-190). -/
def createRule (db : Database) (v : Rule) (now : Time) : Except RuleError Database :=
  if v.id = "" || v.family = "" || v.name = "" || v.scopeType = "global" || v.scopeId = "" then
    .error (.invalid "invalid scoped rule")
  else if v.severity.level = none then
    .error (.invalid "invalid severity")
  else if v.scopeType ∉ ["host", "filesystem", "project", "resource", "check"] then
    .error (.invalid "invalid scope")
  else
    (insertRule db v false (wholeSeconds v.cooldown) (wholeSeconds v.repeatEvery)
      (unix now)).mapError .sql

/-- `Cleanup` (repository.go:191-207); deleting an alert deletes its incident
memberships (`ON DELETE CASCADE`). -/
def cleanup (db : Database) (now : Time) : Database :=
  let stale (a : AlertRow) : Bool := a.status = .resolved &&
    a.resolvedAt.any (fun at_ => at_ < unix (now - 365 * 24 * hour))
  { db with
    alerts := db.alerts.delete stale
    incidentAlerts := db.incidentAlerts.delete fun m =>
      db.alerts.rows.any fun a => stale a && a.id = m.alertId
    silences := db.silences.delete fun s => s.endsAt < unix (now - 90 * 24 * hour)
    gracePeriods := db.gracePeriods.delete fun g => g.endsAt < unix now }

/-! ## Frames -/

/-- Two databases that differ in `alert_rules` only, and every stored rule
stays stored. -/
structure RulesOnly (db db' : Database) : Prop where
  frame : db' = { db with alertRules := db'.alertRules }
  keeps : ∀ id, db.alertRules.has id = true → db'.alertRules.has id = true

def KeepsFamilies (db db' : Database) : Prop :=
  ∀ r ∈ db.alertRules.rows, ∃ r' ∈ db'.alertRules.rows, r'.id = r.id ∧ r'.family = r.family

structure RulesKept (db db' : Database) : Prop extends RulesOnly db db' where
  families : KeepsFamilies db db'

theorem KeepsFamilies.kept (h : KeepsFamilies db db')
    (hframe : db' = { db with alertRules := db'.alertRules }) : RulesKept db db' := by
  refine ⟨⟨hframe, fun id hid => ?_⟩, h⟩
  obtain ⟨r, hr, hk⟩ := Table.has_iff.mp hid
  obtain ⟨r', hr', hid', -⟩ := h r hr
  exact Table.has_iff.mpr ⟨r', hr', hid'.trans hk⟩

theorem RulesKept.refl (db : Database) : RulesKept db db :=
  KeepsFamilies.kept (fun r hr => ⟨r, hr, rfl, rfl⟩) rfl

theorem RulesKept.trans {a b c : Database} (hab : RulesKept a b) (hbc : RulesKept b c) :
    RulesKept a c := by
  refine KeepsFamilies.kept (fun r hr => ?_) (by rw [hbc.frame, hab.frame])
  obtain ⟨r', hr', hid, hfamily⟩ := hab.families r hr
  obtain ⟨r'', hr'', hid', hfamily'⟩ := hbc.families r' hr'
  exact ⟨r'', hr'', hid'.trans hid, hfamily'.trans hfamily⟩

section Inserted

variable {builtIn : Bool} {now : Int}
  (h : insertRule db v builtIn cooldownSeconds repeatSeconds now = .ok db')

include h

/-- What an accepted `INSERT` leaves: one more rule, of a family and scope of its own. -/
theorem insertRule_row :
    (∀ r ∈ db.alertRules.rows,
      ¬ (r.family = v.family ∧ r.scopeType = v.scopeType ∧ r.scopeId = v.scopeId)) ∧
    ∃ level, db'.alertRules.rows =
        db.alertRules.rows ++ [ruleRow v level builtIn cooldownSeconds repeatSeconds now] ∧
      db' = { db with alertRules := db'.alertRules } := by
  unfold insertRule at h
  split at h
  · cases h
  · next level _ =>
    split at h
    · cases h
    · split at h
      · cases h
      · next hfree =>
        split at h
        · cases h
        · next hins =>
          cases h
          refine ⟨fun r hr hsame => hfree ?_, level, (Table.insert_eq_some hins).2, rfl⟩
          exact List.any_eq_true.mpr ⟨r, hr, by simp [hsame]⟩

theorem insertRule_keeps : RulesKept db db' := by
  obtain ⟨-, level, hrows, hframe⟩ := insertRule_row h
  refine KeepsFamilies.kept (fun r hr => ⟨r, ?_, rfl, rfl⟩) hframe
  rw [hrows]
  exact List.mem_append_left _ hr

end Inserted

theorem createRule_ok (h : createRule db v now = .ok db') :
    insertRule db v false (wholeSeconds v.cooldown) (wholeSeconds v.repeatEvery) (unix now)
      = .ok db' := by
  unfold createRule at h
  split_ifs at h
  cases hins : insertRule db v false (wholeSeconds v.cooldown)
      (wholeSeconds v.repeatEvery) (unix now) with
  | error e => rw [hins] at h; cases h
  | ok db₁ =>
    rw [hins] at h
    cases h
    rfl

theorem seedDefaults_keeps (h : seedDefaults db now = .ok db') : RulesKept db db' := by
  refine foldlM_ok_rel RulesKept.refl RulesKept.trans (fun v s s' hs => ?_) h
  unfold seedRule at hs
  split at hs
  · cases hs
    exact RulesKept.refl s
  · exact insertRule_keeps hs

theorem createRule_keeps (h : createRule db v now = .ok db') : RulesKept db db' :=
  insertRule_keeps (createRule_ok h)

theorem updateRule_rows (h : updateRule db v now = .ok db') :
    ∃ f : AlertRuleRow → AlertRuleRow, db'.alertRules.rows = db.alertRules.rows.map f ∧
      db' = { db with alertRules := db'.alertRules } ∧
        ∀ r, (f r).id = r.id ∧ (f r).family = r.family ∧ (f r).scopeType = r.scopeType ∧
          (f r).scopeId = r.scopeId := by
  unfold updateRule at h
  split at h
  · cases h
  · split at h
    · cases h
    · split at h
      · cases h
        refine ⟨_, rfl, rfl, fun r => ?_⟩
        split <;> exact ⟨rfl, rfl, rfl, rfl⟩
      · cases h

theorem updateRule_keeps (h : updateRule db v now = .ok db') : RulesKept db db' := by
  obtain ⟨f, hrows, hframe, hf⟩ := updateRule_rows h
  refine KeepsFamilies.kept (fun r hr => ⟨f r, ?_, (hf r).1, (hf r).2.1⟩) hframe
  rw [hrows]
  exact List.mem_map_of_mem hr

end Binnacle.Alerts
