import Binnacle.Alerts.State
import Binnacle.Notifications.Incidents

/-!
# One evaluation (`internal/alerts/evaluator.go`, `evaluate`)

`evaluate` is one transaction: it loads the state of the dedup key, advances
it, stores the answer and records the transition in `alerts`, `events` and the
incident tables. The first statement refused discards all of it.

- `evaluate_ok`: what a committed evaluation leaves;
- `evaluate_commits`: an evaluation that is not `Refused` commits.
-/

namespace Binnacle.Alerts

open Relational Storage Notifications

/-- The arguments of `evaluate`: a rule and what was observed of one target. -/
structure Observation where
  rule : Rule
  targetType : String
  target : String
  value : ℚ
  failing : Bool
  recovered : Bool
  now : Time

def Observation.key (o : Observation) : String := dedup o.rule.family o.target

/-- A stored state as `evaluate` scans it (evaluator.go:355-366). -/
def stateOf (r : EvaluationStateRow) : State where
  phase := r.phase
  since := ofUnix r.phaseSince
  lastNotifiedAt := r.lastNotifiedAt.map ofUnix
  cooldownUntil := r.cooldownUntil.map ofUnix

def loadState (db : Database) (key : String) (now : Time) : State :=
  match db.alertEvaluationState.find? key with
  | none => { phase := .healthy, since := now }
  | some r => stateOf r

/-- Whether a silence covers the rule on the target now (evaluator.go:412). -/
def silenced (db : Database) (rule : Rule) (target : String) (now : Time) : Bool :=
  db.silences.rows.any fun s => s.startsAt ≤ unix now && s.endsAt > unix now &&
    match s.scopeType with
    | .server => true
    | .resource => s.scopeId = target
    | .rule => s.scopeId = rule.id
    | .project => db.resources.rows.any fun r => r.id = target && r.projectName = some s.scopeId

/-- Whether a deployment grace period covers the target now (evaluator.go:420). -/
def inGrace (db : Database) (target : String) (now : Time) : Bool :=
  db.gracePeriods.rows.any fun g =>
    g.resourceId = target && g.startsAt ≤ unix now && g.endsAt > unix now

/-- `suppressedTx` (evaluator.go:410-423). -/
def suppressedTx (db : Database) (rule : Rule) (target : String) (now : Time) : Bool :=
  silenced db rule target now || (rule.suppressDuringDeployment && inGrace db target now)

/-- What `Advance` answers for the observation. -/
def Observation.answer (o : Observation) (db : Database) : Transition :=
  advance o.now (some (loadState db o.key o.now)) o.failing o.recovered
    (suppressedTx db o.rule o.target o.now) o.rule

theorem Observation.advances (o : Observation) (db : Database) :
    Advances o.now (loadState db o.key o.now) o.failing o.recovered
      (suppressedTx db o.rule o.target o.now) o.rule (o.answer db) := advance_cases ..

/-- The columns `evaluate` stores for the answer. -/
def stateRow (o : Observation) (state : State) : EvaluationStateRow where
  dedupKey := o.key
  ruleId := o.rule.id
  targetType := o.targetType
  targetId := o.target
  phase := state.phase
  phaseSince := unix state.since
  lastEvaluatedAt := unix o.now
  lastNotifiedAt := state.lastNotifiedAt.map unix
  cooldownUntil := state.cooldownUntil.map unix
  observedValue := o.value
  detailsObserved := o.value

/-- The `DO UPDATE SET` of `evaluate`: the target columns keep their values. -/
def mergeState (o : Observation) (state : State) (r : EvaluationStateRow) : EvaluationStateRow :=
  { stateRow o state with
    dedupKey := r.dedupKey
    targetType := r.targetType
    targetId := r.targetId }

def putState (db : Database) (o : Observation) (state : State) : Database :=
  { db with
    alertEvaluationState := db.alertEvaluationState.upsert (stateRow o state)
      (mergeState o state) (fun _ => rfl) }

@[simp] theorem putState_events (db : Database) (o : Observation) (state : State) :
    (putState db o state).events = db.events := rfl

/-- `INSERT INTO alert_evaluation_state … ON CONFLICT(dedup_key) DO UPDATE`
(evaluator.go:373). -/
def storeState (db : Database) (o : Observation) (state : State) : Except SqlError Database :=
  if db.alertRules.has o.rule.id then
    .ok (putState db o state)
  else
    .error (.foreignKey "alert_evaluation_state.rule_id")

/-- `nullableTarget` (evaluator.go:428-433). -/
def nullableTarget (v : String) : Option String :=
  if v = "server" ∨ v = "docker" then none else some v

def alertEvent (eventID eventType : String) (o : Observation) : EventRow where
  id := "alert-" ++ eventID
  ts := unixMilli o.now
  resourceId := nullableTarget o.target
  type := eventType
  severity := o.rule.severity.text
  summary := message o.rule o.target
  correlationKey := some o.key
  source := "alerts"
  createdAt := unixMilli o.now

/-- `insertEvent` (evaluator.go:424-427): a plain `INSERT`. -/
def insertEvent (db : Database) (eventID eventType : String) (o : Observation) :
    Except SqlError Database :=
  match db.events.insert (alertEvent eventID eventType o) with
  | none => .error (.unique "events.id")
  | some events => .ok { db with events }

/-- The row of a triggered alert; it draws `ids 0`. -/
def alertRow (env : Ambient) (o : Observation) (level : Level) : AlertRow where
  id := env.ids 0
  dedupKey := o.key
  ruleId := o.rule.id
  family := o.rule.family
  severity := level
  targetType := o.targetType
  targetId := o.target
  status := .firing
  startedAt := unix o.now
  resolvedAt := none
  lastObservedAt := unix o.now
  observedValue := o.value
  message := message o.rule o.target

/-- `INSERT INTO alerts` (evaluator.go:379), with the table's constraints. -/
def insertAlert (env : Ambient) (db : Database) (o : Observation) : Except SqlError Database :=
  match o.rule.severity.level with
  | none => .error (.check "alerts.severity")
  | some level =>
    if db.alerts.rows.any (fun a => a.dedupKey = o.key && a.startedAt = unix o.now) then
      .error (.unique "alerts.dedup_key,started_at")
    else if !db.alertRules.has o.rule.id then
      .error (.foreignKey "alerts.rule_id")
    else
      match db.alerts.insert (alertRow env o level) with
      | none => .error (.unique "alerts.id")
      | some alerts => .ok { db with alerts }

/-- The alert handed to the sink (evaluator.go:381). -/
def firedAlert (env : Ambient) (o : Observation) : Alert where
  id := env.ids 0
  dedupKey := o.key
  ruleId := o.rule.id
  family := o.rule.family
  severity := o.rule.severity
  targetType := o.targetType
  targetId := o.target
  startedAt := o.now
  lastObservedAt := o.now
  observedValue := some o.value
  message := message o.rule o.target

/-- `sink.AlertFiredTx` when a sink is set (evaluator.go:380-382). -/
def sinkFired (sink : Option Repository) (env : Ambient) (o : Observation) (db : Database) :
    Except SqlError Database :=
  match sink with
  | none => .ok db
  | some r => alertFiredTx r env db (firedAlert env o) o.now true

/-- The statements after a `Triggered` answer (evaluator.go:377-385). -/
def recordTriggered (sink : Option Repository) (env : Ambient) (o : Observation)
    (db : Database) : Except SqlError Database := do
  let db ← insertAlert env db o
  let db ← sinkFired sink env o db
  insertEvent db (env.ids 0) "alert_triggered" o

/-- The firing alert of a key, the youngest one
(`ORDER BY started_at DESC LIMIT 1`; `UNIQUE(dedup_key, started_at)` leaves no tie). -/
def firingAlert (db : Database) (key : String) : Option AlertRow :=
  ((db.alerts.rows.filter fun a => a.dedupKey = key && a.status = .firing).insertionSort
    fun a b => b.startedAt ≤ a.startedAt).head?

@[simp] theorem firingAlert_putState (db : Database) (o : Observation) (state : State)
    (key : String) : firingAlert (putState db o state) key = firingAlert db key := rfl

/-- `UPDATE alerts SET status='resolved',resolved_at=?,last_observed_at=? WHERE id=?`. -/
def resolveAlert (db : Database) (alertID : String) (now : Time) : Database :=
  { db with
    alerts := db.alerts.update (fun a => a.id = alertID)
      (fun a => { a with
        status := .resolved
        resolvedAt := some (unix now)
        lastObservedAt := unix now }) (fun _ => rfl) }

/-- `sink.AlertResolvedTx` when a sink is set (evaluator.go:395-397). -/
def sinkResolved (sink : Option Repository) (env : Ambient) (alertID : String) (now : Time)
    (db : Database) : Except SqlError Database :=
  match sink with
  | none => .ok db
  | some _ => alertResolvedTx env db alertID now

/-- The statements after a `Resolved` answer (evaluator.go:388-401). -/
def recordResolved (sink : Option Repository) (env : Ambient) (o : Observation)
    (db : Database) : Except SqlError Database :=
  match firingAlert db o.key with
  | none => .ok db
  | some a => do
    let db ← sinkResolved sink env a.id o.now (resolveAlert db a.id o.now)
    insertEvent db a.id "alert_resolved" o

/-- `UPDATE alerts SET last_observed_at=?,observed_value=? WHERE dedup_key=? AND
status='firing'` (evaluator.go:403). -/
def observeAlert (db : Database) (o : Observation) : Database :=
  { db with
    alerts := db.alerts.update (fun a => a.dedupKey = o.key && a.status = .firing)
      (fun a => { a with lastObservedAt := unix o.now, observedValue := o.value })
      (fun _ => rfl) }

/-- The statements after the state is stored; `phase` is the phase loaded. -/
def recordTransition (sink : Option Repository) (env : Ambient) (o : Observation)
    (phase : Phase) (tr : Transition) (db : Database) : Except SqlError Database :=
  if tr.triggered then
    recordTriggered sink env o db
  else if tr.repeated then
    insertEvent db (env.ids 0) "alert_repeated" o
  else if tr.resolved then
    recordResolved sink env o db
  else if phase = .firing ∨ phase = .recovering then
    .ok (observeAlert db o)
  else
    .ok db

/-- `evaluate` (evaluator.go:340-409). -/
def evaluate (sink : Option Repository) (env : Ambient) (db : Database) (o : Observation) :
    Except SqlError Database :=
  storeState db o (o.answer db).state >>=
    recordTransition sink env o (loadState db o.key o.now).phase (o.answer db)

/-! ## What a committed evaluation leaves -/

def RecordsOnly (db db' : Database) : Prop :=
  db' = { db with
    alerts := db'.alerts
    events := db'.events
    incidents := db'.incidents
    incidentAlerts := db'.incidentAlerts
    deliveries := db'.deliveries }

variable {db db' : Database} {o : Observation} {env : Ambient} {sink : Option Repository}

theorem storeState_ok {state : State} (h : storeState db o state = .ok db') :
    db.alertRules.has o.rule.id = true ∧ db' = putState db o state := by
  unfold storeState at h
  split_ifs at h with hr
  exact ⟨hr, (Except.ok.inj h).symm⟩

theorem insertEvent_ok {eventID eventType : String}
    (h : insertEvent db eventID eventType o = .ok db') :
    db.events.has ("alert-" ++ eventID) = false ∧
      db'.events.rows = db.events.rows ++ [alertEvent eventID eventType o] ∧
      db' = { db with events := db'.events } := by
  unfold insertEvent at h
  split at h
  · cases h
  · next hins =>
    cases h
    exact ⟨(Table.insert_eq_some hins).1, (Table.insert_eq_some hins).2, rfl⟩

theorem insertAlert_ok (h : insertAlert env db o = .ok db') :
    ∃ level, o.rule.severity.level = some level ∧
      db.alerts.rows.any (fun a => a.dedupKey = o.key && a.startedAt = unix o.now) = false ∧
      db'.alerts.rows = db.alerts.rows ++ [alertRow env o level] ∧
      db' = { db with alerts := db'.alerts } := by
  unfold insertAlert at h
  split at h
  · cases h
  · next level hlevel =>
    split at h
    · cases h
    · next hdup =>
      split_ifs at h
      split at h
      · cases h
      · next hins =>
        cases h
        exact ⟨level, hlevel, Bool.eq_false_iff.mpr hdup, (Table.insert_eq_some hins).2, rfl⟩

theorem sinkFired_frame (h : sinkFired sink env o db = .ok db') : IncidentsOnly db db' := by
  cases sink with
  | none => cases h; rfl
  | some r => exact alertFiredTx_frame h

theorem sinkResolved_frame {alertID : String} {now : Time}
    (h : sinkResolved sink env alertID now db = .ok db') : IncidentsOnly db db' := by
  cases sink with
  | none => cases h; rfl
  | some r => exact alertResolvedTx_frame h

theorem recordTriggered_ok (h : recordTriggered sink env o db = .ok db') :
    (∃ level, o.rule.severity.level = some level ∧
      db'.alerts.rows = db.alerts.rows ++ [alertRow env o level]) ∧
    db'.events.rows = db.events.rows ++ [alertEvent (env.ids 0) "alert_triggered" o] ∧
    RecordsOnly db db' := by
  obtain ⟨db₁, h₁, h⟩ := bind_ok.mp h
  obtain ⟨db₂, h₂, h₃⟩ := bind_ok.mp h
  obtain ⟨level, hlevel, -, halerts, hf₁⟩ := insertAlert_ok h₁
  have hf₂ := sinkFired_frame h₂
  obtain ⟨-, hevents, hf₃⟩ := insertEvent_ok h₃
  refine ⟨⟨level, hlevel, ?_⟩, ?_, ?_⟩
  · rw [hf₃, hf₂]
    exact halerts
  · rw [hevents, hf₂, hf₁]
  · unfold RecordsOnly
    rw [hf₃, hf₂, hf₁]

theorem recordResolved_ok (h : recordResolved sink env o db = .ok db') :
    (firingAlert db o.key = none ∧ db' = db) ∨
    ∃ a, firingAlert db o.key = some a ∧ db.events.has ("alert-" ++ a.id) = false ∧
      db'.alerts = (resolveAlert db a.id o.now).alerts ∧
      db'.events.rows = db.events.rows ++ [alertEvent a.id "alert_resolved" o] ∧
      RecordsOnly db db' := by
  unfold recordResolved at h
  split at h
  · next hnone =>
    cases h
    exact .inl ⟨hnone, rfl⟩
  · next a hsome =>
    obtain ⟨db₂, h₂, h₃⟩ := bind_ok.mp h
    have hf₂ := sinkResolved_frame h₂
    obtain ⟨hfree, hevents, hf₃⟩ := insertEvent_ok h₃
    refine .inr ⟨a, hsome, ?_, ?_, ?_, ?_⟩
    · rw [hf₂] at hfree
      exact hfree
    · rw [hf₃, hf₂]
    · rw [hevents, hf₂]
      rfl
    · unfold RecordsOnly
      rw [hf₃, hf₂]
      rfl

def AddsAlertEvents (o : Observation) (db db' : Database) : Prop :=
  db'.events.rows = db.events.rows ∨
  ∃ eventID, ∃ eventType ∈ ["alert_triggered", "alert_repeated", "alert_resolved"],
    db'.events.rows = db.events.rows ++ [alertEvent eventID eventType o]

theorem recordTransition_ok {phase : Phase} {tr : Transition}
    (h : recordTransition sink env o phase tr db = .ok db') :
    RecordsOnly db db' ∧ AddsAlertEvents o db db' := by
  unfold recordTransition at h
  split at h
  · obtain ⟨-, hevents, hframe⟩ := recordTriggered_ok h
    exact ⟨hframe, .inr ⟨_, _, by simp, hevents⟩⟩
  · split at h
    · obtain ⟨-, hevents, hframe⟩ := insertEvent_ok h
      refine ⟨?_, .inr ⟨_, _, by simp, hevents⟩⟩
      unfold RecordsOnly
      rw [hframe]
    · split at h
      · rcases recordResolved_ok h with ⟨-, rfl⟩ | ⟨a, -, -, -, hevents, hframe⟩
        · exact ⟨rfl, .inl rfl⟩
        · exact ⟨hframe, .inr ⟨_, _, by simp, hevents⟩⟩
      · split at h
        · cases h
          exact ⟨rfl, .inl rfl⟩
        · cases h
          exact ⟨rfl, .inl rfl⟩

def KeepsAlerts (db db' : Database) : Prop :=
  ∃ f : AlertRow → AlertRow, db'.alerts.rows = db.alerts.rows.map f ∧
    ∀ a, (f a).id = a.id ∧ (f a).dedupKey = a.dedupKey ∧ (f a).status = a.status

theorem KeepsAlerts.of_eq (h : db'.alerts = db.alerts) : KeepsAlerts db db' :=
  ⟨id, by rw [h, List.map_id], fun _ => ⟨rfl, rfl, rfl⟩⟩

theorem recordTransition_keepsAlerts {phase : Phase} {tr : Transition}
    (h : recordTransition sink env o phase tr db = .ok db') (ht : tr.triggered = false)
    (hr : tr.resolved = false) : KeepsAlerts db db' := by
  rw [recordTransition, if_neg (by simp [ht])] at h
  split at h
  · refine KeepsAlerts.of_eq ?_
    rw [(insertEvent_ok h).2.2]
  · rw [if_neg (by simp [hr])] at h
    split at h
    · cases h
      refine ⟨_, rfl, fun a => ?_⟩
      split <;> exact ⟨rfl, rfl, rfl⟩
    · cases h
      exact KeepsAlerts.of_eq rfl

theorem evaluate_ok (h : evaluate sink env db o = .ok db') :
    ∃ mid, storeState db o (o.answer db).state = .ok mid ∧
      recordTransition sink env o (loadState db o.key o.now).phase (o.answer db) mid = .ok db' :=
  bind_ok.mp h

/-- Two databases that differ in what `evaluate` writes only. -/
def EvaluationOnly (db db' : Database) : Prop :=
  db' = { db with
    alertEvaluationState := db'.alertEvaluationState
    alerts := db'.alerts
    events := db'.events
    incidents := db'.incidents
    incidentAlerts := db'.incidentAlerts
    deliveries := db'.deliveries }

theorem evaluate_frame (h : evaluate sink env db o = .ok db') : EvaluationOnly db db' := by
  obtain ⟨mid, h₁, h₂⟩ := evaluate_ok h
  unfold EvaluationOnly
  rw [(recordTransition_ok h₂).1, (storeState_ok h₁).2]
  rfl

theorem evaluate_events (h : evaluate sink env db o = .ok db') : AddsAlertEvents o db db' := by
  obtain ⟨mid, h₁, h₂⟩ := evaluate_ok h
  have hevents := (recordTransition_ok h₂).2
  rw [(storeState_ok h₁).2] at hevents
  exact hevents

theorem evaluate_state (h : evaluate sink env db o = .ok db') (k : String) :
    db'.alertEvaluationState.find? k = if o.key = k then
        some (((db.alertEvaluationState.find? k).map (mergeState o (o.answer db).state)).getD
          (stateRow o (o.answer db).state))
      else db.alertEvaluationState.find? k := by
  obtain ⟨mid, h₁, h₂⟩ := evaluate_ok h
  rw [(recordTransition_ok h₂).1, (storeState_ok h₁).2]
  exact Table.find?_upsert _ _ _ _ _

/-- A state as it comes back from the database: instants lose their fraction
of a second. -/
def State.stored (s : State) : State where
  phase := s.phase
  since := ofUnix (unix s.since)
  lastNotifiedAt := s.lastNotifiedAt.map fun t => ofUnix (unix t)
  cooldownUntil := s.cooldownUntil.map fun t => ofUnix (unix t)

theorem stateOf_row (o : Observation) (s : State) (r : Option EvaluationStateRow) :
    stateOf ((r.map (mergeState o s)).getD (stateRow o s)) = s.stored := by
  cases r <;> simp [stateOf, mergeState, stateRow, State.stored, Function.comp_def]

/-- The next evaluation of the key starts from the stored answer; other keys
keep their states. -/
theorem loadState_evaluate (h : evaluate sink env db o = .ok db') (k : String) (t : Time) :
    loadState db' k t = if o.key = k then (o.answer db).state.stored else loadState db k t := by
  unfold loadState
  rw [evaluate_state h k]
  by_cases hk : o.key = k
  · rw [if_pos hk, if_pos hk]
    exact stateOf_row _ _ _
  · rw [if_neg hk, if_neg hk]

theorem evaluate_triggered (h : evaluate sink env db o = .ok db')
    (ht : (o.answer db).triggered = true) :
    (∃ level, o.rule.severity.level = some level ∧
      db'.alerts.rows = db.alerts.rows ++ [alertRow env o level]) ∧
    db'.events.rows = db.events.rows ++ [alertEvent (env.ids 0) "alert_triggered" o] := by
  obtain ⟨mid, h₁, h₂⟩ := evaluate_ok h
  rw [recordTransition, if_pos ht, (storeState_ok h₁).2] at h₂
  obtain ⟨halerts, hevents, -⟩ := recordTriggered_ok h₂
  exact ⟨halerts, hevents⟩

theorem evaluate_keepsAlerts (h : evaluate sink env db o = .ok db')
    (ht : (o.answer db).triggered = false) (hr : (o.answer db).resolved = false) :
    KeepsAlerts db db' := by
  obtain ⟨mid, h₁, h₂⟩ := evaluate_ok h
  rw [(storeState_ok h₁).2] at h₂
  obtain ⟨f, hrows, hf⟩ := recordTransition_keepsAlerts h₂ ht hr
  exact ⟨f, hrows, hf⟩

theorem AddsAlertEvents.has (h : AddsAlertEvents o db db') {id : String}
    (hid : db.events.has id = true) : db'.events.has id = true := by
  obtain ⟨r, hr, hk⟩ := Table.has_iff.mp hid
  refine Table.has_iff.mpr ⟨r, ?_, hk⟩
  rcases h with h | ⟨_, _, _, h⟩
  · rw [h]
    exact hr
  · rw [h]
    exact List.mem_append_left _ hr

theorem AddsAlertEvents.mem_old (h : AddsAlertEvents o db db') {types : List String}
    (hnone : ∀ t ∈ ["alert_triggered", "alert_repeated", "alert_resolved"], t ∉ types)
    {e : EventRow}
    (he : e ∈ db'.events.rows) (htype : e.type ∈ types) : e ∈ db.events.rows := by
  rcases h with h | ⟨eventID, eventType, hkind, h⟩
  · rw [← h]
    exact he
  · rcases mem_snoc h he with he | rfl
    · exact he
    · exact absurd htype (hnone eventType hkind)

theorem firingAlert_of_mem {a : AlertRow} (ha : a ∈ db.alerts.rows) (hs : a.status = .firing) :
    ∃ b ∈ db.alerts.rows, b.dedupKey = a.dedupKey ∧ firingAlert db a.dedupKey = some b := by
  cases hf : firingAlert db a.dedupKey with
  | none =>
    have hmem : a ∈ (db.alerts.rows.filter fun b => b.dedupKey = a.dedupKey
        && b.status = .firing).insertionSort fun a b => b.startedAt ≤ a.startedAt :=
      (List.perm_insertionSort _ _).mem_iff.mpr (by simp [ha, hs])
    rw [List.head?_eq_none_iff.mp hf] at hmem
    cases hmem
  | some b =>
    have hb := List.mem_of_mem_head? hf
    rw [(List.perm_insertionSort _ _).mem_iff, List.mem_filter, Bool.and_eq_true,
      decide_eq_true_eq] at hb
    exact ⟨b, hb.1, hb.2.1, rfl⟩

/-! ## When an evaluation commits -/

/-- Whether a constraint stands in the way of the observation's answer: the
rule is not stored, the alert to raise violates a constraint of `alerts`, or
the alert to resolve already has its event. -/
def refused (db : Database) (o : Observation) : Bool :=
  !db.alertRules.has o.rule.id
  || ((o.answer db).triggered && (o.rule.severity.level = none
    || db.alerts.rows.any fun a => a.dedupKey = o.key && a.startedAt = unix o.now))
  || ((o.answer db).resolved
    && (firingAlert db o.key).any fun a => db.events.has ("alert-" ++ a.id))

/-- What the incident tables keep at all times. -/
structure Sound (db : Database) : Prop where
  linked : Linked db
  named : DeliveriesNamed db

theorem evaluate_refused (h : refused db o = true) : ∀ db', evaluate sink env db o ≠ .ok db' := by
  intro db' hok
  obtain ⟨mid, h₁, h₂⟩ := evaluate_ok hok
  obtain ⟨hrule, hmid⟩ := storeState_ok h₁
  simp only [refused, Bool.or_eq_true, Bool.and_eq_true, Bool.not_eq_true', hrule,
    Bool.true_eq_false, false_or, decide_eq_true_eq] at h
  rcases h with ⟨htr, hbad⟩ | ⟨hres, hbad⟩
  · rw [recordTransition, if_pos htr, hmid] at h₂
    obtain ⟨db₁, h₁, -⟩ := bind_ok.mp h₂
    obtain ⟨level, hlevel, hfree, -⟩ := insertAlert_ok h₁
    rcases hbad with hsev | hdup
    · rw [hlevel] at hsev
      cases hsev
    · exact Bool.false_ne_true (hfree.symm.trans hdup)
  · obtain ⟨hnt, hnr⟩ := (o.advances db).resolved_only hres
    rw [recordTransition, if_neg (by simp [hnt]), if_neg (by simp [hnr]), if_pos hres, hmid] at h₂
    rcases recordResolved_ok h₂ with ⟨hnone, -⟩ | ⟨a, ha, hfree, -⟩
    · rw [firingAlert_putState] at hnone
      simp [hnone] at hbad
    · rw [firingAlert_putState] at ha
      rw [ha, Option.any_some] at hbad
      exact Bool.false_ne_true (hfree.symm.trans hbad)

theorem insertEvent_of_free {eventID : String} (eventType : String) (o : Observation)
    (hfree : db.events.has ("alert-" ++ eventID) = false) :
    ∃ events, insertEvent db eventID eventType o = .ok { db with events } := by
  have hrow : db.events.has (alertEvent eventID eventType o).id = false := hfree
  refine ⟨db.events.push (alertEvent eventID eventType o) hrow, ?_⟩
  rw [insertEvent, Table.insert_of_free hrow]

theorem insertAlert_of_free {level : Level} (hlevel : o.rule.severity.level = some level)
    (hdup : db.alerts.rows.any (fun a => a.dedupKey = o.key && a.startedAt = unix o.now) = false)
    (hrule : db.alertRules.has o.rule.id = true) (hid : db.alerts.has (env.ids 0) = false) :
    ∃ alerts, insertAlert env db o = .ok { db with alerts } ∧
      alerts.has (env.ids 0) = true := by
  have hrow : db.alerts.has (alertRow env o level).id = false := hid
  refine ⟨db.alerts.push (alertRow env o level) hrow, ?_, ?_⟩
  · simp only [insertAlert, hlevel, hdup, hrule, Table.insert_of_free hrow]
    rfl
  · exact Table.has_iff.mpr ⟨alertRow env o level, by simp, rfl⟩

theorem sinkFired_ok (sink : Option Repository) {alerts : Table AlertRow.id} {level : Level}
    (hfresh : Fresh env db) (hsound : Sound db) (hlevel : o.rule.severity.level = some level)
    (hstored : alerts.has (env.ids 0) = true) :
    ∃ db', sinkFired sink env o { db with alerts } = .ok db' ∧ Sound db' := by
  cases sink with
  | none => exact ⟨_, rfl, hsound.linked, hsound.named⟩
  | some r =>
    obtain ⟨db', h, hnamed⟩ :=
      alertFiredTx_ok (a := firedAlert env o) r o.now true hfresh.distinct hlevel
      (show ({ db with alerts } : Database).alerts.has _ = true from hstored)
      (hfresh.memberships 0) (hfresh.incidents 1) hsound.named
      (fun n d hd => ⟨hfresh.deliveries n d hd, hfresh.keys (n + 1) d hd⟩)
    exact ⟨db', h, alertFiredTx_linked h hsound.linked, hnamed⟩

theorem recordTriggered_commits {level : Level} (hfresh : Fresh env db) (hsound : Sound db)
    (hrule : db.alertRules.has o.rule.id = true) (hlevel : o.rule.severity.level = some level)
    (hdup : db.alerts.rows.any (fun a => a.dedupKey = o.key && a.startedAt = unix o.now) = false) :
    ∃ db', recordTriggered sink env o db = .ok db' ∧ Sound db' := by
  obtain ⟨alerts, h₁, hstored⟩ := insertAlert_of_free hlevel hdup hrule (hfresh.alerts 0)
  obtain ⟨db₂, h₂, hsound₂⟩ := sinkFired_ok (o := o) sink hfresh hsound hlevel hstored
  have hevent : db₂.events.has ("alert-" ++ env.ids 0) = false := by
    rw [sinkFired_frame h₂]
    exact hfresh.events 0
  obtain ⟨events, h₃⟩ := insertEvent_of_free "alert_triggered" o hevent
  exact ⟨_, bind_ok.mpr ⟨_, h₁, bind_ok.mpr ⟨_, h₂, h₃⟩⟩, hsound₂.linked, hsound₂.named⟩

theorem sinkResolved_ok (sink : Option Repository) (alertID : String) (now : Time)
    (hfresh : Fresh env db) (hsound : Sound db) :
    ∃ db', sinkResolved sink env alertID now (resolveAlert db alertID now) = .ok db' ∧
      Sound db' := by
  cases sink with
  | none => exact ⟨_, rfl, hsound.linked, hsound.named⟩
  | some r =>
    obtain ⟨db', h, hnamed⟩ := alertResolvedTx_ok alertID now hfresh.distinct
      (show Linked (resolveAlert db alertID now) from hsound.linked) hsound.named
      (fun n d hd => ⟨hfresh.deliveries n d hd, hfresh.keys (n + 1) d hd⟩)
    exact ⟨db', h, alertResolvedTx_linked h hsound.linked, hnamed⟩

theorem recordResolved_commits (hfresh : Fresh env db) (hsound : Sound db)
    (hevent : ∀ a, firingAlert db o.key = some a → db.events.has ("alert-" ++ a.id) = false) :
    ∃ db', recordResolved sink env o db = .ok db' ∧ Sound db' := by
  unfold recordResolved
  cases ha : firingAlert db o.key with
  | none => exact ⟨db, rfl, hsound⟩
  | some a =>
    obtain ⟨db₂, h₂, hsound₂⟩ := sinkResolved_ok sink a.id o.now hfresh hsound
    have hfree : db₂.events.has ("alert-" ++ a.id) = false := by
      rw [sinkResolved_frame h₂]
      exact hevent a ha
    obtain ⟨events, h₃⟩ := insertEvent_of_free "alert_resolved" o hfree
    exact ⟨_, bind_ok.mpr ⟨_, h₂, h₃⟩, hsound₂.linked, hsound₂.named⟩

theorem evaluate_commits (sink : Option Repository) (hfresh : Fresh env db) (hsound : Sound db)
    (h : refused db o = false) : ∃ db', evaluate sink env db o = .ok db' ∧ Sound db' := by
  simp only [refused, Bool.or_eq_false_iff, Bool.not_eq_false', Bool.and_eq_false_imp] at h
  obtain ⟨⟨hrule, htr⟩, hres⟩ := h
  have hstore : storeState db o (o.answer db).state = .ok (putState db o (o.answer db).state) := by
    rw [storeState, if_pos hrule]
  have hfresh' : Fresh env (putState db o (o.answer db).state) := ⟨hfresh.distinct, hfresh.alerts,
    hfresh.events, hfresh.incidents, hfresh.memberships, hfresh.deliveries, hfresh.keys⟩
  have hsound' : Sound (putState db o (o.answer db).state) := ⟨hsound.linked, hsound.named⟩
  suffices ∃ db', recordTransition sink env o (loadState db o.key o.now).phase (o.answer db)
      (putState db o (o.answer db).state) = .ok db' ∧ Sound db' by
    obtain ⟨db', h, hs⟩ := this
    exact ⟨db', bind_ok.mpr ⟨_, hstore, h⟩, hs⟩
  unfold recordTransition
  split
  · next ht =>
    obtain ⟨hsev, hdup⟩ := htr ht
    cases hlevel : o.rule.severity.level with
    | none => simp [hlevel] at hsev
    | some level => exact recordTriggered_commits hfresh' hsound' hrule hlevel hdup
  · split
    · obtain ⟨events, h⟩ := insertEvent_of_free "alert_repeated" o (hfresh'.events 0)
      exact ⟨_, h, hsound'.linked, hsound'.named⟩
    · split
      · next hr =>
        refine recordResolved_commits hfresh' hsound' fun a ha => ?_
        rw [firingAlert_putState] at ha
        simpa [ha] using hres hr
      · split
        · exact ⟨_, rfl, hsound'.linked, hsound'.named⟩
        · exact ⟨_, rfl, hsound'⟩

end Binnacle.Alerts
