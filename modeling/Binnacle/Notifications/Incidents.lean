import Binnacle.Relational.Statement
import Binnacle.Storage.Schema
import Mathlib.Algebra.Order.BigOperators.Group.List
import Mathlib.Algebra.Order.Group.Nat

/-!
# Incidents inside the alert transaction (`internal/notifications/repository.go`)

The incident sink of the evaluator: `alertFiredTx` opens or extends an
incident, `alertResolvedTx` closes it with its last firing alert, and both
queue deliveries for the channels concerned. They run inside the evaluator's
transaction, so an error here discards the alert transition too.

- `alertFiredTx_ok`, `alertResolvedTx_ok`: with fresh ids, a stored alert joins
  an incident and leaves it without error;
- `alertFiredTx_frame`, `alertResolvedTx_frame`: only incidents, memberships
  and deliveries change.
-/

namespace Binnacle.Notifications

open Relational Alerts Storage

/-- What a call takes from outside the database: the random strings it draws
(`id`, `newID`; the `n`-th draw of the call is `ids n`), the wall clock of
`upsertDeliveryTx`, and the order of rows where a query leaves it open. -/
structure Ambient where
  ids : Nat → String
  wallClock : Time
  order : RowOrder

/-- `Repository`, as the sink reads it (repository.go:21-29). -/
structure Repository where
  reminderInterval : Duration := 2 * hour

structure Group where
  key : String
  targetType : String
  targetId : String

/-- `groupFor` (repository.go:44-59). -/
def groupFor (a : Alert) : Group :=
  if a.family = familyDockerDown ∨ a.family = familyPersistence then
    ⟨"subsystem:" ++ a.targetId, "subsystem", a.targetId⟩
  else if a.family = familyHostCPU ∨ a.family = familyHostMemory then
    ⟨"host:server", "host", "server"⟩
  else if a.targetType = "resource" ∨ a.targetType = "check" then
    ⟨"resource:" ++ a.targetId, "resource", a.targetId⟩
  else if a.targetType = "filesystem" then
    ⟨"filesystem:" ++ a.targetId, "filesystem", a.targetId⟩
  else if a.targetType = "host" then
    ⟨"host:server", "host", "server"⟩
  else
    ⟨"resource:" ++ a.targetId, a.targetType, a.targetId⟩

/-- `incident_alerts ia JOIN alerts a ON a.id=ia.alert_id WHERE ia.incident_id=?`. -/
def members (db : Database) (incidentID : String) : List AlertRow :=
  (db.incidentAlerts.rows.filter fun m => m.incidentId = incidentID).filterMap fun m =>
    db.alerts.find? m.alertId

def firingMembers (db : Database) (incidentID : String) : List AlertRow :=
  (members db incidentID).filter fun a => a.status = .firing

/-- `payloadTx` (repository.go:255-293). -/
def payloadTx (env : Ambient) (db : Database) (deliveryID key incidentID : String)
    (eventType : DeliveryEvent) : Except SqlError Payload :=
  match db.incidents.find? incidentID with
  | none => .error .noRows
  | some i =>
    let listed := ((env.order.arrange (members db incidentID)).insertionSort
      (fun a b => b.startedAt ≤ a.startedAt)).take 20
    .ok
      { eventType, deliveryId := deliveryID, idempotencyKey := key
        incident := some
          { id := i.id, groupKey := i.groupKey, status := i.status, severity := i.severity
            targetType := i.targetType, targetId := i.targetId, title := i.title
            alertCount := (members db incidentID).length
            firingCount := (firingMembers db incidentID).length
            openedAt := i.openedAt, updatedAt := i.updatedAt, resolvedAt := i.resolvedAt
            version := i.version
            alerts := listed.map fun a =>
              { id := a.id, family := a.family, severity := a.severity, status := a.status
                message := a.message, startedAt := a.startedAt, resolvedAt := a.resolvedAt } } }

def coalesces (eventType : DeliveryEvent) : Bool :=
  eventType = .opened || eventType = .updated

/-- A delivery of the incident to the channel that still waits to be sent as
`opened` or `updated`. -/
def waiting (incidentID channelID : String) (d : DeliveryRow) : Bool :=
  d.incidentId = some incidentID && d.channelId = channelID && d.status = .pending
    && coalesces d.eventType

/-- `INSERT INTO notification_deliveries`, with the table's constraints. -/
def insertDelivery (db : Database) (d : DeliveryRow) : Except SqlError Database :=
  if db.deliveries.rows.any (fun e => e.idempotencyKey = d.idempotencyKey) then
    .error (.unique "notification_deliveries.idempotency_key")
  else if !db.channels.has d.channelId then
    .error (.foreignKey "notification_deliveries.channel_id")
  else if !d.incidentId.all db.incidents.has then
    .error (.foreignKey "notification_deliveries.incident_id")
  else
    match db.deliveries.insert d with
    | none => .error (.unique "notification_deliveries.id")
    | some deliveries => .ok { db with deliveries }

/-- The waiting delivery `upsertDeliveryTx` extends: the oldest one. -/
def waitingDelivery (env : Ambient) (db : Database) (incidentID channelID : String) :
    Option DeliveryRow :=
  ((env.order.arrange db.deliveries.rows).filter (waiting incidentID channelID)).insertionSort
    (fun d e => d.createdAt ≤ e.createdAt) |>.head?

/-- Under what a delivery goes out: its id, its idempotency key and the event
its payload names. -/
structure Slot where
  id : String
  key : String
  event : DeliveryEvent

/-- The slot of the waiting delivery if the event coalesces with it, else a new
one from the draws `draw` and `draw + 1`. -/
def deliverySlot (env : Ambient) (draw : Nat) (eventType : DeliveryEvent)
    (existing : Option DeliveryRow) : Slot :=
  match coalesces eventType, existing with
  | true, some d => ⟨d.id, d.idempotencyKey, d.eventType⟩
  | _, _ => ⟨"del_" ++ env.ids draw, "idem_" ++ env.ids (draw + 1), eventType⟩

def queuedDelivery (env : Ambient) (incidentID channelID : String) (eventType : DeliveryEvent)
    (due : Time) (slot : Slot) (payload : Payload) : DeliveryRow where
  id := slot.id
  channelId := channelID
  incidentId := some incidentID
  eventType
  payload
  idempotencyKey := slot.key
  status := .pending
  attemptCount := 0
  nextAttemptAt := some (unix due)
  startedAt := none
  completedAt := none
  failureCode := none
  createdAt := unix env.wallClock
  updatedAt := unix env.wallClock

/-- The new payload overwrites a waiting delivery in place, or is queued
(repository.go:242-252). -/
def storeDelivery (env : Ambient) (db : Database) (incidentID channelID : String)
    (eventType : DeliveryEvent) (due : Time) (slot : Slot) (payload : Payload) :
    Except SqlError Database :=
  if coalesces eventType && slot.id ≠ "" && db.deliveries.has slot.id then
    .ok { db with
      deliveries := db.deliveries.update (fun d => d.id = slot.id)
        (fun d => { d with
          payload
          nextAttemptAt := some (unix due)
          updatedAt := unix env.wallClock }) (fun _ => rfl) }
  else
    insertDelivery db (queuedDelivery env incidentID channelID eventType due slot payload)

/-- `upsertDeliveryTx` (repository.go:222-253). -/
def upsertDeliveryTx (env : Ambient) (draw : Nat) (db : Database)
    (incidentID channelID : String) (eventType : DeliveryEvent) (due : Time) :
    Except SqlError Database :=
  let slot := deliverySlot env draw eventType (waitingDelivery env db incidentID channelID)
  payloadTx env db slot.id slot.key incidentID slot.event >>=
    storeDelivery env db incidentID channelID eventType due slot

/-- `WHERE enabled=1 AND deleted_at IS NULL`. -/
def activeChannels (env : Ambient) (db : Database) : List ChannelRow :=
  (env.order.arrange db.channels.rows).filter fun ch => ch.enabled && ch.deletedAt = none

def previouslyNotified (db : Database) (incidentID channelID : String) : Nat :=
  (db.deliveries.rows.filter fun d => d.incidentId = some incidentID
    && d.channelId = channelID && d.status ≠ .cancelled).length

/-- Whether `enqueueIncidentTx` passes over a channel (repository.go:201-214):
the incident is below its minimum severity (a resolution still goes where the
incident was announced), or it does not want resolutions. -/
def skipsChannel (db : Database) (incidentID : String) (eventType : DeliveryEvent)
    (severity : Level) (ch : ChannelRow) : Bool :=
  (ch.minimumSeverity = .critical && severity ≠ .critical
    && !(eventType = .resolved && previouslyNotified db incidentID ch.id > 0))
  || (eventType = .resolved && !ch.notifyResolved)

/-- One channel of `enqueueIncidentTx`; its draws start at `draw`. -/
def enqueueForChannel (env : Ambient) (incidentID : String) (eventType : DeliveryEvent)
    (severity : Level) (due : Time) (db : Database) (ch : ChannelRow) (draw : Nat) :
    Except SqlError Database :=
  if skipsChannel db incidentID eventType severity ch then .ok db
  else upsertDeliveryTx env draw db incidentID ch.id eventType due

/-- `enqueueIncidentTx` (repository.go:177-220); the `k`-th channel draws from
`draw + 2 * k`. -/
def enqueueIncidentTx (env : Ambient) (draw : Nat) (db : Database) (incidentID : String)
    (eventType : DeliveryEvent) (severity : Level) (due : Time) : Except SqlError Database :=
  (activeChannels env db).zipIdx.foldlM (fun db ch =>
    enqueueForChannel env incidentID eventType severity due db ch.1 (draw + 2 * ch.2)) db

/-- `status='cancelled',completed_at=?,next_attempt_at=NULL,updated_at=?`. -/
def cancelDelivery (now : Time) (d : DeliveryRow) : DeliveryRow :=
  { d with
    status := .cancelled
    completedAt := some (unix now)
    nextAttemptAt := none
    updatedAt := unix now }

def attempted (db : Database) (incidentID channelID : String) : Nat :=
  (db.deliveries.rows.filter fun d => d.incidentId = some incidentID
    && d.channelId = channelID && d.status ≠ .cancelled && (d.attemptCount > 0
      || d.status = .inProgress || d.status = .succeeded || d.status = .permanentFailure)).length

/-- `UPDATE notification_deliveries SET status='cancelled',… WHERE …`. -/
def cancelDeliveries (db : Database) (now : Time) (p : DeliveryRow → Bool) : Database :=
  { db with deliveries := db.deliveries.update p (cancelDelivery now) (fun _ => rfl) }

/-- One channel of `enqueueResolutionTx`. -/
def resolveForChannel (env : Ambient) (incidentID : String) (now : Time) (db : Database)
    (ch : ChannelRow) (draw : Nat) : Except SqlError Database :=
  if attempted db incidentID ch.id = 0 then
    .ok (cancelDeliveries db now fun d => waiting incidentID ch.id d && d.attemptCount = 0)
  else
    upsertDeliveryTx env draw (cancelDeliveries db now (waiting incidentID ch.id))
      incidentID ch.id .resolved now

/-- `enqueueResolutionTx` (repository.go:132-175). -/
def enqueueResolutionTx (env : Ambient) (draw : Nat) (db : Database) (incidentID : String)
    (now : Time) : Except SqlError Database :=
  ((activeChannels env db).filter fun ch => ch.notifyResolved).zipIdx.foldlM (fun db ch =>
    resolveForChannel env incidentID now db ch.1 (draw + 2 * ch.2)) db

/-- `INSERT INTO incident_alerts`, with the table's constraints. -/
def insertMembership (db : Database) (m : IncidentAlertRow) : Except SqlError Database :=
  if db.incidentAlerts.rows.any (fun e => e.alertId = m.alertId) then
    .error (.unique "incident_alerts.alert_id")
  else if !db.incidents.has m.incidentId then
    .error (.foreignKey "incident_alerts.incident_id")
  else if !db.alerts.has m.alertId then
    .error (.foreignKey "incident_alerts.alert_id")
  else
    match db.incidentAlerts.insert m with
    | none => .error (.unique "incident_alerts.incident_id,alert_id")
    | some incidentAlerts => .ok { db with incidentAlerts }

/-- The open incident of a group; the partial index `incidents_one_open_group`
allows one. -/
def openIncident (db : Database) (group : String) : Option IncidentRow :=
  db.incidents.rows.find? fun i => i.groupKey = group && i.status = .opened

/-- The incident an alert opens; it draws `ids 1`. -/
def newIncident (r : Repository) (env : Ambient) (a : Alert) (severity : Level) (now : Time) :
    IncidentRow where
  id := "inc_" ++ env.ids 1
  groupKey := (groupFor a).key
  status := .opened
  severity
  targetType := (groupFor a).targetType
  targetId := (groupFor a).targetId
  title := (groupFor a).targetType ++ " incident on " ++ (groupFor a).targetId
  openedAt := unix now
  updatedAt := unix now
  resolvedAt := none
  version := 1
  nextReminderAt := some (unix (now + r.reminderInterval))

/-- `UPDATE incidents SET severity=?,updated_at=?,version=version+1 WHERE id=?`. -/
def touchIncident (db : Database) (incidentID : String) (severity : Level) (now : Time) :
    Database :=
  { db with
    incidents := db.incidents.update (fun i => i.id = incidentID)
      (fun i => { i with severity, updatedAt := unix now, version := i.version + 1 })
      (fun _ => rfl) }

def escalate (i : IncidentRow) (a : Alert) : Level :=
  if i.severity = .warning ∧ a.severity = .critical then .critical else i.severity

/-- The alert joins the incident, and the channels hear of it
(repository.go:88-99); the deliveries draw from `ids 2` on. -/
def joinIncident (env : Ambient) (db : Database) (incidentID alertID : String)
    (eventType : DeliveryEvent) (severity : Level) (now : Time) (notify : Bool) :
    Except SqlError Database := do
  let db ← insertMembership db
    { incidentId := incidentID, alertId := alertID, joinedAt := unix now, resolvedAt := none }
  if notify then
    enqueueIncidentTx env 2 db incidentID eventType severity (now + 15 * second)
  else
    .ok db

/-- `alertFiredTx` (repository.go:65-100). -/
def alertFiredTx (r : Repository) (env : Ambient) (db : Database) (a : Alert) (now : Time)
    (notify : Bool) : Except SqlError Database :=
  match openIncident db (groupFor a).key with
  | none =>
    match a.severity.level with
    | none => .error (.check "incidents.severity")
    | some severity =>
      match db.incidents.insert (newIncident r env a severity now) with
      | none => .error (.unique "incidents.id")
      | some incidents =>
        joinIncident env { db with incidents } ("inc_" ++ env.ids 1) a.id .opened severity now
          notify
  | some i =>
    joinIncident env (touchIncident db i.id (escalate i a) now) i.id a.id .updated (escalate i a)
      now notify

/-- `UPDATE incident_alerts SET resolved_at=? WHERE alert_id=? AND resolved_at IS NULL`. -/
def leaveIncident (db : Database) (alertID : String) (now : Time) : Database :=
  { db with
    incidentAlerts := db.incidentAlerts.update
      (fun m => m.alertId = alertID && m.resolvedAt = none)
      (fun m => { m with resolvedAt := some (unix now) }) (fun _ => rfl) }

/-- `UPDATE incidents SET status='resolved',… WHERE id=?`. -/
def closeIncident (db : Database) (incidentID : String) (now : Time) : Database :=
  { db with
    incidents := db.incidents.update (fun i => i.id = incidentID)
      (fun i => { i with
        status := .resolved
        resolvedAt := some (unix now)
        updatedAt := unix now
        nextReminderAt := none
        version := i.version + 1 }) (fun _ => rfl) }

def severityOf (firing : List AlertRow) : Level :=
  if firing.any fun a => a.severity = .critical then .critical else .warning

/-- `AlertResolvedTx` (repository.go:102-128). -/
def alertResolvedTx (env : Ambient) (db : Database) (alertID : String) (now : Time) :
    Except SqlError Database :=
  match db.incidentAlerts.rows.find? fun m => m.alertId = alertID with
  | none => .ok db
  | some m =>
    match firingMembers (leaveIncident db alertID now) m.incidentId with
    | [] =>
      enqueueResolutionTx env 2 (closeIncident (leaveIncident db alertID now) m.incidentId now)
        m.incidentId now
    | firing =>
      .ok (touchIncident (leaveIncident db alertID now) m.incidentId (severityOf firing) now)

/-! ## Frames -/

/-- Two databases that differ in `notification_deliveries` only. -/
def DeliveriesOnly (db db' : Database) : Prop := db' = { db with deliveries := db'.deliveries }

theorem DeliveriesOnly.trans {a b c : Database} (hab : DeliveriesOnly a b)
    (hbc : DeliveriesOnly b c) : DeliveriesOnly a c := by
  unfold DeliveriesOnly at *
  rw [hbc, hab]

def IncidentsOnly (db db' : Database) : Prop :=
  db' = { db with
    incidents := db'.incidents
    incidentAlerts := db'.incidentAlerts
    deliveries := db'.deliveries }

theorem IncidentsOnly.trans {a b c : Database} (hab : IncidentsOnly a b)
    (hbc : IncidentsOnly b c) : IncidentsOnly a c := by
  unfold IncidentsOnly at *
  rw [hbc, hab]

theorem DeliveriesOnly.incidentsOnly {a b : Database} (h : DeliveriesOnly a b) :
    IncidentsOnly a b := by
  unfold IncidentsOnly
  rw [h]

variable {db db' : Database} {env : Ambient} {incidentID channelID alertID : String}
  {eventType : DeliveryEvent} {severity : Level} {now : Time} {notify : Bool} {d : DeliveryRow}
  {draw : Nat} {m : IncidentAlertRow} {r : Repository} {a : Alert}
  {serve : Database → ChannelRow × Nat → Except SqlError Database}

theorem insertDelivery_ok (h : insertDelivery db d = .ok db') :
    (∀ x ∈ db.deliveries.rows, x.idempotencyKey ≠ d.idempotencyKey) ∧
      db.deliveries.has d.id = false ∧ db'.deliveries.rows = db.deliveries.rows ++ [d] ∧
      db' = { db with deliveries := db'.deliveries } := by
  unfold insertDelivery at h
  split at h
  · cases h
  · next hkey =>
    split_ifs at h
    split at h
    · cases h
    · next hins =>
      cases h
      obtain ⟨hfree, hrows⟩ := Table.insert_eq_some hins
      exact ⟨by simpa using hkey, hfree, hrows, rfl⟩

theorem upsertDeliveryTx_frame {due : Time}
    (h : upsertDeliveryTx env draw db incidentID channelID eventType due = .ok db') :
    DeliveriesOnly db db' := by
  obtain ⟨payload, -, h⟩ := bind_ok.mp h
  unfold storeDelivery at h
  split at h
  · cases h
    rfl
  · exact (insertDelivery_ok h).2.2.2

theorem enqueueIncidentTx_frame {due : Time}
    (h : enqueueIncidentTx env draw db incidentID eventType severity due = .ok db') :
    DeliveriesOnly db db' := by
  refine foldlM_ok_rel (R := DeliveriesOnly) (fun _ => rfl) DeliveriesOnly.trans
    (fun ch s s' hs => ?_) h
  unfold enqueueForChannel at hs
  split at hs
  · cases hs
    rfl
  · exact upsertDeliveryTx_frame hs

theorem enqueueResolutionTx_frame
    (h : enqueueResolutionTx env draw db incidentID now = .ok db') : DeliveriesOnly db db' := by
  refine foldlM_ok_rel (R := DeliveriesOnly) (fun _ => rfl) DeliveriesOnly.trans
    (fun ch s s' hs => ?_) h
  unfold resolveForChannel at hs
  split at hs
  · cases hs
    rfl
  · refine DeliveriesOnly.trans ?_ (upsertDeliveryTx_frame hs)
    rfl

/-- What an accepted membership leaves: the alert had none, the incident is
stored, and there is one more row. -/
theorem insertMembership_ok (h : insertMembership db m = .ok db') :
    (∀ e ∈ db.incidentAlerts.rows, e.alertId ≠ m.alertId) ∧
      db.incidents.has m.incidentId = true ∧
      db'.incidentAlerts.rows = db.incidentAlerts.rows ++ [m] ∧
      db' = { db with incidentAlerts := db'.incidentAlerts } := by
  unfold insertMembership at h
  split at h
  · cases h
  · next hfree =>
    split at h
    · cases h
    · next hinc =>
      split_ifs at h
      split at h
      · cases h
      · next hins =>
        cases h
        exact ⟨by simpa using hfree, by simpa using hinc, (Table.insert_eq_some hins).2, rfl⟩

section Joined

variable (h : joinIncident env db incidentID alertID eventType severity now notify = .ok db')

include h

theorem joinIncident_steps :
    ∃ db₁, insertMembership db
        { incidentId := incidentID, alertId := alertID, joinedAt := unix now, resolvedAt := none }
          = .ok db₁ ∧
      ((notify = true ∧ enqueueIncidentTx env 2 db₁ incidentID eventType severity
          (now + 15 * second) = .ok db') ∨ (notify = false ∧ db' = db₁)) := by
  obtain ⟨db₁, h₁, h₂⟩ := bind_ok.mp h
  refine ⟨db₁, h₁, ?_⟩
  cases notify with
  | true => exact .inl ⟨rfl, h₂⟩
  | false => exact .inr ⟨rfl, (Except.ok.inj h₂).symm⟩

theorem joinIncident_leaves :
    (∀ e ∈ db.incidentAlerts.rows, e.alertId ≠ alertID) ∧ db.incidents.has incidentID = true ∧
      db'.incidentAlerts.rows = db.incidentAlerts.rows ++
        [{ incidentId := incidentID, alertId := alertID, joinedAt := unix now
           resolvedAt := none }] ∧
      db' = { db with incidentAlerts := db'.incidentAlerts, deliveries := db'.deliveries } := by
  obtain ⟨db₁, h₁, h₂⟩ := joinIncident_steps h
  obtain ⟨hfree, hinc, hrows, hframe⟩ := insertMembership_ok h₁
  have honly : DeliveriesOnly db₁ db' := by
    rcases h₂ with ⟨-, h₂⟩ | ⟨-, rfl⟩
    · exact enqueueIncidentTx_frame h₂
    · rfl
  refine ⟨hfree, hinc, ?_, ?_⟩
  · rw [honly]
    exact hrows
  · rw [honly, hframe]

theorem joinIncident_frame : IncidentsOnly db db' := by
  unfold IncidentsOnly
  rw [(joinIncident_leaves h).2.2.2]

end Joined

/-- The two ways of an accepted `alertFiredTx`: a new incident, or the open one
of the group. -/
theorem alertFiredTx_cases (h : alertFiredTx r env db a now notify = .ok db') :
    (∃ severity incidents, openIncident db (groupFor a).key = none ∧
      a.severity.level = some severity ∧
      db.incidents.insert (newIncident r env a severity now) = some incidents ∧
      joinIncident env { db with incidents } ("inc_" ++ env.ids 1) a.id .opened severity now notify
        = .ok db') ∨
    ∃ i, openIncident db (groupFor a).key = some i ∧
      joinIncident env (touchIncident db i.id (escalate i a) now) i.id a.id .updated (escalate i a)
        now notify = .ok db' := by
  unfold alertFiredTx at h
  split at h
  · next hnone =>
    split at h
    · cases h
    · next severity hlevel =>
      split at h
      · cases h
      · next incidents hins => exact .inl ⟨severity, incidents, hnone, hlevel, hins, h⟩
  · next i hsome => exact .inr ⟨i, hsome, h⟩

theorem alertFiredTx_frame
    (h : alertFiredTx r env db a now notify = .ok db') : IncidentsOnly db db' := by
  rcases alertFiredTx_cases h with ⟨severity, incidents, -, -, -, hjoin⟩ | ⟨i, -, hjoin⟩
  · refine IncidentsOnly.trans ?_ (joinIncident_frame hjoin)
    rfl
  · refine IncidentsOnly.trans ?_ (joinIncident_frame hjoin)
    rfl

/-- The three ways of an accepted `AlertResolvedTx`: the alert has no incident,
its incident closes, or others still fire. -/
theorem alertResolvedTx_cases (h : alertResolvedTx env db alertID now = .ok db') :
    ((∀ m ∈ db.incidentAlerts.rows, m.alertId ≠ alertID) ∧ db' = db) ∨
    ∃ m ∈ db.incidentAlerts.rows, m.alertId = alertID ∧
      ((firingMembers (leaveIncident db alertID now) m.incidentId = [] ∧
        enqueueResolutionTx env 2 (closeIncident (leaveIncident db alertID now) m.incidentId now)
          m.incidentId now = .ok db') ∨
      (firingMembers (leaveIncident db alertID now) m.incidentId ≠ [] ∧
        db' = touchIncident (leaveIncident db alertID now) m.incidentId
          (severityOf (firingMembers (leaveIncident db alertID now) m.incidentId)) now)) := by
  unfold alertResolvedTx at h
  split at h
  · next hnone =>
    cases h
    exact .inl ⟨fun m hm => by simpa using List.find?_eq_none.mp hnone m hm, rfl⟩
  · next m hm =>
    refine .inr ⟨m, List.mem_of_find?_eq_some hm, by simpa using List.find?_some hm, ?_⟩
    split at h
    · next hnil => exact .inl ⟨hnil, h⟩
    · next hsome =>
      cases h
      exact .inr ⟨hsome, rfl⟩

theorem alertResolvedTx_frame (h : alertResolvedTx env db alertID now = .ok db') :
    IncidentsOnly db db' := by
  rcases alertResolvedTx_cases h with ⟨-, rfl⟩ | ⟨m, -, -, ⟨-, hclose⟩ | ⟨-, rfl⟩⟩
  · rfl
  · refine IncidentsOnly.trans ?_ (enqueueResolutionTx_frame hclose).incidentsOnly
    rfl
  · rfl

/-! ## The foreign key of memberships -/

def Linked (db : Database) : Prop :=
  ∀ m ∈ db.incidentAlerts.rows, db.incidents.has m.incidentId = true

theorem DeliveriesOnly.linked (h : DeliveriesOnly db db') (hl : Linked db) : Linked db' := by
  rw [h]
  exact hl

theorem linked_touchIncident (hl : Linked db) :
    Linked (touchIncident db incidentID severity now) := by
  intro m hm
  simp only [touchIncident, Table.has_update]
  exact hl m hm

theorem linked_closeIncident (hl : Linked db) : Linked (closeIncident db incidentID now) := by
  intro m hm
  simp only [closeIncident, Table.has_update]
  exact hl m hm

theorem linked_leaveIncident (hl : Linked db) : Linked (leaveIncident db alertID now) := by
  intro m hm
  obtain ⟨e, he, rfl⟩ := List.mem_map.mp hm
  split <;> exact hl e he

theorem joinIncident_linked
    (h : joinIncident env db incidentID alertID eventType severity now notify = .ok db')
    (hl : Linked db) : Linked db' := by
  obtain ⟨-, hinc, hrows, hframe⟩ := joinIncident_leaves h
  intro e he
  rw [hframe]
  rcases mem_snoc hrows he with he | rfl
  · exact hl e he
  · exact hinc

theorem alertFiredTx_linked
    (h : alertFiredTx r env db a now notify = .ok db') (hl : Linked db) : Linked db' := by
  rcases alertFiredTx_cases h with ⟨severity, incidents, -, -, hins, hjoin⟩ | ⟨i, -, hjoin⟩
  · refine joinIncident_linked hjoin fun m hm => ?_
    obtain ⟨i, hi, hk⟩ := Table.has_iff.mp (hl m hm)
    refine Table.has_iff.mpr ⟨i, ?_, hk⟩
    rw [(Table.insert_eq_some hins).2]
    exact List.mem_append_left _ hi
  · exact joinIncident_linked hjoin (linked_touchIncident hl)

theorem alertResolvedTx_linked (h : alertResolvedTx env db alertID now = .ok db') (hl : Linked db) :
    Linked db' := by
  rcases alertResolvedTx_cases h with ⟨-, rfl⟩ | ⟨m, -, -, ⟨-, hclose⟩ | ⟨-, rfl⟩⟩
  · exact hl
  · exact (enqueueResolutionTx_frame hclose).linked
      (linked_closeIncident (linked_leaveIncident hl))
  · exact linked_touchIncident (linked_leaveIncident hl)

/-! ## Fresh draws -/

/-- No draw of the call occurs in the database, and no two draws coincide. -/
structure Fresh (env : Ambient) (db : Database) : Prop where
  distinct : Function.Injective env.ids
  alerts : ∀ n, db.alerts.has (env.ids n) = false
  events : ∀ n, db.events.has ("alert-" ++ env.ids n) = false
  incidents : ∀ n, db.incidents.has ("inc_" ++ env.ids n) = false
  memberships : ∀ n, ∀ m ∈ db.incidentAlerts.rows, m.alertId ≠ env.ids n
  deliveries : ∀ n, ∀ d ∈ db.deliveries.rows, d.id ≠ "del_" ++ env.ids n
  keys : ∀ n, ∀ d ∈ db.deliveries.rows, d.idempotencyKey ≠ "idem_" ++ env.ids n

/-- Every id a draw could coincide with. -/
def idsInUse (db : Database) : List String :=
  db.alerts.rows.map AlertRow.id ++ db.events.rows.map EventRow.id
    ++ db.incidents.rows.map IncidentRow.id ++ db.incidentAlerts.rows.map IncidentAlertRow.alertId
    ++ db.deliveries.rows.map DeliveryRow.id ++ db.deliveries.rows.map DeliveryRow.idempotencyKey

def unusedIds (db : Database) (n : Nat) : String :=
  String.ofList (List.replicate (((idsInUse db).map String.length).sum + 1 + n) 'f')

theorem length_unusedIds (db : Database) (n : Nat) :
    (unusedIds db n).length = ((idsInUse db).map String.length).sum + 1 + n := by
  simp [unusedIds]

theorem ne_append_unusedIds {s : String} (hs : s ∈ idsInUse db) (p : String) (n : Nat) :
    s ≠ p ++ unusedIds db n := by
  intro h
  have hle : s.length ≤ ((idsInUse db).map String.length).sum :=
    List.le_sum_of_mem (List.mem_map_of_mem hs)
  have hlen : s.length = p.length + (unusedIds db n).length := by
    rw [h, String.length_append]
  rw [length_unusedIds] at hlen
  omega

theorem fresh_unusedIds (db : Database) (wallClock : Time) (order : RowOrder) :
    Fresh ⟨unusedIds db, wallClock, order⟩ db where
  distinct n m h := by
    have := congrArg String.length h
    rw [length_unusedIds, length_unusedIds] at this
    omega
  alerts n := Table.has_eq_false_iff.mpr fun a ha => by
    have hused : a.id ∈ idsInUse db := by simp only [idsInUse, List.mem_append]; grind
    simpa using ne_append_unusedIds hused "" n
  events n := Table.has_eq_false_iff.mpr fun e he =>
    ne_append_unusedIds (by simp only [idsInUse, List.mem_append]; grind) "alert-" n
  incidents n := Table.has_eq_false_iff.mpr fun i hi =>
    ne_append_unusedIds (by simp only [idsInUse, List.mem_append]; grind) "inc_" n
  memberships n m hm := by
    have hused : m.alertId ∈ idsInUse db := by simp only [idsInUse, List.mem_append]; grind
    simpa using ne_append_unusedIds hused "" n
  deliveries n d hd :=
    ne_append_unusedIds (by simp only [idsInUse, List.mem_append]; grind) "del_" n
  keys n d hd :=
    ne_append_unusedIds (by simp only [idsInUse, List.mem_append]; grind) "idem_" n

def DrawsFree (env : Ambient) (db : Database) (draw : Nat) : Prop :=
  ∀ d ∈ db.deliveries.rows,
    d.id ≠ "del_" ++ env.ids draw ∧ d.idempotencyKey ≠ "idem_" ++ env.ids (draw + 1)

/-- No stored delivery has the empty id, which `upsertDeliveryTx` takes for none. -/
def DeliveriesNamed (db : Database) : Prop := ∀ d ∈ db.deliveries.rows, d.id ≠ ""

def GrowsBy (env : Ambient) (draw : Nat) (db db' : Database) : Prop :=
  ∀ d ∈ db'.deliveries.rows,
    (∃ e ∈ db.deliveries.rows, e.id = d.id ∧ e.idempotencyKey = d.idempotencyKey) ∨
    (d.id = "del_" ++ env.ids draw ∧ d.idempotencyKey = "idem_" ++ env.ids (draw + 1))

theorem insertDelivery_of_free (d : DeliveryRow)
    (hkey : ∀ e ∈ db.deliveries.rows, e.id ≠ d.id ∧ e.idempotencyKey ≠ d.idempotencyKey)
    (hch : db.channels.has d.channelId = true) (hinc : d.incidentId.all db.incidents.has = true) :
    ∃ db', insertDelivery db d = .ok db' := by
  have hid : db.deliveries.has d.id = false :=
    Table.has_eq_false_iff.mpr fun e he => (hkey e he).1
  have hany : db.deliveries.rows.any (fun e => e.idempotencyKey = d.idempotencyKey) = false := by
    simpa using fun e he => (hkey e he).2
  refine ⟨{ db with deliveries := db.deliveries.push d hid }, ?_⟩
  simp [insertDelivery, hany, hch, hinc, Table.insert_of_free hid]

theorem waitingDelivery_some (h : waitingDelivery env db incidentID channelID = some d) :
    d ∈ db.deliveries.rows ∧ waiting incidentID channelID d = true := by
  have hd := List.mem_of_mem_head? h
  rw [(List.perm_insertionSort _ _).mem_iff, List.mem_filter, RowOrder.mem_arrange] at hd
  exact hd

theorem upsertDeliveryTx_grows {due : Time}
    (h : upsertDeliveryTx env draw db incidentID channelID eventType due = .ok db') :
    GrowsBy env draw db db' := by
  obtain ⟨payload, -, hstore⟩ := bind_ok.mp h
  intro d hd
  unfold storeDelivery at hstore
  split at hstore
  · cases hstore
    obtain ⟨x, hx, rfl⟩ := List.mem_map.mp hd
    refine .inl ⟨x, hx, ?_⟩
    split <;> exact ⟨rfl, rfl⟩
  · obtain ⟨hkey, -, hrows, -⟩ := insertDelivery_ok hstore
    rcases mem_snoc hrows hd with hd | rfl
    · exact .inl ⟨d, hd, rfl, rfl⟩
    · unfold deliverySlot at hkey ⊢
      split at hkey
      · next w hco hw => exact absurd rfl (hkey w (waitingDelivery_some hw).1)
      · exact .inr ⟨rfl, rfl⟩

theorem payloadTx_ok {deliveryID key : String} (hinc : db.incidents.has incidentID = true) :
    ∃ payload, payloadTx env db deliveryID key incidentID eventType = .ok payload := by
  obtain ⟨i, hi, hik⟩ := Table.has_iff.mp hinc
  have hfind : db.incidents.find? incidentID = some i := Table.find?_eq_some_iff.mpr ⟨hi, hik⟩
  unfold payloadTx
  rw [hfind]
  exact ⟨_, rfl⟩

/-- A delivery is queued without error when the incident and the channel are
stored and its draws are free; one that waits is overwritten. -/
theorem upsertDeliveryTx_ok (eventType : DeliveryEvent) (due : Time)
    (hinc : db.incidents.has incidentID = true) (hch : db.channels.has channelID = true)
    (hnamed : DeliveriesNamed db) (hfree : DrawsFree env db draw) :
    ∃ db', upsertDeliveryTx env draw db incidentID channelID eventType due = .ok db' := by
  unfold upsertDeliveryTx
  obtain ⟨payload, hp⟩ := payloadTx_ok hinc
  suffices hstore : ∃ db', storeDelivery env db incidentID channelID eventType due
      (deliverySlot env draw eventType (waitingDelivery env db incidentID channelID)) payload
        = .ok db' by
    obtain ⟨db', h⟩ := hstore
    exact ⟨db', bind_ok.mpr ⟨payload, hp, h⟩⟩
  unfold deliverySlot storeDelivery
  split
  · next w hc hw =>
    obtain ⟨hwm, -⟩ := waitingDelivery_some hw
    have hhas : db.deliveries.has w.id = true := Table.has_iff.mpr ⟨w, hwm, rfl⟩
    rw [if_pos (by simp [hc, hhas, hnamed w hwm])]
    exact ⟨_, rfl⟩
  · have hnew : db.deliveries.has ("del_" ++ env.ids draw) = false :=
      Table.has_eq_false_iff.mpr fun d hd => (hfree d hd).1
    rw [if_neg (by simp [hnew])]
    exact insertDelivery_of_free _ hfree hch hinc

theorem GrowsBy.drawsFree (hids : Function.Injective env.ids) {k n : Nat}
    (hgrow : GrowsBy env k db db') (hkn : k ≠ n) (hfree : DrawsFree env db n) :
    DrawsFree env db' n := by
  intro d hd
  rcases hgrow d hd with ⟨e, he, hid, hkey⟩ | ⟨hid, hkey⟩
  · rw [← hid, ← hkey]
    exact hfree e he
  · rw [hid, hkey]
    refine ⟨fun h => hkn (hids ?_), fun h => hkn ?_⟩
    · exact (String.append_right_inj _).mp h
    · have := hids ((String.append_right_inj _).mp h)
      omega

theorem GrowsBy.named {k : Nat} (hgrow : GrowsBy env k db db') (hnamed : DeliveriesNamed db) :
    DeliveriesNamed db' := by
  intro d hd
  rcases hgrow d hd with ⟨e, he, hid, -⟩ | ⟨hid, -⟩
  · rw [← hid]
    exact hnamed e he
  · rw [hid]
    simp

/-- A loop body that serves its channel whenever incident, channel and draws
are there. -/
def Serves (env : Ambient) (incidentID : String)
    (serve : Database → ChannelRow × Nat → Except SqlError Database) : Prop :=
  ∀ db ch, db.incidents.has incidentID = true → db.channels.has ch.1.id = true →
    DeliveriesNamed db → DrawsFree env db (2 + 2 * ch.2) →
    ∃ db', serve db ch = .ok db' ∧ DeliveriesOnly db db' ∧ GrowsBy env (2 + 2 * ch.2) db db'

theorem GrowsBy.refl (env : Ambient) (k : Nat) (db : Database) : GrowsBy env k db db :=
  fun d hd => .inl ⟨d, hd, rfl, rfl⟩

theorem enqueueForChannel_serves (env : Ambient) (incidentID : String)
    (eventType : DeliveryEvent) (severity : Level) (due : Time) :
    Serves env incidentID (fun db ch =>
      enqueueForChannel env incidentID eventType severity due db ch.1 (2 + 2 * ch.2)) := by
  intro db ch hinc hch hnamed hfree
  simp only [enqueueForChannel]
  split
  · exact ⟨db, rfl, rfl, GrowsBy.refl _ _ _⟩
  · obtain ⟨db', h⟩ := upsertDeliveryTx_ok _ _ hinc hch hnamed hfree
    exact ⟨db', h, upsertDeliveryTx_frame h, upsertDeliveryTx_grows h⟩

theorem mem_cancelDeliveries {p : DeliveryRow → Bool}
    (hd : d ∈ (cancelDeliveries db now p).deliveries.rows) :
    ∃ e ∈ db.deliveries.rows, e.id = d.id ∧ e.idempotencyKey = d.idempotencyKey := by
  obtain ⟨e, he, rfl⟩ := List.mem_map.mp hd
  refine ⟨e, he, ?_⟩
  split <;> exact ⟨rfl, rfl⟩

theorem resolveForChannel_serves (env : Ambient) (incidentID : String) (now : Time) :
    Serves env incidentID (fun db ch =>
      resolveForChannel env incidentID now db ch.1 (2 + 2 * ch.2)) := by
  intro db ch hinc hch hnamed hfree
  simp only [resolveForChannel]
  split
  · exact ⟨_, rfl, rfl, fun d hd => .inl (mem_cancelDeliveries hd)⟩
  · obtain ⟨db', h⟩ := upsertDeliveryTx_ok .resolved now
      (show (cancelDeliveries db now (waiting incidentID ch.1.id)).incidents.has incidentID = true
        from hinc) hch
      (fun d hd => by
        obtain ⟨e, he, hid, -⟩ := mem_cancelDeliveries hd
        exact hid ▸ hnamed e he)
      (fun d hd => by
        obtain ⟨e, he, hid, hkey⟩ := mem_cancelDeliveries hd
        exact hid ▸ hkey ▸ hfree e he)
    refine ⟨db', h, DeliveriesOnly.trans ?_ (upsertDeliveryTx_frame h), fun d hd => ?_⟩
    · rfl
    · rcases upsertDeliveryTx_grows h d hd with ⟨e, he, hid, hkey⟩ | hnew
      · obtain ⟨e', he', hid', hkey'⟩ := mem_cancelDeliveries he
        exact .inl ⟨e', he', hid'.trans hid, hkey'.trans hkey⟩
      · exact .inr hnew

/-- The channels still to be served find their incident, themselves and their
draws. -/
structure Servable (env : Ambient) (incidentID : String) (targets : List (ChannelRow × Nat))
    (db : Database) : Prop where
  incident : db.incidents.has incidentID = true
  channels : ∀ ch ∈ targets, db.channels.has ch.1.id = true
  draws : ∀ ch ∈ targets, DrawsFree env db (2 + 2 * ch.2)
  distinct : (targets.map Prod.snd).Nodup
  named : DeliveriesNamed db

theorem Servable.step (hids : Function.Injective env.ids)
    (hserve : Serves env incidentID serve) (ch : ChannelRow × Nat) (rest : List (ChannelRow × Nat))
    (db : Database) (h : Servable env incidentID (ch :: rest) db) :
    ∃ db', serve db ch = .ok db' ∧ Servable env incidentID rest db' := by
  obtain ⟨hhead, hdistinct⟩ := List.nodup_cons.mp h.distinct
  obtain ⟨db', hdb', hframe, hgrow⟩ := hserve db ch h.incident
    (h.channels ch List.mem_cons_self) h.named (h.draws ch List.mem_cons_self)
  refine ⟨db', hdb', ?_, fun c hc => ?_, fun c hc => ?_, hdistinct, hgrow.named h.named⟩
  · rw [hframe]
    exact h.incident
  · rw [hframe]
    exact h.channels c (List.mem_cons_of_mem ch hc)
  · refine hgrow.drawsFree hids (fun heq => hhead ?_) (h.draws c (List.mem_cons_of_mem ch hc))
    rw [show ch.2 = c.2 by omega]
    exact List.mem_map_of_mem hc

theorem serveAll_ok (hids : Function.Injective env.ids)
    (hserve : Serves env incidentID serve) {targets : List ChannelRow}
    (htargets : ∀ ch ∈ targets, ch ∈ db.channels.rows) (hinc : db.incidents.has incidentID = true)
    (hnamed : DeliveriesNamed db) (hfree : ∀ n, DrawsFree env db n) :
    ∃ db', targets.zipIdx.foldlM serve db = .ok db' ∧ DeliveriesNamed db' := by
  have hstart : Servable env incidentID targets.zipIdx db := by
    refine ⟨hinc, fun ch hch => ?_, fun ch _ => hfree _, ?_, hnamed⟩
    · exact Table.has_iff.mpr ⟨ch.1, htargets ch.1 (List.fst_mem_of_mem_zipIdx hch), rfl⟩
    · rw [List.zipIdx_map_snd]
      exact List.nodup_range'
  obtain ⟨db', hdb', hend⟩ := foldlM_ok_of_inv (Servable env incidentID)
    (Servable.step hids hserve) hstart
  exact ⟨db', hdb', hend.named⟩

theorem mem_activeChannels {ch : ChannelRow} :
    ch ∈ activeChannels env db ↔
      ch ∈ db.channels.rows ∧ ch.enabled = true ∧ ch.deletedAt = none := by
  unfold activeChannels
  rw [List.mem_filter, RowOrder.mem_arrange, Bool.and_eq_true, decide_eq_true_eq]

theorem insertMembership_of_free (m : IncidentAlertRow)
    (hnew : ∀ e ∈ db.incidentAlerts.rows, e.alertId ≠ m.alertId)
    (hinc : db.incidents.has m.incidentId = true) (halert : db.alerts.has m.alertId = true) :
    ∃ incidentAlerts, insertMembership db m = .ok { db with incidentAlerts } := by
  have hkey : db.incidentAlerts.has m.key = false :=
    Table.has_eq_false_iff.mpr fun e he hk => hnew e he (congrArg Prod.snd hk)
  have hany : db.incidentAlerts.rows.any (fun e => e.alertId = m.alertId) = false := by
    simpa using hnew
  refine ⟨db.incidentAlerts.push m hkey, ?_⟩
  simp [insertMembership, hany, hinc, halert, Table.insert_of_free hkey]

theorem joinIncident_ok (hids : Function.Injective env.ids)
    (hinc : db.incidents.has incidentID = true) (halert : db.alerts.has alertID = true)
    (hnew : ∀ e ∈ db.incidentAlerts.rows, e.alertId ≠ alertID) (hnamed : DeliveriesNamed db)
    (hfree : ∀ n, DrawsFree env db n) :
    ∃ db', joinIncident env db incidentID alertID eventType severity now notify = .ok db' ∧
      DeliveriesNamed db' := by
  obtain ⟨incidentAlerts, hm⟩ := insertMembership_of_free
    { incidentId := incidentID, alertId := alertID, joinedAt := unix now, resolvedAt := none }
    hnew hinc halert
  cases notify with
  | false => exact ⟨_, bind_ok.mpr ⟨_, hm, rfl⟩, hnamed⟩
  | true =>
    obtain ⟨db', hdb', hend⟩ := serveAll_ok hids
      (enqueueForChannel_serves env incidentID eventType severity (now + 15 * second))
      (fun ch hch => (mem_activeChannels.mp hch).1)
      (show ({ db with incidentAlerts } : Database).incidents.has incidentID = true from hinc)
      hnamed hfree
    exact ⟨db', bind_ok.mpr ⟨_, hm, hdb'⟩, hend⟩

theorem alertFiredTx_ok (r : Repository) (now : Time) (notify : Bool) {level : Level}
    (hids : Function.Injective env.ids) (hlevel : a.severity.level = some level)
    (halert : db.alerts.has a.id = true) (hnew : ∀ e ∈ db.incidentAlerts.rows, e.alertId ≠ a.id)
    (hinc : db.incidents.has ("inc_" ++ env.ids 1) = false) (hnamed : DeliveriesNamed db)
    (hfree : ∀ n, DrawsFree env db n) :
    ∃ db', alertFiredTx r env db a now notify = .ok db' ∧ DeliveriesNamed db' := by
  unfold alertFiredTx
  split
  · have hopen : db.incidents.has (newIncident r env a level now).id = false := hinc
    rw [hlevel]
    simp only [Table.insert_of_free hopen]
    refine joinIncident_ok hids ?_ halert hnew hnamed hfree
    exact Table.has_iff.mpr ⟨newIncident r env a level now, by simp, rfl⟩
  · next i hi =>
    refine joinIncident_ok hids ?_ halert hnew hnamed hfree
    simp only [touchIncident, Table.has_update]
    exact Table.has_iff.mpr ⟨i, List.mem_of_find?_eq_some hi, rfl⟩

theorem alertResolvedTx_ok (alertID : String) (now : Time) (hids : Function.Injective env.ids)
    (hl : Linked db) (hnamed : DeliveriesNamed db) (hfree : ∀ n, DrawsFree env db n) :
    ∃ db', alertResolvedTx env db alertID now = .ok db' ∧ DeliveriesNamed db' := by
  unfold alertResolvedTx
  split
  · exact ⟨db, rfl, hnamed⟩
  · next m hm =>
    split
    · refine serveAll_ok hids (resolveForChannel_serves env m.incidentId now)
        (fun ch hch => (mem_activeChannels.mp (List.mem_of_mem_filter hch)).1) ?_ hnamed hfree
      simp only [closeIncident, leaveIncident, Table.has_update]
      exact hl m (List.mem_of_find?_eq_some hm)
    · exact ⟨_, rfl, hnamed⟩

end Binnacle.Notifications
