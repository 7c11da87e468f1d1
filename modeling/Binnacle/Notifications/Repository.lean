import Binnacle.Notifications.Incidents

/-!
# The notification repository outside the alert transaction
(`internal/notifications/repository.go`)

`reconcile` adopts firing alerts that no incident holds, `scheduleReminders`
queues a reminder for each open incident that is due one, `cleanup` drops
finished deliveries and old incidents; `retry`, `test` and the channel
operations are what the API calls.

Every operation is one transaction, except `cleanup`, whose two statements
commit one after the other.
-/

namespace Binnacle.Notifications

open Relational Alerts Storage

/-- The draws of a call that come after its first `n`. -/
def Ambient.skip (env : Ambient) (n : Nat) : Ambient :=
  { env with ids := fun k => env.ids (n + k) }

/-! ## `Reconcile` (repository.go:295-327) -/

def grouped (db : Database) (alertID : String) : Bool :=
  db.incidentAlerts.rows.any fun m => m.alertId = alertID

/-- A stored alert as `Reconcile` scans it. -/
def alertOf (a : AlertRow) : Alert where
  id := a.id
  dedupKey := a.dedupKey
  ruleId := a.ruleId
  family := a.family
  severity := a.severity.severity
  targetType := a.targetType
  targetId := a.targetId
  startedAt := ofUnix a.startedAt
  lastObservedAt := ofUnix a.lastObservedAt
  observedValue := some a.observedValue
  message := a.message

/-- `alerts LEFT JOIN incident_alerts … WHERE a.status='firing' AND ia.alert_id
IS NULL ORDER BY a.started_at`. -/
def orphans (env : Ambient) (db : Database) : List AlertRow :=
  ((env.order.arrange db.alerts.rows).filter fun a =>
    a.status = .firing && !grouped db a.id).insertionSort fun a b => a.startedAt ≤ b.startedAt

/-- `UPDATE incidents SET opened_at=MIN(opened_at,?) WHERE id=(SELECT incident_id
FROM incident_alerts WHERE alert_id=?)`. -/
def backdate (db : Database) (a : AlertRow) : Database :=
  { db with
    incidents := db.incidents.update
      (fun i => db.incidentAlerts.rows.any fun m => m.alertId = a.id && m.incidentId = i.id)
      (fun i => { i with openedAt := min i.openedAt a.startedAt }) (fun _ => rfl) }

/-- One turn of `Reconcile`; the `k`-th alert draws from `ids k` on. -/
def adopt (r : Repository) (env : Ambient) (now : Time) (db : Database) (a : AlertRow × Nat) :
    Except SqlError Database := do
  let db ← alertFiredTx r (env.skip a.2) db (alertOf a.1) now false
  .ok (backdate db a.1)

/-- `Reconcile`. -/
def reconcile (r : Repository) (env : Ambient) (db : Database) (now : Time) :
    Except SqlError Database :=
  (orphans env db).zipIdx.foldlM (adopt r env now) db

/-! ## `ScheduleReminders` (repository.go:776-809) -/

/-- `status='open' AND next_reminder_at<=?`. -/
def dueReminders (env : Ambient) (db : Database) (now : Time) : List IncidentRow :=
  (env.order.arrange db.incidents.rows).filter fun i =>
    i.status = .opened && i.nextReminderAt.any fun at_ => at_ ≤ unix now

/-- `UPDATE incidents SET next_reminder_at=? WHERE id=?`. -/
def postponeReminder (db : Database) (incidentID : String) (next : Time) : Database :=
  { db with
    incidents := db.incidents.update (fun i => i.id = incidentID)
      (fun i => { i with nextReminderAt := some (unix next) }) (fun _ => rfl) }

/-- One turn of `ScheduleReminders`; each incident has two draws per channel. -/
def remind (env : Ambient) (now : Time) (interval : Duration) (db : Database)
    (i : IncidentRow × Nat) : Except SqlError Database :=
  enqueueIncidentTx env (2 * (activeChannels env db).length * i.2)
    (postponeReminder db i.1.id (now + interval)) i.1.id .reminder i.1.severity now

/-- `ScheduleReminders`. -/
def scheduleReminders (env : Ambient) (db : Database) (now : Time) (interval : Duration) :
    Except SqlError Database :=
  (dueReminders env db now).zipIdx.foldlM
    (remind env now (if interval ≤ 0 then 2 * hour else interval)) db

/-! ## `Cleanup` (repository.go:767-774) -/

/-- `status IN ('succeeded','permanent_failure','cancelled')`. -/
def DeliveryStatus.finished : DeliveryStatus → Bool
  | .succeeded | .permanentFailure | .cancelled => true
  | .pending | .inProgress => false

/-- `status IN (…) AND completed_at<?`. -/
def expired (now : Time) (d : DeliveryRow) : Bool :=
  d.status.finished && d.completedAt.any fun at_ => at_ < unix (now - 90 * 24 * hour)

/-- `status='resolved' AND resolved_at<?`. -/
def forgotten (now : Time) (i : IncidentRow) : Bool :=
  i.status = .resolved && i.resolvedAt.any fun at_ => at_ < unix (now - 365 * 24 * hour)

/-- The first statement of `Cleanup`. -/
def cleanupDeliveries (db : Database) (now : Time) : Database :=
  { db with deliveries := db.deliveries.delete (expired now) }

/-- Whether the second statement of `Cleanup` deletes the incident. -/
def forgets (db : Database) (now : Time) (incidentID : String) : Bool :=
  db.incidents.rows.any fun i => forgotten now i && i.id = incidentID

/-- The second statement of `Cleanup`: memberships go with their incident
(`ON DELETE CASCADE`), deliveries lose it (`ON DELETE SET NULL`). -/
def cleanupIncidents (db : Database) (now : Time) : Database :=
  { db with
    incidents := db.incidents.delete (forgotten now)
    incidentAlerts := db.incidentAlerts.delete fun m => forgets db now m.incidentId
    deliveries := db.deliveries.update (fun d => d.incidentId.any (forgets db now))
      (fun d => { d with incidentId := none }) (fun _ => rfl) }

/-- `Cleanup`. -/
def cleanup (db : Database) (now : Time) : Database :=
  cleanupIncidents (cleanupDeliveries db now) now

/-! ## What the API calls -/

/-- `SET status='pending',attempt_count=0,started_at=NULL,…`. -/
def retryDelivery (now : Time) (d : DeliveryRow) : DeliveryRow :=
  { d with
    status := .pending
    attemptCount := 0
    startedAt := none
    nextAttemptAt := some (unix now)
    failureCode := none
    completedAt := none
    updatedAt := unix now }

/-- `WHERE id=? AND status='permanent_failure'`. -/
def failedForGood (id : String) (d : DeliveryRow) : Bool :=
  d.id = id && d.status = .permanentFailure

/-- `Retry` (repository.go:742-753). -/
def retry (db : Database) (id : String) (now : Time) : Except SqlError Database :=
  if db.deliveries.rows.any (failedForGood id) then
    .ok { db with
      deliveries := db.deliveries.update (failedForGood id) (retryDelivery now) (fun _ => rfl) }
  else
    .error .noRows

/-- The row `Test` queues: it belongs to no incident. -/
def testDelivery (env : Ambient) (channelID : String) (now : Time) : DeliveryRow where
  id := "del_" ++ env.ids 0
  channelId := channelID
  incidentId := none
  eventType := .test
  payload :=
    { eventType := .test, deliveryId := "del_" ++ env.ids 0
      idempotencyKey := "idem_" ++ env.ids 1, incident := none }
  idempotencyKey := "idem_" ++ env.ids 1
  status := .pending
  attemptCount := 0
  nextAttemptAt := some (unix now)
  startedAt := none
  completedAt := none
  failureCode := none
  createdAt := unix now
  updatedAt := unix now

/-- `Channels` lists what is not deleted. -/
def channelListed (db : Database) (id : String) : Bool :=
  db.channels.rows.any fun ch => ch.id = id && ch.deletedAt = none

/-- `Test` (repository.go:754-765). -/
def test (env : Ambient) (db : Database) (channelID : String) (now : Time) :
    Except SqlError Database :=
  if channelListed db channelID then insertDelivery db (testDelivery env channelID now)
  else .error .noRows

/-- `UPDATE notification_deliveries SET status='cancelled',… WHERE channel_id=?
AND status='pending'`. -/
def cancelPending (db : Database) (channelID : String) (now : Time) : Database :=
  cancelDeliveries db now fun d => d.channelId = channelID && d.status = .pending

/-- `CreateChannel` (repository.go:513-554): the columns of an accepted channel. -/
def createChannel (db : Database) (id : String) (enabled : Bool) (minimumSeverity : Level)
    (notifyResolved : Bool) : Except SqlError Database :=
  if 32 ≤ (db.channels.rows.filter fun ch => ch.deletedAt = none).length then
    .error (.check "notification channel limit reached")
  else
    match db.channels.insert
      { id, enabled, minimumSeverity, notifyResolved, deletedAt := none } with
    | none => .error (.unique "notification_channels.id")
    | some channels => .ok { db with channels }

/-- The transaction of `PatchChannel` (repository.go:625-640). -/
def patchChannel (db : Database) (id : String) (enabled : Bool) (minimumSeverity : Level)
    (notifyResolved : Bool) (now : Time) : Except SqlError Database :=
  if channelListed db id then
    let db := { db with
      channels := db.channels.update (fun ch => ch.id = id && ch.deletedAt = none)
        (fun ch => { ch with enabled, minimumSeverity, notifyResolved }) (fun _ => rfl) }
    .ok (if enabled then db else cancelPending db id now)
  else
    .error .noRows

/-- `DeleteChannel` (repository.go:678-699). -/
def deleteChannel (db : Database) (id : String) (now : Time) : Except SqlError Database :=
  if channelListed db id then
    let db := { db with
      channels := db.channels.update (fun ch => ch.id = id && ch.deletedAt = none)
        (fun ch => { ch with enabled := false, deletedAt := some (unix now) }) (fun _ => rfl) }
    .ok (cancelPending db id now)
  else
    .error .noRows

/-! ## What these calls leave -/

variable {db db' : Database} {now : Time} {minimumSeverity : Level} {notifyResolved : Bool}

theorem retry_ok {id : String} (h : retry db id now = .ok db') :
    db' = { db with
      deliveries :=
        db.deliveries.update (failedForGood id) (retryDelivery now) (fun _ => rfl) } := by
  unfold retry at h
  split at h
  · cases h
    rfl
  · cases h

theorem test_ok {env : Ambient} {channelID : String} (h : test env db channelID now = .ok db') :
    insertDelivery db (testDelivery env channelID now) = .ok db' := by
  unfold test at h
  split_ifs at h
  exact h

theorem createChannel_ok {id : String} {enabled : Bool}
    (h : createChannel db id enabled minimumSeverity notifyResolved = .ok db') :
    db' = { db with channels := db'.channels } := by
  unfold createChannel at h
  split at h
  · cases h
  · split at h
    · cases h
    · cases h
      rfl

/-- A channel operation rewrites the channel, and cancels what waits for one it
disables. -/
theorem patchChannel_ok {id : String} {enabled : Bool}
        (h : patchChannel db id enabled minimumSeverity notifyResolved now = .ok db') :
    ∃ channels, (enabled = true ∧ db' = { db with channels }) ∨
      (enabled = false ∧ db' = cancelPending { db with channels } id now) := by
  unfold patchChannel at h
  split at h
  · cases h
    cases enabled with
    | true => exact ⟨_, .inl ⟨rfl, rfl⟩⟩
    | false => exact ⟨_, .inr ⟨rfl, rfl⟩⟩
  · cases h

theorem deleteChannel_ok {id : String} (h : deleteChannel db id now = .ok db') :
    ∃ channels, db' = cancelPending { db with channels } id now := by
  unfold deleteChannel at h
  split at h
  · cases h
    exact ⟨_, rfl⟩
  · cases h

end Binnacle.Notifications
