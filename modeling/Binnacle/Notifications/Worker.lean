import Binnacle.Channel
import Binnacle.Notifications.History

/-!
# The notification worker (`internal/notifications/worker.go`)

A dispatcher asks the database for due deliveries and offers their ids to a
bounded queue; any number of workers take ids from it. A worker claims the row
with one conditional `UPDATE`, reads it back, sends it and writes the outcome.
Between any two of these statements anything else may happen, so each is a
`Move` of its own.

`Service` is the database, the dispatcher, the workers and, for the statements
about what receivers see, the requests issued so far.
-/

namespace Binnacle.Notifications

open Relational Runs Concurrent Alerts Storage

/-! ## The statements -/

/-- Whether another delivery of the same incident and channel is being sent. A
null incident equals no other. -/
def occupied (db : Database) (d : DeliveryRow) : Bool :=
  db.deliveries.rows.any fun active => active.channelId = d.channelId
    && active.incidentId.isSome && active.incidentId = d.incidentId
    && active.id ≠ d.id && active.status = .inProgress

/-- `status='pending' AND next_attempt_at<=?`. -/
def dueAt (now : Time) (d : DeliveryRow) : Bool :=
  d.status = .pending && d.nextAttemptAt.any fun at_ => at_ ≤ unix now

/-- The query of `dispatch` (worker.go:139). -/
def dueIds (order : RowOrder) (db : Database) (now : Time) (limit : Nat) : List String :=
  (((order.arrange db.deliveries.rows).filter fun d => dueAt now d && !occupied db d).insertionSort
    fun d e => d.nextAttemptAt.getD 0 ≤ e.nextAttemptAt.getD 0).take limit |>.map DeliveryRow.id

/-- Whether the `UPDATE` of `deliver` touches the row (worker.go:203). -/
def claimable (db : Database) (now : Time) (id : String) (d : DeliveryRow) : Bool :=
  d.id = id && dueAt now d && !occupied db d

/-- `SET status='in_progress',started_at=?,updated_at=?`. -/
def startDelivery (now : Time) (d : DeliveryRow) : DeliveryRow :=
  { d with status := .inProgress, startedAt := some (unix now), updatedAt := unix now }

/-- The claim of `deliver`. -/
def claimDelivery (db : Database) (id : String) (now : Time) : Database :=
  { db with
    deliveries := db.deliveries.update (claimable db now id) (startDelivery now) (fun _ => rfl) }

/-- `deliveryRow` (worker.go:196-199): what a worker reads back. -/
structure Parcel where
  id : String
  channelId : String
  event : DeliveryEvent
  payload : Payload
  key : String
  attempt : Nat
  deriving DecidableEq

/-- The columns of a row that `deliver` scans. -/
def parcelOf (d : DeliveryRow) : Parcel where
  id := d.id
  channelId := d.channelId
  event := d.eventType
  payload := d.payload
  key := d.idempotencyKey
  attempt := d.attemptCount

/-- The row joined with its channel, if that is still enabled (worker.go:213). -/
def loadDelivery (db : Database) (id : String) : Option Parcel :=
  (db.deliveries.find? id).bind fun d =>
    if db.channels.rows.any fun ch => ch.id = d.channelId && ch.enabled && ch.deletedAt = none then
      some (parcelOf d)
    else none

structure Outcome where
  retryable : Bool
  code : String
  retryAfter : Duration
  deriving DecidableEq

/-- `code == ""`. -/
def Outcome.success (o : Outcome) : Bool := o.code = ""

/-- `retryDelays` (worker.go:55). -/
def retryDelays : List Duration :=
  [minute, 5 * minute, 15 * minute, hour, 4 * hour, 12 * hour]

/-- `retryDelay` (worker.go:460-469). -/
def retryDelay (attempt : Nat) (retryable : Bool) (retryAfter : Duration) : Option Duration :=
  if !retryable || attempt < 1 || retryDelays.length < attempt then none
  else
    (retryDelays[attempt - 1]?).map fun delay =>
      if retryAfter > delay then min retryAfter hour else delay

/-- The row after `finish` (worker.go:450-458). -/
def finishDelivery (attempts : Nat) (o : Outcome) (now : Time) (d : DeliveryRow) : DeliveryRow :=
  if o.success then
    { d with
      status := .succeeded
      attemptCount := attempts
      completedAt := some (unix now)
      nextAttemptAt := none
      failureCode := none
      updatedAt := unix now }
  else
    match retryDelay attempts o.retryable o.retryAfter with
    | some delay =>
      { d with
        status := .pending
        attemptCount := attempts
        startedAt := none
        nextAttemptAt := some (unix (now + delay))
        failureCode := some o.code
        updatedAt := unix now }
    | none =>
      { d with
        status := .permanentFailure
        attemptCount := attempts
        completedAt := some (unix now)
        nextAttemptAt := none
        failureCode := some o.code
        updatedAt := unix now }

theorem finishDelivery_id (attempts : Nat) (o : Outcome) (now : Time) (d : DeliveryRow) :
    (finishDelivery attempts o now d).id = d.id := by
  unfold finishDelivery
  split
  · rfl
  · split <;> rfl

/-- `UPDATE notification_deliveries SET … WHERE id=?`. -/
def writeOutcome (db : Database) (id : String) (attempts : Nat) (o : Outcome) (now : Time) :
    Database :=
  { db with
    deliveries := db.deliveries.update (fun d => d.id = id) (finishDelivery attempts o now)
      (finishDelivery_id attempts o now) }

/-- The first statement of `Start` (worker.go:100): attempts of an earlier
process are due again. -/
def recoverDeliveries (db : Database) (now : Time) : Database :=
  { db with
    deliveries := db.deliveries.update (fun d => d.status = .inProgress)
      (fun d => { d with
        status := .pending
        startedAt := none
        nextAttemptAt := some (unix now)
        updatedAt := unix now }) (fun _ => rfl) }

/-- `recordOverflow` (worker.go:177-180): `INSERT OR IGNORE`, one row a minute. -/
def recordOverflow (db : Database) (now : Time) : Database :=
  { db with
    events := db.events.insertOrIgnore
      { id := "notification-overflow-" ++ toString (unix now / 60)
        ts := unixMilli now
        type := "notification_queue_overflow"
        severity := "warning"
        summary := "Notification queue capacity exceeded"
        correlationKey := some "notifications:overflow"
        source := "notifications"
        createdAt := unixMilli now } }

/-! ## The service -/

/-- Where a worker stands in `run` and `deliver`. -/
inductive Phase where
  | idle
  /-- It received the id from the queue. -/
  | taken (id : String)
  | claimed (id : String)
  /-- It read the row; nothing is sent yet. -/
  | loaded (p : Parcel)
  /-- The request is issued. -/
  | sending (p : Parcel)
  /-- `finish` is called. -/
  | finishing (id : String) (o : Outcome)
  /-- `finish` has read the attempts. -/
  | counted (id : String) (o : Outcome) (attempts : Nat)
  /-- `deliver` returned. -/
  | delivered (id : String)
  deriving DecidableEq

/-- Database, dispatcher and workers of one process, and every request issued
so far, in order. -/
structure Service (capacity : Nat) where
  db : Database
  queue : Channel String capacity
  queued : Finset String
  offering : List String
  dropped : Nat
  workers : Nat → Phase
  sent : List Parcel

inductive Change where
  | transact (t : Transaction)
  /-- Anything the application writes to other tables. -/
  | elsewhere (db : Database)
  | createChannel (id : String) (enabled : Bool) (minimumSeverity : Level) (notifyResolved : Bool)
  | patchChannel (id : String) (enabled : Bool) (minimumSeverity : Level) (notifyResolved : Bool)
      (now : Time)
  | deleteChannel (id : String) (now : Time)
  | test (env : Ambient) (channelID : String) (now : Time)
  | retry (id : String) (now : Time)

inductive Move where
  | write (c : Change)
  /-- The process ends, wherever it is, and `Start` runs in the next one. -/
  | restart (r : Repository) (env : Ambient) (now : Time)
  /-- The dispatcher asks for due deliveries. -/
  | query (order : RowOrder) (now : Time)
  | offer (now : Time)
  | take (k : Nat)
  | claim (k : Nat) (now : Time)
  | load (k : Nat)
  | refuse (k : Nat) (code : String)
  | send (k : Nat)
  | respond (k : Nat) (o : Outcome)
  | count (k : Nat)
  | finish (k : Nat) (now : Time)
  | release (k : Nat)

/-- One transaction of `Change`. -/
def Change.run (db : Database) : Change → Except SqlError Database
  | .transact t => t.run db
  | .elsewhere db' => .ok db'
  | .createChannel id enabled minimumSeverity notifyResolved =>
    Notifications.createChannel db id enabled minimumSeverity notifyResolved
  | .patchChannel id enabled minimumSeverity notifyResolved now =>
    Notifications.patchChannel db id enabled minimumSeverity notifyResolved now
  | .deleteChannel id now => Notifications.deleteChannel db id now
  | .test env channelID now => Notifications.test env db channelID now
  | .retry id now => Notifications.retry db id now

variable {capacity : Nat}

def Service.start (db : Database) : Service capacity where
  db
  queue := Channel.make
  queued := ∅
  offering := []
  dropped := 0
  workers := fun _ => .idle
  sent := []

/-- A transaction, rolled back when a statement fails. -/
def Service.attempt (w : Service capacity) (x : Except SqlError Database) : Service capacity :=
  match x with
  | .ok db => { w with db }
  | .error _ => w

/-- Worker `k` enters a phase. -/
def Service.enter (w : Service capacity) (k : Nat) (phase : Phase) : Service capacity :=
  { w with workers := Function.update w.workers k phase }

/-- The next turn of `enqueueDue` (worker.go:155-175). -/
def Service.offerNext (w : Service capacity) (now : Time) : Service capacity :=
  match w.offering with
  | [] => w
  | id :: rest =>
    if id ∈ w.queued then { w with offering := rest }
    else
      match w.queue.trySend id with
      | some queue => { w with queue, queued := insert id w.queued, offering := rest }
      | none =>
        { w with db := recordOverflow w.db now, dropped := w.dropped + 1, offering := rest }

/-- `id := <-w.queue` (worker.go:187). -/
def Service.take (w : Service capacity) (k : Nat) : Service capacity :=
  match w.workers k, w.queue.receive with
  | .idle, some (id, queue) => { w with queue }.enter k (.taken id)
  | _, _ => w

/-- The claim, and whether it touched a row (worker.go:203-211). -/
def Service.claim (w : Service capacity) (k : Nat) (now : Time) : Service capacity :=
  match w.workers k with
  | .taken id =>
    if w.db.deliveries.rows.any (claimable w.db now id) then
      { w with db := claimDelivery w.db id now }.enter k (.claimed id)
    else w.enter k (.delivered id)
  | _ => w

/-- The row is read back (worker.go:212-220). -/
def Service.load (w : Service capacity) (k : Nat) : Service capacity :=
  match w.workers k with
  | .claimed id =>
    match loadDelivery w.db id with
    | some p => w.enter k (.loaded p)
    | none => w.enter k (.finishing id ⟨false, "channel_unavailable", 0⟩)
  | _ => w

/-- Secrets, configuration or the outbound policy end the attempt before a
request is issued (worker.go:223-247, 252-259). -/
def Service.refuse (w : Service capacity) (k : Nat) (code : String) : Service capacity :=
  match w.workers k with
  | .loaded p => w.enter k (.finishing p.id ⟨false, code, 0⟩)
  | _ => w

/-- The request is issued. -/
def Service.send (w : Service capacity) (k : Nat) : Service capacity :=
  match w.workers k with
  | .loaded p => { w with sent := w.sent ++ [p] }.enter k (.sending p)
  | _ => w

/-- The answer, or the failure, of the request. -/
def Service.respond (w : Service capacity) (k : Nat) (o : Outcome) : Service capacity :=
  match w.workers k with
  | .sending p => w.enter k (.finishing p.id o)
  | _ => w

/-- `SELECT attempt_count+1` of `finish` (worker.go:447-449). -/
def Service.count (w : Service capacity) (k : Nat) : Service capacity :=
  match w.workers k with
  | .finishing id o =>
    match w.db.deliveries.find? id with
    | some d => w.enter k (.counted id o (d.attemptCount + 1))
    | none => w.enter k (.delivered id)
  | _ => w

/-- The `UPDATE` of `finish`. -/
def Service.finish (w : Service capacity) (k : Nat) (now : Time) : Service capacity :=
  match w.workers k with
  | .counted id o attempts =>
    { w with db := writeOutcome w.db id attempts o now }.enter k (.delivered id)
  | _ => w

/-- `delete(w.queued,id)` (worker.go:189-191). -/
def Service.release (w : Service capacity) (k : Nat) : Service capacity :=
  match w.workers k with
  | .delivered id => { w with queued := w.queued.erase id }.enter k .idle
  | _ => w

/-- A new process: the rows in progress are due again, then `Reconcile`
(worker.go:95-114). -/
def Service.restart (w : Service capacity) (r : Repository) (env : Ambient) (now : Time) :
    Service capacity :=
  { Service.start (recoverDeliveries w.db now) with sent := w.sent }.attempt
    (reconcile r env (recoverDeliveries w.db now) now)

def Service.step (w : Service capacity) : Move → Service capacity
  | .write c => w.attempt (c.run w.db)
  | .restart r env now => w.restart r env now
  | .query order now =>
    if w.offering = [] then { w with offering := dueIds order w.db now (capacity + 1) } else w
  | .offer now => w.offerNext now
  | .take k => w.take k
  | .claim k now => w.claim k now
  | .load k => w.load k
  | .refuse k code => w.refuse k code
  | .send k => w.send k
  | .respond k o => w.respond k o
  | .count k => w.count k
  | .finish k now => w.finish k now
  | .release k => w.release k

/-! ## What can be assumed of a move -/

def Service.mentioned (w : Service capacity) : List String :=
  (w.sent.map Parcel.payload ++ w.db.deliveries.rows.map DeliveryRow.payload).filterMap
    fun p => p.incident.map Incident.id

/-- No draw of the call occurs in the database or in a message. -/
structure FreshFor (env : Ambient) (w : Service capacity) : Prop where
  db : Fresh env w.db
  keys : ∀ n, ∀ p ∈ w.sent, p.key ≠ "idem_" ++ env.ids n
  incidents : ∀ n, ∀ id ∈ w.mentioned, id ≠ "inc_" ++ env.ids n

def Change.Enabled (w : Service capacity) : Change → Prop
  | .transact (.fire _ env _) => FreshFor env w
  | .transact (.resolve env _) => FreshFor env w
  | .transact (.reconcile _ env _) => FreshFor env w
  | .transact (.scheduleReminders env _ _) => FreshFor env w
  | .test env _ _ => FreshFor env w
  | .elsewhere db => db.alerts = w.db.alerts ∧ db.incidents = w.db.incidents ∧
      db.incidentAlerts = w.db.incidentAlerts ∧ db.channels = w.db.channels ∧
      db.deliveries = w.db.deliveries
  | _ => True

def Move.Enabled (w : Service capacity) : Move → Prop
  | .write c => c.Enabled w
  | .restart _ env _ => FreshFor env w
  | .refuse _ code => code ≠ ""
  | _ => True

def services (capacity : Nat) : System (Service capacity) Move :=
  .ofStep (Service.start Database.empty) Service.step Move.Enabled

end Binnacle.Notifications
