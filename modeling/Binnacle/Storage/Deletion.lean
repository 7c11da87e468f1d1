import Binnacle.Relational.Slot
import Binnacle.Storage.Writer

/-!
# History deletion (`internal/storage/deletion.go`)

A deletion is previewed, confirmed and then run by a worker of its own. The
worker takes no transaction: it reads and writes the job and deletes 500 rows
at a time, every statement committed by itself. `Phase` is its place between two
statements, with what its local variables hold, and `work` runs the next one.

Other calls run between any two of them: a cancellation, a retry, a new job, a
restart of the process, and the writes of everything else.

- `Jobs` carries the index that allows one active job;
- `deleteBatch` and `deleteMetadataBatch` are the two `DELETE` statements.
-/

namespace Binnacle.Storage

open Relational

/-! ## Tables -/

/-- `network_interface_samples_1m` (012_broaden_host_telemetry.sql); no statement
writes it. -/
structure NetworkSample where
  ts : Int
  hostId : String
  interfaceName : String

/-- `PRIMARY KEY(host_id, interface_name, ts)`. -/
def NetworkSample.key (s : NetworkSample) : String × String × Int :=
  (s.hostId, s.interfaceName, s.ts)

/-- `boot_sessions` (002_hosts.sql). -/
structure BootSessionRow where
  id : Int
  hostId : String
  bootIdentity : String

/-- `DeletionKind` (deletion.go:18-25). -/
inductive DeletionKind where
  | resource | before | all | archivedResource
  deriving DecidableEq

/-- The `state` column of a job. -/
inductive JobState where
  | queued | running | cancelling | cancelled | failed | completed
  deriving DecidableEq

/-- `state IN ('queued','running','cancelling')`. -/
def JobState.active : JobState → Bool
  | .queued | .running | .cancelling => true
  | _ => false

inductive HistoryTable where
  | hostSamples
  | hostRollups (tier : Tier)
  | collectorStateEvents
  | instanceSamples
  | resourceSamples
  | resourceRollups (tier : Tier)
  | events
  | filesystemSamples
  | networkSamples
  deriving DecidableEq

inductive MetadataTable where
  | containerInstances | resources | bootSessions | hosts
  deriving DecidableEq

inductive DeletionTable where
  | history (table : HistoryTable)
  | metadata (table : MetadataTable)
  deriving DecidableEq

/-- `history_deletion_previews` (007_history_auth_deletion.sql). -/
structure DeletionPreviewRow where
  idHash : String
  kind : DeletionKind
  resourceId : Option String
  beforeTs : Option Int
  fenceTs : Int
  confirmation : String
  expiresAt : Int
  usedAt : Option Int

/-- `history_deletion_jobs`; `errorMessage` is the error whose text is stored. -/
structure DeletionJobRow where
  id : String
  kind : DeletionKind
  resourceId : Option String
  beforeTs : Option Int
  fenceTs : Int
  confirmation : String
  state : JobState
  requestedBy : Option String
  requestedAt : Int
  startedAt : Option Int := none
  finishedAt : Option Int := none
  totalRows : Nat
  deletedRows : Nat := 0
  currentTable : Option DeletionTable := none
  errorMessage : Option SqlError := none
  deriving DecidableEq

/-- `one_active_history_deletion`. -/
def OneActive (rows : List DeletionJobRow) : Prop :=
  ∀ j ∈ rows, ∀ k ∈ rows, j.state.active = true → k.state.active = true → j.id = k.id

instance (rows : List DeletionJobRow) : Decidable (OneActive rows) :=
  inferInstanceAs (Decidable (∀ j ∈ rows, ∀ k ∈ rows,
    j.state.active = true → k.state.active = true → j.id = k.id))

structure Jobs where
  table : Table DeletionJobRow.id
  oneActive : OneActive table.rows

def Jobs.commit (table : Table DeletionJobRow.id) : Except SqlError Jobs :=
  if h : OneActive table.rows then .ok ⟨table, h⟩
  else .error (.unique "one_active_history_deletion")

/-- `UPDATE history_deletion_jobs SET … WHERE …`. -/
def Jobs.update (jobs : Jobs) (p : DeletionJobRow → Bool) (f : DeletionJobRow → DeletionJobRow)
    (hf : ∀ j, (f j).id = j.id) : Except SqlError Jobs :=
  Jobs.commit (jobs.table.update p f hf)

structure Store where
  db : Database
  networkSamples : Table NetworkSample.key := .empty
  bootSessions : Table BootSessionRow.id := .empty
  previews : Table DeletionPreviewRow.idHash := .empty
  jobs : Jobs

def Store.new (db : Database) : Store where
  db := db
  jobs := ⟨.empty, fun _ hj => absurd hj List.not_mem_nil⟩

def HistoryTable.slot : HistoryTable → Slot Store
  | .hostSamples => ⟨HostSample, _, HostSample.key, inferInstance, fun s => s.db.hostSamples,
      fun s t => { s with db := { s.db with hostSamples := t } }, fun _ _ => rfl⟩
  | .hostRollups tier => ⟨HostRollup, _, HostRollup.ts, inferInstance,
      fun s => s.db.hostRollups tier,
      fun s t => { s with db := { s.db with
        hostRollups := Function.update s.db.hostRollups tier t } },
      fun _ _ => Function.update_self ..⟩
  | .collectorStateEvents => ⟨CollectorStateEvent, _, CollectorStateEvent.id, inferInstance,
      fun s => s.db.collectorStateEvents,
      fun s t => { s with db := { s.db with collectorStateEvents := t } }, fun _ _ => rfl⟩
  | .instanceSamples => ⟨InstanceSample, _, InstanceSample.key, inferInstance,
      fun s => s.db.instanceSamples,
      fun s t => { s with db := { s.db with instanceSamples := t } }, fun _ _ => rfl⟩
  | .resourceSamples => ⟨ResourceSample, _, ResourceSample.key, inferInstance,
      fun s => s.db.resourceSamples,
      fun s t => { s with db := { s.db with resourceSamples := t } }, fun _ _ => rfl⟩
  | .resourceRollups tier => ⟨ResourceRollup, _, ResourceRollup.key, inferInstance,
      fun s => s.db.resourceRollups tier,
      fun s t => { s with db := { s.db with
        resourceRollups := Function.update s.db.resourceRollups tier t } },
      fun _ _ => Function.update_self ..⟩
  | .events => ⟨EventRow, _, EventRow.id, inferInstance, fun s => s.db.events,
      fun s t => { s with db := { s.db with events := t } }, fun _ _ => rfl⟩
  | .filesystemSamples => ⟨FilesystemSample, _, FilesystemSample.key, inferInstance,
      fun s => s.db.filesystemSamples,
      fun s t => { s with db := { s.db with filesystemSamples := t } }, fun _ _ => rfl⟩
  | .networkSamples => ⟨NetworkSample, _, NetworkSample.key, inferInstance,
      fun s => s.networkSamples, fun s t => { s with networkSamples := t }, fun _ _ => rfl⟩

def MetadataTable.slot : MetadataTable → Slot Store
  | .containerInstances => ⟨ContainerInstanceRow, _, ContainerInstanceRow.id, inferInstance,
      fun s => s.db.containerInstances,
      fun s t => { s with db := { s.db with containerInstances := t } }, fun _ _ => rfl⟩
  | .resources => ⟨ResourceRow, _, ResourceRow.id, inferInstance, fun s => s.db.resources,
      fun s t => { s with db := { s.db with resources := t } }, fun _ _ => rfl⟩
  | .bootSessions => ⟨BootSessionRow, _, BootSessionRow.id, inferInstance,
      fun s => s.bootSessions, fun s t => { s with bootSessions := t }, fun _ _ => rfl⟩
  | .hosts => ⟨HostRow, _, HostRow.id, inferInstance, fun s => s.db.hosts,
      fun s t => { s with db := { s.db with hosts := t } }, fun _ _ => rfl⟩

structure HistoryRow where
  ts : Int
  resourceId : Option String := none
  containerInstanceId : Option String := none

def HistoryTable.columns : (table : HistoryTable) → table.slot.Row → HistoryRow
  | .hostSamples => fun r : HostSample => { ts := r.ts }
  | .hostRollups _ => fun r : HostRollup => { ts := r.ts }
  | .collectorStateEvents => fun r : CollectorStateEvent => { ts := r.ts }
  | .instanceSamples => fun r : InstanceSample =>
      { ts := r.ts, containerInstanceId := some r.containerInstanceId }
  | .resourceSamples => fun r : ResourceSample => { ts := r.ts, resourceId := some r.resourceId }
  | .resourceRollups _ => fun r : ResourceRollup => { ts := r.ts, resourceId := some r.resourceId }
  | .events => fun r : EventRow =>
      { ts := r.ts, resourceId := r.resourceId, containerInstanceId := r.containerInstanceId }
  | .filesystemSamples => fun r : FilesystemSample => { ts := r.ts }
  | .networkSamples => fun r : NetworkSample => { ts := r.ts }

/-! ## The statements of a job -/

/-- What a job deletes, as `RunDeletion` passes it on: `NULL` is `""` or 0. -/
structure Scope where
  kind : DeletionKind
  resource : String
  before : Int
  fence : Int
  deriving DecidableEq

/-- The columns of a job that `RunDeletion` reads (deletion.go:166). -/
def DeletionJobRow.scope (j : DeletionJobRow) : Scope where
  kind := j.kind
  resource := j.resourceId.getD ""
  before := j.beforeTs.getD 0
  fence := j.fenceTs

/-- `deletionTables` (deletion.go:248-254). -/
def deletionTables (kind : DeletionKind) : List HistoryTable :=
  let tables := [.instanceSamples, .resourceSamples, .resourceRollups .oneMinute,
    .resourceRollups .fifteenMinute, .resourceRollups .oneHour, .events]
  if kind = .before ∨ kind = .all then
    [.hostSamples, .hostRollups .oneMinute, .hostRollups .fifteenMinute, .hostRollups .oneHour,
      .collectorStateEvents] ++ tables
  else tables

/-- `metadataDeletionTables` (deletion.go:339-347). -/
def metadataDeletionTables : DeletionKind → List MetadataTable
  | .archivedResource => [.containerInstances, .resources]
  | .all => [.containerInstances, .resources, .bootSessions, .hosts]
  | _ => []

/-- `resourceScopedTable` (deletion.go:336-338). -/
def resourceScopedTable : HistoryTable → Bool
  | .resourceSamples | .resourceRollups _ | .events => true
  | _ => false

/-- `kind == DeleteResource || kind == DeleteArchived`. -/
def DeletionKind.ofResource : DeletionKind → Bool
  | .resource | .archivedResource => true
  | _ => false

/-- The container is one of the resource's (the join of deletion.go:263). -/
def containerOf (s : Store) (resource : String) (r : HistoryRow) : Bool :=
  s.db.containerInstances.rows.any fun c =>
    some c.id = r.containerInstanceId && c.resourceId = some resource

/-- The `WHERE` clause of `deleteBatch` (deletion.go:255-275). -/
def batchSelects (scope : Scope) (s : Store) (table : HistoryTable) (r : HistoryRow) : Bool :=
  if scope.kind.ofResource && table = .instanceSamples then
    r.ts ≤ scope.fence && containerOf s scope.resource r
  else
    (if scope.kind = .before then r.ts < scope.before else r.ts ≤ scope.fence)
      && (!(scope.kind.ofResource && resourceScopedTable table)
        || r.resourceId = some scope.resource)

/-- `deleteBatch` (deletion.go:255-280). -/
def deleteBatch (order : RowOrder) (scope : Scope) (table : HistoryTable) (s : Store) : Store :=
  table.slot.deleteSome order 500 (fun r => batchSelects scope s table (table.columns r)) s

/-- The `WHERE` clause of `deleteMetadataBatch` (deletion.go:348-358). -/
def metadataSelects (scope : Scope) : (table : MetadataTable) → table.slot.Row → Bool
  | .containerInstances => fun r : ContainerInstanceRow =>
      scope.kind ≠ .archivedResource || r.resourceId = some scope.resource
  | .resources => fun r : ResourceRow =>
      scope.kind ≠ .archivedResource || (r.id = scope.resource && r.status = "archived")
  | .bootSessions => fun _ => true
  | .hosts => fun _ => true

def lostResource (s s' : Store) (id : String) : Bool :=
  s.db.resources.has id && !s'.db.resources.has id

def lostHost (s s' : Store) (id : String) : Bool := s.db.hosts.has id && !s'.db.hosts.has id

/-- The foreign keys of the tables that name resources and hosts, checked at the
end of a `DELETE` (002, 003, 015); those of `deployment_grace_periods` cascade. -/
def checkReferences (s s' : Store) : Except SqlError Store :=
  if s'.db.containerInstances.rows.any fun c => c.resourceId.any (lostResource s s') then
    .error (.foreignKey "container_instances.resource_id")
  else if s'.db.healthChecks.rows.any fun h => lostResource s s' h.resourceId then
    .error (.foreignKey "health_checks.resource_id")
  else if s'.db.resources.rows.any fun r => lostHost s s' r.hostId then
    .error (.foreignKey "resources.host_id")
  else if s'.bootSessions.rows.any fun b => lostHost s s' b.hostId then
    .error (.foreignKey "boot_sessions.host_id")
  else
    .ok { s' with db := { s'.db with
      gracePeriods := s'.db.gracePeriods.delete fun g => lostResource s s' g.resourceId } }

/-- `deleteMetadataBatch` (deletion.go:348-364). -/
def deleteMetadataBatch (order : RowOrder) (scope : Scope) (table : MetadataTable) (s : Store) :
    Except SqlError Store :=
  checkReferences s (table.slot.deleteSome order 500 (metadataSelects scope table) s)

/-- The batch of one turn of the loops of `RunDeletion`, with its `RowsAffected`. -/
def batch (order : RowOrder) (scope : Scope) (s : Store) :
    DeletionTable → Except SqlError (Store × Nat)
  | .history table =>
    let s' := deleteBatch order scope table s
    .ok (s', table.slot.affected s s')
  | .metadata table => do
    let s' ← deleteMetadataBatch order scope table s
    return (s', table.slot.affected s s')

/-- The rows `deletionCountTx` counts in a table of metadata (deletion.go:316-333). -/
def metadataCount (scope : Scope) (s : Store) (table : MetadataTable) : Nat :=
  table.slot.count (metadataSelects scope table) s

/-- `deletionCountTx` (deletion.go:289-335). -/
def deletionCount (scope : Scope) (s : Store) : Nat :=
  ((deletionTables scope.kind).map fun table =>
    table.slot.count (fun r => batchSelects scope s table (table.columns r)) s).sum
  + ((metadataDeletionTables scope.kind).map (metadataCount scope s)).sum

/-! ## Previews and jobs -/

/-- Why a call is refused. -/
inductive DeletionError where
  /-- `resource id is required`. -/
  | resourceRequired
  /-- `before timestamp is required`. -/
  | beforeRequired
  /-- `resource not found`. -/
  | resourceNotFound
  /-- `resource is not archived`. -/
  | notArchived
  /-- `deletion preview is invalid`. -/
  | invalidPreview
  /-- `deletion confirmation is invalid`. -/
  | invalidConfirmation
  /-- `another history deletion is already active: …`. -/
  | alreadyActive (cause : SqlError)
  /-- `deletion job is not cancellable`. -/
  | notCancellable
  /-- `deletion job is not retryable`. -/
  | notRetryable
  | sql (cause : SqlError)

/-- `DeletionRequest` (deletion.go:27-31). -/
structure DeletionRequest where
  kind : DeletionKind
  resourceId : String := ""
  before : Time := zeroTime

/-- `validDeletion` (deletion.go:365-380). -/
def validDeletion (r : DeletionRequest) : Except DeletionError Unit :=
  match r.kind with
  | .resource | .archivedResource =>
    if r.resourceId.utf8ByteSize < 5 ∨ 128 < r.resourceId.utf8ByteSize
        ∨ !r.resourceId.startsWith "res_" then .error .resourceRequired else .ok ()
  | .before => if r.before = zeroTime then .error .beforeRequired else .ok ()
  | .all => .ok ()

/-- `confirmationFor` (deletion.go:381-392); `date` is Go's `Format("2006-01-02")`. -/
def confirmationFor (date : Time → String) (r : DeletionRequest) : String :=
  match r.kind with
  | .resource => "DELETE HISTORY " ++ r.resourceId
  | .archivedResource => "PURGE ARCHIVED " ++ r.resourceId
  | .before => "DELETE HISTORY BEFORE " ++ date r.before
  | .all => "RESET ALL HISTORY"

def checkResource (s : Store) (r : DeletionRequest) : Except DeletionError Unit :=
  if r.kind.ofResource then
    match s.db.resources.find? r.resourceId with
    | none => .error .resourceNotFound
    | some row =>
      if r.kind = .archivedResource ∧ row.status ≠ "archived" then .error .notArchived else .ok ()
  else .ok ()

/-- `PreviewDeletion` (deletion.go:50-89). Old previews are deleted in a statement
of its own, whose error is ignored. -/
def previewDeletion (hash : String → String) (date : Time → String) (order : RowOrder) (now : Time)
    (token : String) (r : DeletionRequest) (s : Store) : Except DeletionError Store := do
  validDeletion r
  checkResource s r
  let s := { s with previews := s.previews.deleteSome order 500 fun p =>
    p.expiresAt < unixMilli now || p.usedAt.any (· < unixMilli (now - 24 * hour)) }
  let fence := unixMilli now
  let before := if r.kind = .before ∧ fence < unixMilli r.before then fence else unixMilli r.before
  match s.previews.insert {
    idHash := hash token
    kind := r.kind
    resourceId := nullable r.resourceId
    beforeTs := if r.kind = .before then some before else none
    fenceTs := fence
    confirmation := confirmationFor date r
    expiresAt := unixMilli (now + 10 * minute)
    usedAt := none } with
  | some previews => .ok { s with previews }
  | none => .error (.sql (.unique "history_deletion_previews.id_hash"))

/-- The job that `CreateDeletion` inserts for a preview. -/
def newJob (p : DeletionPreviewRow) (id actor : String) (now : Time) (total : Nat) :
    DeletionJobRow where
  id := id
  kind := p.kind
  resourceId := p.resourceId
  beforeTs := p.beforeTs
  fenceTs := p.fenceTs
  confirmation := p.confirmation
  state := .queued
  requestedBy := nullable actor
  requestedAt := unixMilli now
  totalRows := total

def DeletionPreviewRow.scope (p : DeletionPreviewRow) : Scope where
  kind := p.kind
  resource := p.resourceId.getD ""
  before := p.beforeTs.getD 0
  fence := p.fenceTs

/-- `INSERT INTO history_deletion_jobs`. -/
def insertJob (jobs : Jobs) (j : DeletionJobRow) : Except SqlError Jobs :=
  match jobs.table.insert j with
  | none => .error (.unique "history_deletion_jobs.id")
  | some table => Jobs.commit table

/-- `CreateDeletion` (deletion.go:90-131), one transaction. -/
def createDeletion (hash : String → String) (now : Time) (token confirmation actor id : String)
    (s : Store) : Except DeletionError Store :=
  match s.previews.rows.find? fun p => p.idHash = hash token && p.usedAt = none with
  | none => .error .invalidPreview
  | some p =>
    if p.expiresAt ≤ unixMilli now ∨ confirmation ≠ p.confirmation then .error .invalidConfirmation
    else
      let j := newJob p id actor now 0
      match insertJob s.jobs { j with totalRows := deletionCount j.scope s } with
      | .error e => .error (.alreadyActive e)
      | .ok jobs => .ok { s with
          jobs
          previews := s.previews.update (fun q => q.idHash = hash token)
            (fun q => { q with usedAt := some (unixMilli now) }) (fun _ => rfl) }

def cancellable (id : String) (j : DeletionJobRow) : Bool :=
  j.id = id && (j.state = .queued || j.state = .running)

/-- `SET state=CASE WHEN state='queued' THEN 'cancelled' ELSE 'cancelling' END,…`. -/
def cancelJob (now : Time) (j : DeletionJobRow) : DeletionJobRow :=
  if j.state = .queued then { j with state := .cancelled, finishedAt := some (unixMilli now) }
  else { j with state := .cancelling }

theorem cancelJob_id (now : Time) (j : DeletionJobRow) : (cancelJob now j).id = j.id := by
  unfold cancelJob
  split <;> rfl

/-- `CancelDeletion` (deletion.go:139-149). -/
def cancelDeletion (id : String) (now : Time) (s : Store) : Except DeletionError Store :=
  match s.jobs.update (cancellable id) (cancelJob now) (cancelJob_id now) with
  | .error e => .error (.sql e)
  | .ok jobs =>
    if s.jobs.table.rows.countP (cancellable id) = 1 then .ok { s with jobs }
    else .error .notCancellable

def retryable (id : String) (j : DeletionJobRow) : Bool :=
  j.id = id && (j.state = .cancelled || j.state = .failed)

/-- `SET state='queued',error_message=NULL,finished_at=NULL`. -/
def requeueJob (j : DeletionJobRow) : DeletionJobRow :=
  { j with state := .queued, errorMessage := none, finishedAt := none }

/-- `RetryDeletion` (deletion.go:150-160). -/
def retryDeletion (id : String) (s : Store) : Except DeletionError Store :=
  match s.jobs.update (retryable id) requeueJob (fun _ => rfl) with
  | .error e => .error (.sql e)
  | .ok jobs =>
    if s.jobs.table.rows.countP (retryable id) = 1 then .ok { s with jobs }
    else .error .notRetryable

def Store.settle (s : Store) (result : Except SqlError Jobs) : Store :=
  match result with
  | .ok jobs => { s with jobs }
  | .error _ => s

/-- `recoverDeletionJobs` (deletion.go:240-247). -/
def recoverDeletionJobs (now : Time) (s : Store) : Store :=
  let s := s.settle (s.jobs.update (fun j => j.state = .running)
    (fun j => { j with state := .queued, startedAt := none, errorMessage := none }) (fun _ => rfl))
  s.settle (s.jobs.update (fun j => j.state = .cancelling)
    (fun j => { j with state := .cancelled, finishedAt := some (unixMilli now) }) (fun _ => rfl))

/-! ## The worker -/

/-- Where the worker is between two statements, with its local variables. A
`table` is the one the loops are at, `rest` those they come to afterwards. -/
inductive Phase where
  /-- About to look for a queued job (deletion.go:227). -/
  | idle
  /-- About to read the job (deletion.go:166). -/
  | picked (id : String)
  /-- About to mark the job as running (deletion.go:169). -/
  | loaded (id : String) (scope : Scope)
  /-- About to read the state of the job (deletion.go:176, 198). -/
  | checking (id : String) (scope : Scope) (table : DeletionTable) (rest : List DeletionTable)
      (deleted : Nat)
  /-- About to mark the job as cancelled (deletion.go:180, 202). -/
  | stopping (id : String)
  /-- About to delete a batch (deletion.go:183, 205). -/
  | sweeping (id : String) (scope : Scope) (table : DeletionTable) (rest : List DeletionTable)
      (deleted : Nat)
  /-- About to mark the job as failed (deletion.go:185, 207). -/
  | failing (id : String) (error : SqlError)
  /-- About to note the progress (deletion.go:189, 211). -/
  | counting (id : String) (scope : Scope) (table : DeletionTable) (rest : List DeletionTable)
      (deleted n : Nat)
  /-- About to mark the job as completed (deletion.go:217). -/
  | finishing (id : String) (deleted : Nat)
  deriving DecidableEq

def jobTables (kind : DeletionKind) : List DeletionTable :=
  (deletionTables kind).map .history ++ (metadataDeletionTables kind).map .metadata

def Phase.enter (id : String) (scope : Scope) (deleted : Nat) : List DeletionTable → Phase
  | [] => .finishing id deleted
  | table :: rest => .checking id scope table rest deleted

/-- The store with its worker. `batches` counts the batches of each job. -/
structure Deleter where
  store : Store
  phase : Phase := .idle
  batches : String → Nat := fun _ => 0

/-- `UPDATE history_deletion_jobs SET … WHERE id=?`. -/
def Store.updateJob (s : Store) (id : String) (f : DeletionJobRow → DeletionJobRow)
    (hf : ∀ j, (f j).id = j.id) : Except SqlError Jobs :=
  s.jobs.update (fun j => j.id = id) f hf

/-- `SET state='running',started_at=?`. -/
def startJob (now : Time) (j : DeletionJobRow) : DeletionJobRow :=
  { j with state := .running, startedAt := some (unixMilli now) }

/-- `SET state='cancelled',finished_at=?`. -/
def stopJob (now : Time) (j : DeletionJobRow) : DeletionJobRow :=
  { j with state := .cancelled, finishedAt := some (unixMilli now) }

/-- `SET state='failed',error_message=?,finished_at=?`. -/
def failJob (error : SqlError) (now : Time) (j : DeletionJobRow) : DeletionJobRow :=
  { j with state := .failed, errorMessage := some error, finishedAt := some (unixMilli now) }

/-- `SET deleted_rows=?,current_table=?`. -/
def noteProgress (deleted : Nat) (table : DeletionTable) (j : DeletionJobRow) : DeletionJobRow :=
  { j with deletedRows := deleted, currentTable := some table }

/-- `SET state='completed',deleted_rows=?,finished_at=?,current_table=NULL`. -/
def completeJob (deleted : Nat) (now : Time) (j : DeletionJobRow) : DeletionJobRow :=
  { j with
    state := .completed
    deletedRows := deleted
    finishedAt := some (unixMilli now)
    currentTable := none }

def nextJob (order : RowOrder) (s : Store) : Option DeletionJobRow :=
  (((order.arrange s.jobs.table.rows).filter fun j => j.state = .queued).insertionSort
    fun j k => j.requestedAt ≤ k.requestedAt).head?

/-- The next statement of `runDeletionWorker` and `RunDeletion`
(deletion.go:161-239). -/
def Deleter.work (w : Deleter) (order : RowOrder) (now : Time) : Deleter :=
  match w.phase with
  | .idle =>
    match nextJob order w.store with
    | some j => { w with phase := .picked j.id }
    | none => w
  | .picked id =>
    match w.store.jobs.table.rows.find? fun j => j.id = id && j.state = .queued with
    | some j => { w with phase := .loaded id j.scope }
    | none => { w with phase := .idle }
  | .loaded id scope =>
    match w.store.updateJob id (startJob now) (fun _ => rfl) with
    | .ok jobs => { w with
        store := { w.store with jobs }, phase := .enter id scope 0 (jobTables scope.kind) }
    | .error _ => { w with phase := .idle }
  | .checking id scope table rest deleted =>
    match w.store.jobs.table.find? id with
    | some j =>
      if j.state = .cancelling then { w with phase := .stopping id }
      else { w with phase := .sweeping id scope table rest deleted }
    | none => { w with phase := .idle }
  | .stopping id => { w with
      store := w.store.settle (w.store.updateJob id (stopJob now) (fun _ => rfl))
      phase := .idle }
  | .sweeping id scope table rest deleted =>
    match batch order scope w.store table with
    | .ok (store, n) => { w with
        store, phase := .counting id scope table rest (deleted + n) n
        batches := Function.update w.batches id (w.batches id + 1) }
    | .error e => { w with phase := .failing id e }
  | .failing id error => { w with
      store := w.store.settle (w.store.updateJob id (failJob error now) (fun _ => rfl))
      phase := .idle }
  | .counting id scope table rest deleted n => { w with
      store := w.store.settle (w.store.updateJob id (noteProgress deleted table) (fun _ => rfl))
      phase := if n = 0 then .enter id scope deleted rest
        else .checking id scope table rest deleted }
  | .finishing id deleted => { w with
      store := w.store.settle (w.store.updateJob id (completeJob deleted now) (fun _ => rfl))
      phase := .idle }

/-! ## Runs -/

inductive DeletionMove where
  | work (order : RowOrder) (now : Time)
  | preview (hash : String → String) (date : Time → String) (order : RowOrder) (now : Time)
      (token : String) (request : DeletionRequest)
  | create (hash : String → String) (now : Time) (token confirmation actor id : String)
  | cancel (id : String) (now : Time)
  | retry (id : String)
  /-- The process stops and starts again. -/
  | restart (now : Time)
  | elsewhere (db : Database) (networkSamples : Table NetworkSample.key)
      (bootSessions : Table BootSessionRow.id)

def Deleter.call (w : Deleter) (result : Except DeletionError Store) : Deleter :=
  match result with
  | .ok store => { w with store }
  | .error _ => w

def Deleter.step (w : Deleter) : DeletionMove → Deleter
  | .work order now => w.work order now
  | .preview hash date order now token request =>
    w.call (previewDeletion hash date order now token request w.store)
  | .create hash now token confirmation actor id =>
    w.call (createDeletion hash now token confirmation actor id w.store)
  | .cancel id now => w.call (cancelDeletion id now w.store)
  | .retry id => w.call (retryDeletion id w.store)
  | .restart now => { w with store := recoverDeletionJobs now w.store, phase := .idle }
  | .elsewhere db networkSamples bootSessions =>
    { w with store := { w.store with db, networkSamples, bootSessions } }

/-! ## What a statement of the worker does -/

inductive Works (order : RowOrder) (now : Time) : Deleter → Deleter → Prop
  /-- Nothing is queued, the job has gone, or it cannot be started. -/
  | rest (w : Deleter) : Works order now w { w with phase := .idle }
  | pick {s b id} : Works order now ⟨s, .idle, b⟩ ⟨s, .picked id, b⟩
  | load {s b id j} : s.jobs.table.rows.find? (fun j => j.id = id && j.state = .queued) = some j →
      Works order now ⟨s, .picked id, b⟩ ⟨s, .loaded id j.scope, b⟩
  | start {s b id scope jobs} : s.updateJob id (startJob now) (fun _ => rfl) = .ok jobs →
      Works order now ⟨s, .loaded id scope, b⟩
        ⟨{ s with jobs }, .enter id scope 0 (jobTables scope.kind), b⟩
  | halt {s b id scope table rest deleted} :
      Works order now ⟨s, .checking id scope table rest deleted, b⟩ ⟨s, .stopping id, b⟩
  | goOn {s b id scope table rest deleted j} : s.jobs.table.find? id = some j →
      j.state ≠ .cancelling → Works order now ⟨s, .checking id scope table rest deleted, b⟩
        ⟨s, .sweeping id scope table rest deleted, b⟩
  | sweep {s b id scope table rest deleted s' n} : batch order scope s table = .ok (s', n) →
      Works order now ⟨s, .sweeping id scope table rest deleted, b⟩
        ⟨s', .counting id scope table rest (deleted + n) n, Function.update b id (b id + 1)⟩
  | fail {s b id scope table rest deleted e} :
      Works order now ⟨s, .sweeping id scope table rest deleted, b⟩ ⟨s, .failing id e, b⟩
  | count {s b id scope table rest deleted n} :
      Works order now ⟨s, .counting id scope table rest deleted n, b⟩
        ⟨s.settle (s.updateJob id (noteProgress deleted table) (fun _ => rfl)),
          if n = 0 then .enter id scope deleted rest else .checking id scope table rest deleted, b⟩
  | stop {s b id} : Works order now ⟨s, .stopping id, b⟩
      ⟨s.settle (s.updateJob id (stopJob now) (fun _ => rfl)), .idle, b⟩
  | giveUp {s b id e} : Works order now ⟨s, .failing id e, b⟩
      ⟨s.settle (s.updateJob id (failJob e now) (fun _ => rfl)), .idle, b⟩
  | finish {s b id deleted} : Works order now ⟨s, .finishing id deleted, b⟩
      ⟨s.settle (s.updateJob id (completeJob deleted now) (fun _ => rfl)), .idle, b⟩

theorem Deleter.works (w : Deleter) (order : RowOrder) (now : Time) :
    Works order now w (w.work order now) := by
  obtain ⟨s, phase, b⟩ := w
  unfold Deleter.work
  cases phase with
  | idle =>
    dsimp only
    split
    · exact .pick
    · exact .rest _
  | picked id =>
    dsimp only
    split
    · next hfind => exact .load hfind
    · exact .rest _
  | loaded id scope =>
    dsimp only
    split
    · next hok => exact .start hok
    · exact .rest _
  | checking id scope table rest deleted =>
    dsimp only
    split
    · next hfind =>
      split
      · exact .halt
      · next hstate => exact .goOn hfind hstate
    · exact .rest _
  | sweeping id scope table rest deleted =>
    dsimp only
    split
    · next hbatch => exact .sweep hbatch
    · exact .fail
  | counting => exact .count
  | stopping => exact .stop
  | failing => exact .giveUp
  | finishing => exact .finish

/-! ## What the statements on jobs do -/

theorem Jobs.commit_ok {table : Table DeletionJobRow.id} {jobs : Jobs}
    (h : Jobs.commit table = .ok jobs) : jobs.table = table := by
  unfold Jobs.commit at h
  split at h
  · cases h
    rfl
  · cases h

theorem Jobs.update_of_inactive (jobs : Jobs) {p : DeletionJobRow → Bool}
    {f : DeletionJobRow → DeletionJobRow} {hf : ∀ j, (f j).id = j.id}
    (hact : ∀ j ∈ jobs.table.rows, p j = true → (f j).state.active = true →
      j.state.active = true) :
    ∃ jobs', jobs.update p f hf = .ok jobs' ∧ jobs'.table = jobs.table.update p f hf := by
  have hold : ∀ j ∈ (jobs.table.update p f hf).rows, j.state.active = true →
      ∃ k ∈ jobs.table.rows, k.id = j.id ∧ k.state.active = true := by
    intro j hj hactive
    rcases (Table.mem_update hf).mp hj with ⟨hj, -⟩ | ⟨k, hk, hp, rfl⟩
    · exact ⟨j, hj, rfl, hactive⟩
    · exact ⟨k, hk, (hf k).symm, hact k hk hp hactive⟩
  have hone : OneActive (jobs.table.update p f hf).rows := by
    intro j hj k hk hja hka
    obtain ⟨j', hj', hjid, hja'⟩ := hold j hj hja
    obtain ⟨k', hk', hkid, hka'⟩ := hold k hk hka
    rw [← hjid, ← hkid]
    exact jobs.oneActive j' hj' k' hk' hja' hka'
  refine ⟨⟨_, hone⟩, ?_, rfl⟩
  unfold Jobs.update Jobs.commit
  rw [dif_pos hone]

/-- A statement on one job, written whatever its answer is. -/
theorem Store.settle_updateJob {s : Store} {id : String} {f : DeletionJobRow → DeletionJobRow}
    {hf : ∀ j, (f j).id = j.id}
    (hact : ∀ j ∈ s.jobs.table.rows, j.id = id → (f j).state.active = true →
      j.state.active = true) :
    ∃ jobs, s.settle (s.updateJob id f hf) = { s with jobs } ∧
      jobs.table = s.jobs.table.update (fun j => j.id = id) f hf := by
  obtain ⟨jobs, hok, htable⟩ := @Jobs.update_of_inactive s.jobs (fun j => j.id = id) f hf
    fun j hj hp => hact j hj (of_decide_eq_true hp)
  refine ⟨jobs, ?_, htable⟩
  unfold Store.updateJob Store.settle
  rw [hok]

theorem state_of_update {jobs jobs' : Jobs} {id : String} {f : DeletionJobRow → DeletionJobRow}
    {hf : ∀ j, (f j).id = j.id} (h : jobs'.table = jobs.table.update (fun j => j.id = id) f hf)
    {state : JobState} (hstate : ∀ j, (f j).state = state) {j : DeletionJobRow}
    (hj : j ∈ jobs'.table.rows) (hid : j.id = id) : j.state = state := by
  rw [h] at hj
  rcases (Table.mem_update_key hf).mp hj with ⟨-, hne⟩ | ⟨k, -, -, rfl⟩
  · exact absurd hid hne
  · exact hstate k

theorem exists_of_update {jobs jobs' : Jobs} {p : DeletionJobRow → Bool}
    {f : DeletionJobRow → DeletionJobRow} {hf : ∀ j, (f j).id = j.id}
    (h : jobs'.table = jobs.table.update p f hf) {j : DeletionJobRow} (hj : j ∈ jobs.table.rows) :
    ∃ j' ∈ jobs'.table.rows, j'.id = j.id := by
  rw [h]
  exact Table.exists_update hf hj

/-- What an accepted request met and what it leaves: a preview that was neither used nor expired,
and a queued job that is new and has its columns. -/
theorem createDeletion_cases {hash : String → String} {now : Time}
    {token confirmation actor id : String} {s s' : Store}
    (h : createDeletion hash now token confirmation actor id s = .ok s') :
    ∃ p ∈ s.previews.rows, (p.idHash = hash token ∧ p.usedAt = none) ∧
      (unixMilli now < p.expiresAt ∧ confirmation = p.confirmation) ∧
      ∃ jobs, s' = { s with
          jobs
          previews := s.previews.update (fun q => q.idHash = hash token)
            (fun q => { q with usedAt := some (unixMilli now) }) (fun _ => rfl) } ∧
        (∀ j ∈ s.jobs.table.rows, j.id ≠ id) ∧
        jobs.table.rows =
          s.jobs.table.rows ++ [newJob p id actor now (deletionCount p.scope s)] := by
  unfold createDeletion at h
  split at h
  · cases h
  · next p hfind =>
    have hp := List.find?_some hfind
    simp only [Bool.and_eq_true, decide_eq_true_eq] at hp
    split at h
    · cases h
    · next hvalid =>
      push Not at hvalid
      dsimp only at h
      split at h
      · cases h
      · next jobs hinsert =>
        cases h
        unfold insertJob at hinsert
        split at hinsert
        · cases hinsert
        · next table htable =>
          obtain ⟨hfree, hrows⟩ := Table.insert_eq_some htable
          refine ⟨p, List.mem_of_find?_eq_some hfind, hp, hvalid, jobs, rfl, ?_, ?_⟩
          · exact Table.has_eq_false_iff.mp hfree
          · rw [Jobs.commit_ok hinsert, hrows]
            rfl

end Binnacle.Storage
