import Binnacle.Relational.Statement
import Binnacle.Storage.Schema

/-!
# The telemetry writer (`internal/storage/writer.go`)

`writeBatch` is one transaction: its statements run in the source's order, and
the first one that violates a constraint discards all of them. `writeEvent` is
a single statement outside any transaction.

Results used elsewhere:

- `writeBatch_events`: a committed batch leaves the events table as the
  `INSERT OR IGNORE` of its events, in order;
- `writeBatch_hostSamples`, `writeBatch_resourceSamples`: the raw samples it
  leaves.
-/

namespace Binnacle.Storage

open Relational Metrics

/-- `RetentionCutoffs` (sqlite.go:39-42). -/
structure RetentionCutoffs where
  raw : Duration := 0
  oneMinute : Duration := 0
  fifteenMinute : Duration := 0
  oneHour : Duration := 0

/-- `BudgetState` (budget.go:4-11). -/
inductive BudgetState where
  | ok | warning | critical | emergency
  deriving DecidableEq

/-- `DatabaseBudget` (sqlite.go:44-49). -/
structure DatabaseBudget where
  usedBytes : Int := 0
  targetBytes : Int := 0
  state : BudgetState := .ok

/-- `Manager` (sqlite.go:26-37): the database and the state the process keeps
beside it. `prevCollectors` is a Go map whose missing entries read as `""`. -/
structure Manager where
  db : Database
  prevCollectors : String → Option CollectorState := fun _ => none
  retention : RetentionCutoffs := {}
  budget : DatabaseBudget := {}
  emergencyPause : Bool := false

def Manager.attempt {ε : Type} (m : Manager) (result : Except ε Database) : Manager :=
  match result with
  | .ok db => { m with db }
  | .error _ => m

theorem Manager.attempt_keeps {ε : Type} {m : Manager} {result : Except ε Database}
    {I : Database → Prop} (h : I m.db) (hok : ∀ db, result = .ok db → I db) :
    I (m.attempt result).db := by
  cases result with
  | error e => exact h
  | ok db => exact hok db rfl

/-- `hostID` (writer.go:13). -/
def hostID : String := "host"

/-- `nullableResource`, `nullableContainer`, `nullableString`: the empty string
is stored as `NULL` (writer.go:108-125). -/
def nullable (s : String) : Option String := if s = "" then none else some s

/-- `eventSeverity` (writer.go:133-141). -/
def eventSeverity (eventType : String) : String :=
  if eventType ∈ ["container_oom", "collector_down", "persistence_degraded", "host_reboot"] then
    "critical"
  else if eventType ∈ ["container_restart", "container_stop", "container_die",
      "persistence_gap"] then
    "warning"
  else
    "info"

/-- `severity` (writer.go:126-131). -/
def severity (e : Event) : String :=
  if e.severity ≠ "" then e.severity else eventSeverity e.type

/-- `eventSource` (writer.go:143-148). -/
def eventSource (eventType : String) : String :=
  if eventType ∈ ["host_reboot", "collector_down", "collector_degraded",
      "persistence_degraded", "persistence_gap"] then
    "binnacle"
  else
    "docker"

/-- The row `WriteBatch` and `WriteEvent` store for an event. The `TEXT` key
column holds the decimal digits of the bound integer. -/
def eventRow (e : Event) : EventRow where
  id := Nat.repr e.id
  ts := unixMilli e.at_
  hostId := some hostID
  resourceId := nullable e.resourceId
  containerInstanceId := nullable e.containerInstance
  type := e.type
  severity := severity e
  summary := e.message
  detailsJson := nullable e.details
  correlationKey := nullable e.correlationKey
  source := eventSource e.type
  createdAt := unixMilli e.at_

/-- `INSERT OR IGNORE INTO events` (writer.go:71, 150); the driver refuses to
bind a `uint64` whose high bit is set. -/
def insertEvent (db : Database) (e : Event) : Except SqlError Database :=
  if e.id < 2 ^ 63 then
    .ok { db with events := db.events.insertOrIgnore (eventRow e) }
  else
    .error (.bind "events.id")

/-- `WriteEvent` (writer.go:149-152). -/
def writeEvent (db : Database) (e : Event) : Except SqlError Database := insertEvent db e

/-- The row of `host_samples_10s` for a snapshot (writer.go:24-45). -/
def hostSample (s : Snapshot) : HostSample where
  ts := unixMilli s.at_
  hostId := hostID
  bootSessionId := s.bootIdentity
  cpuBusyPct := s.host.cpuPercent
  cpuUserPct := s.host.cpuUserPercent
  cpuSystemPct := s.host.cpuSystemPercent
  cpuIowaitPct := s.host.cpuIOWaitPercent
  cpuStealPct := s.host.cpuStealPercent
  load1 := s.host.load1
  load5 := s.host.load5
  load15 := s.host.load15
  memoryUsedBytes := s.host.memoryUsedBytes
  memoryAvailableBytes := s.host.memoryAvailableBytes
  memoryTotalBytes := s.host.memoryTotalBytes
  memoryUsedPct := s.host.memoryPercent
  memoryCachedBytes := s.host.memoryCachedBytes
  memoryBuffersBytes := s.host.memoryBuffersBytes
  swapUsedBytes := s.host.swapUsedBytes
  swapTotalBytes := s.host.swapTotalBytes
  swapUsedPct := s.host.swapPercent
  networkRxBps := s.host.networkRXBPS
  networkTxBps := s.host.networkTXBPS
  networkRxPacketsPs := s.host.networkRXPacketsPS
  networkTxPacketsPs := s.host.networkTXPacketsPS
  networkRxErrorsDelta := s.host.networkRXErrorsDelta
  networkTxErrorsDelta := s.host.networkTXErrorsDelta
  networkRxDropsDelta := s.host.networkRXDropsDelta
  networkTxDropsDelta := s.host.networkTXDropsDelta
  diskReadBps := s.host.diskReadBPS
  diskWriteBps := s.host.diskWriteBPS
  diskReadIops := s.host.diskReadIOPS
  diskWriteIops := s.host.diskWriteIOPS

/-- The row of `resource_samples_10s` (writer.go:50). -/
def resourceSample (s : Snapshot) (r : ResourceSnapshot) : ResourceSample where
  ts := unixMilli s.at_
  resourceId := r.id
  cpuHostPct := r.cpuHostPercent
  memoryWorkingSetBytes := r.memoryBytes
  networkRxBps := r.rxBPS
  networkTxBps := r.txBPS
  blockReadBps := r.blockReadBPS
  blockWriteBps := r.blockWriteBPS
  activeInstanceCount := r.components.length
  status := r.status

/-- The row of `container_instance_samples_10s` (writer.go:61). -/
def instanceSample (s : Snapshot) (c : ResourceComponent) : InstanceSample where
  ts := unixMilli s.at_
  containerInstanceId := c.id
  cpuHostPct := c.cpuHostPercent
  memoryWorkingSetBytes := c.memoryBytes
  memoryUsageBytes := none
  networkRxBps := c.rxBPS
  networkTxBps := c.txBPS
  blockReadBps := c.blockReadBPS
  blockWriteBps := c.blockWriteBPS
  pids := c.pids

/-- The row of `filesystem_samples_1m` (writer.go:68). -/
def filesystemSample (f : FilesystemObservation) : FilesystemSample where
  ts := unixMilli f.at_
  hostId := hostID
  mountKey := f.mountKey
  mountPoint := f.mountPoint
  fsType := f.fsType
  totalBytes := f.totalBytes
  usedBytes := f.usedBytes
  availableBytes := f.availableBytes
  usedPct := f.usedPercent
  inodesTotal := f.inodesTotal
  inodesUsed := f.inodesUsed
  inodesUsedPct := f.inodesUsedPercent

/-- The statements for one component (writer.go:54-63). `OR IGNORE` does not
cover the foreign key on `resource_id`. -/
def writeComponent (s : Snapshot) (r : ResourceSnapshot) (db : Database)
    (c : ResourceComponent) : Except SqlError Database :=
  if db.resources.has r.id then
    let instances := db.containerInstances.insertOrIgnore
      { id := c.id, resourceId := some r.id, name := c.name, createdAt := unixMilli s.at_ }
    .ok { db with
      containerInstances := instances.update (fun i => i.id = c.id)
        (fun i => { i with resourceId := some r.id, name := c.name }) (fun _ => rfl)
      instanceSamples := db.instanceSamples.insertOrReplace (instanceSample s c) }
  else
    .error (.foreignKey "container_instances.resource_id")

/-- The statements for one resource (writer.go:49-64). -/
def writeResource (s : Snapshot) (db : Database) (r : ResourceSnapshot) :
    Except SqlError Database :=
  r.components.foldlM (writeComponent s r)
    { db with resourceSamples := db.resourceSamples.insertOrReplace (resourceSample s r) }

/-- The statements for the snapshot; a snapshot that was never published has
sequence 0 and is skipped (writer.go:22-65). -/
def writeSnapshot (db : Database) (s : Snapshot) : Except SqlError Database :=
  if s.sequence > 0 then
    s.resources.foldlM (writeResource s)
      { db with hostSamples := db.hostSamples.insertOrReplace (hostSample s) }
  else
    .ok db

/-- The statements for the filesystems (writer.go:67-70). -/
def writeFilesystems (db : Database) (fs : List FilesystemObservation) : Database :=
  { db with filesystemSamples :=
      fs.foldl (fun t f => t.insertOrReplace (filesystemSample f)) db.filesystemSamples }

/-- One round of the loop of `writeCollectorStateEvents` (writer.go:86-101). -/
def writeCollectorStateEvent (at_ : Time)
    (st : Table CollectorStateEvent.id × (String → Option CollectorState))
    (c : String × CollectorHealth) :
    Table CollectorStateEvent.id × (String → Option CollectorState) :=
  let prev := (st.2 c.1).getD .unknown
  if prev = c.2.state then st
  else
    (st.1.insertOrIgnore
      { id := "cse_" ++ toString (unixMilli at_) ++ "_" ++ c.1, ts := unixMilli at_,
        collectorName := c.1, previousState := prev, newState := c.2.state,
        reasonCode := c.2.state, message := c.2.reason },
     fun name => if name = c.1 then some c.2.state else st.2 name)

/-- `writeCollectorStateEvents` (writer.go:81-103). -/
def writeCollectorStateEvents (m : Manager) (at_ : Time)
    (collectors : List (String × CollectorHealth)) : Manager :=
  let st := collectors.foldl (writeCollectorStateEvent at_)
    (m.db.collectorStateEvents, m.prevCollectors)
  { m with db := { m.db with collectorStateEvents := st.1 }, prevCollectors := st.2 }

/-- `WriteBatch` (writer.go:15-79). -/
def writeBatch (m : Manager) (b : PersistenceBatch) : Except SqlError Manager := do
  let db ← writeSnapshot m.db b.snapshot
  let db ← b.events.foldlM insertEvent (writeFilesystems db b.filesystems)
  return writeCollectorStateEvents { m with db := db } b.snapshot.at_ b.snapshot.collectors

/-! ## What a committed batch leaves -/

def TelemetryOnly (db db' : Database) : Prop :=
  db' = { db with
    containerInstances := db'.containerInstances
    hostSamples := db'.hostSamples
    resourceSamples := db'.resourceSamples
    instanceSamples := db'.instanceSamples
    filesystemSamples := db'.filesystemSamples
    events := db'.events
    collectorStateEvents := db'.collectorStateEvents }

theorem TelemetryOnly.trans {a b c : Database} (hab : TelemetryOnly a b)
    (hbc : TelemetryOnly b c) : TelemetryOnly a c := by
  unfold TelemetryOnly at *
  rw [hbc, hab]

variable {db db' : Database} {m m' : Manager} {b : PersistenceBatch}

theorem insertEvent_ok {e : Event} (h : insertEvent db e = .ok db') :
    e.id < 2 ^ 63 ∧ db' = { db with events := db.events.insertOrIgnore (eventRow e) } := by
  unfold insertEvent at h
  split at h
  · next hid => exact ⟨hid, (Except.ok.inj h).symm⟩
  · cases h

theorem writeComponent_ok {s : Snapshot} {r : ResourceSnapshot} {c : ResourceComponent}
    (h : writeComponent s r db c = .ok db') :
    db' = { db with
      containerInstances := db'.containerInstances
      instanceSamples := db'.instanceSamples } := by
  unfold writeComponent at h
  split at h
  · cases h
    rfl
  · cases h

theorem writeResource_ok {s : Snapshot} {r : ResourceSnapshot}
    (h : writeResource s db r = .ok db') :
    db' = { db with
      resourceSamples := db.resourceSamples.insertOrReplace (resourceSample s r)
      containerInstances := db'.containerInstances
      instanceSamples := db'.instanceSamples } := by
  have hrel := foldlM_ok_rel
    (R := fun a b : Database => b = { a with
      containerInstances := b.containerInstances
      instanceSamples := b.instanceSamples })
    (fun _ => rfl) (fun hab hbc => by rw [hbc, hab])
    (fun _ _ _ h => writeComponent_ok h) h
  rw [hrel]

def sampleResources (s : Snapshot) (t : Table ResourceSample.key) : Table ResourceSample.key :=
  s.resources.foldl (fun t r => t.insertOrReplace (resourceSample s r)) t

theorem writeSnapshot_ok {s : Snapshot} (h : writeSnapshot db s = .ok db') :
    db' = { db with
      hostSamples :=
        if s.sequence > 0 then db.hostSamples.insertOrReplace (hostSample s) else db.hostSamples
      resourceSamples :=
        if s.sequence > 0 then sampleResources s db.resourceSamples else db.resourceSamples
      containerInstances := db'.containerInstances
      instanceSamples := db'.instanceSamples } := by
  unfold writeSnapshot at h
  split at h
  · next hs =>
    have hrel := foldlM_ok_rel
      (R := fun a b : Database => b = { a with
        resourceSamples := b.resourceSamples
        containerInstances := b.containerInstances
        instanceSamples := b.instanceSamples })
      (fun _ => rfl) (fun hab hbc => by rw [hbc, hab])
      (fun _ _ _ h => by rw [writeResource_ok h]) h
    have hres := foldlM_ok_proj (fun db : Database => db.resourceSamples)
      (fun t r => t.insertOrReplace (resourceSample s r))
      (fun _ _ _ h => by rw [writeResource_ok h]) h
    rw [if_pos hs, if_pos hs, sampleResources, ← hres, hrel]
  · next hs =>
    cases h
    rw [if_neg hs, if_neg hs]

theorem writeBatch_ok (h : writeBatch m b = .ok m') :
    ∃ db₁ db₂, writeSnapshot m.db b.snapshot = .ok db₁ ∧
      b.events.foldlM insertEvent (writeFilesystems db₁ b.filesystems) = .ok db₂ ∧
      m' = writeCollectorStateEvents { m with db := db₂ } b.snapshot.at_ b.snapshot.collectors := by
  obtain ⟨db₁, h₁, h⟩ := bind_ok.mp h
  obtain ⟨db₂, h₂, h⟩ := bind_ok.mp h
  exact ⟨db₁, db₂, h₁, h₂, (Except.ok.inj h).symm⟩

/-- `INSERT OR IGNORE` of a list of events, in order. -/
def recordEvents (t : Table EventRow.id) (es : List Event) : Table EventRow.id :=
  es.foldl (fun t e => t.insertOrIgnore (eventRow e)) t

theorem insertEvents_ok {es : List Event} (h : es.foldlM insertEvent db = .ok db') :
    db' = { db with events := recordEvents db.events es } := by
  have hrel := foldlM_ok_rel
    (R := fun a b : Database => b = { a with events := b.events })
    (fun _ => rfl) (fun hab hbc => by rw [hbc, hab])
    (fun _ _ _ h => by rw [(insertEvent_ok h).2]) h
  have hev := foldlM_ok_proj (fun db : Database => db.events)
    (fun t e => t.insertOrIgnore (eventRow e))
    (fun _ _ _ h => by rw [(insertEvent_ok h).2]) h
  rw [recordEvents, ← hev, hrel]

theorem recordEvents_mem {es : List Event} :
    ∀ {t : Table EventRow.id} {r : EventRow}, r ∈ t.rows → r ∈ (recordEvents t es).rows := by
  induction es with
  | nil => exact fun hr => hr
  | cons e es ih => exact fun hr => ih (Table.mem_insertOrIgnore_of_mem hr)

theorem recordEvents_has {es : List Event} {t : Table EventRow.id} {id : String}
    (h : t.has id = true) : (recordEvents t es).has id = true := by
  obtain ⟨r, hr, hk⟩ := Table.has_iff.mp h
  exact Table.has_iff.mpr ⟨r, recordEvents_mem hr, hk⟩

theorem writeBatch_events (h : writeBatch m b = .ok m') :
    m'.db.events = recordEvents m.db.events b.events := by
  obtain ⟨db₁, db₂, h₁, h₂, rfl⟩ := writeBatch_ok h
  show db₂.events = _
  rw [insertEvents_ok h₂]
  show recordEvents db₁.events b.events = _
  rw [writeSnapshot_ok h₁]

def hostSamplesOf (b : PersistenceBatch) : List HostSample :=
  if b.snapshot.sequence > 0 then [hostSample b.snapshot] else []

def resourceSamplesOf (b : PersistenceBatch) : List ResourceSample :=
  if b.snapshot.sequence > 0 then b.snapshot.resources.map (resourceSample b.snapshot) else []

theorem writeBatch_hostSamples (h : writeBatch m b = .ok m') :
    m'.db.hostSamples = Series.store m.db.hostSamples (hostSamplesOf b) := by
  obtain ⟨db₁, db₂, h₁, h₂, rfl⟩ := writeBatch_ok h
  show db₂.hostSamples = _
  rw [insertEvents_ok h₂]
  show db₁.hostSamples = _
  rw [writeSnapshot_ok h₁, hostSamplesOf]
  split <;> rfl

theorem writeBatch_resourceSamples (h : writeBatch m b = .ok m') :
    m'.db.resourceSamples = Series.store m.db.resourceSamples (resourceSamplesOf b) := by
  obtain ⟨db₁, db₂, h₁, h₂, rfl⟩ := writeBatch_ok h
  show db₂.resourceSamples = _
  rw [insertEvents_ok h₂]
  show db₁.resourceSamples = _
  rw [writeSnapshot_ok h₁, resourceSamplesOf]
  split
  · rw [Series.store, List.foldl_map]
    rfl
  · rfl

theorem writeBatch_filesystemSamples (h : writeBatch m b = .ok m') :
    m'.db.filesystemSamples = Series.store m.db.filesystemSamples
      (b.filesystems.map filesystemSample) := by
  obtain ⟨db₁, db₂, h₁, h₂, rfl⟩ := writeBatch_ok h
  show db₂.filesystemSamples = _
  rw [insertEvents_ok h₂]
  show (writeFilesystems db₁ b.filesystems).filesystemSamples = _
  rw [writeSnapshot_ok h₁, Series.store, List.foldl_map]
  rfl

theorem writeBatch_frame (h : writeBatch m b = .ok m') : TelemetryOnly m.db m'.db := by
  obtain ⟨db₁, db₂, h₁, h₂, rfl⟩ := writeBatch_ok h
  have t₁ : TelemetryOnly m.db db₁ := by
    unfold TelemetryOnly
    rw [writeSnapshot_ok h₁]
  have t₂ : TelemetryOnly (writeFilesystems db₁ b.filesystems) db₂ := by
    unfold TelemetryOnly
    rw [insertEvents_ok h₂]
  exact (t₁.trans (show TelemetryOnly db₁ (writeFilesystems db₁ b.filesystems) from rfl)).trans
    (t₂.trans rfl)

end Binnacle.Storage
