import Binnacle.Relational.Aggregate
import Binnacle.Metrics.Types
import Binnacle.Notifications.Types
import Mathlib.Data.Fintype.Pi

/-!
# The database schema (`migrations/*.sql`)

One row type per table and the database as the record of its tables, each
keyed by its primary key. A nullable column is an `Option`. Secondary `UNIQUE`,
`CHECK` and foreign-key constraints are checked by the statements that can
violate them. Columns that no modelled statement reads or writes are left out.
-/

namespace Binnacle.Storage

open Relational Alerts Notifications

/-! ## Telemetry (003, 004, 012, 013) -/

/-- `hosts` (002_hosts.sql). -/
structure HostRow where
  id : String
  identityHash : String
  name : String

/-- `resources` (003_resources.sql, 016_resource_context.sql). -/
structure ResourceRow where
  id : String
  hostId : String
  stableKey : String
  sourceKind : String
  name : String
  context : String
  projectName : Option String
  environmentName : Option String
  category : String
  status : String
  archivedAt : Option Int
  firstSeenAt : Int
  lastSeenAt : Int

/-- `container_instances` (003_resources.sql). -/
structure ContainerInstanceRow where
  id : String
  resourceId : Option String
  name : String
  createdAt : Int

/-- `host_samples_10s` (004_telemetry.sql, 012_broaden_host_telemetry.sql). -/
structure HostSample where
  ts : Int
  hostId : String
  bootSessionId : String
  cpuBusyPct : Option ℚ
  cpuUserPct : Option ℚ
  cpuSystemPct : Option ℚ
  cpuIowaitPct : Option ℚ
  cpuStealPct : Option ℚ
  load1 : Option ℚ
  load5 : Option ℚ
  load15 : Option ℚ
  memoryUsedBytes : Option Int
  memoryAvailableBytes : Option Int
  memoryTotalBytes : Option Int
  memoryUsedPct : Option ℚ
  memoryCachedBytes : Option Int
  memoryBuffersBytes : Option Int
  swapUsedBytes : Option Int
  swapTotalBytes : Option Int
  swapUsedPct : Option ℚ
  networkRxBps : Option ℚ
  networkTxBps : Option ℚ
  networkRxPacketsPs : Option ℚ
  networkTxPacketsPs : Option ℚ
  networkRxErrorsDelta : Option Int
  networkTxErrorsDelta : Option Int
  networkRxDropsDelta : Option Int
  networkTxDropsDelta : Option Int
  diskReadBps : Option ℚ
  diskWriteBps : Option ℚ
  diskReadIops : Option ℚ
  diskWriteIops : Option ℚ
  deriving DecidableEq

/-- `PRIMARY KEY(host_id,ts)`. -/
def HostSample.key (s : HostSample) : String × Int := (s.hostId, s.ts)

/-- `resource_samples_10s` (004, 007). -/
structure ResourceSample where
  ts : Int
  resourceId : String
  cpuHostPct : Option ℚ
  memoryWorkingSetBytes : Option Int
  networkRxBps : Option ℚ
  networkTxBps : Option ℚ
  blockReadBps : Option ℚ
  blockWriteBps : Option ℚ
  activeInstanceCount : Nat
  status : Metrics.ResourceStatus
  deriving DecidableEq

/-- `PRIMARY KEY(resource_id,ts)`. -/
def ResourceSample.key (s : ResourceSample) : String × Int := (s.resourceId, s.ts)

/-- `container_instance_samples_10s` (004, 013). -/
structure InstanceSample where
  ts : Int
  containerInstanceId : String
  cpuHostPct : Option ℚ
  memoryWorkingSetBytes : Option Int
  memoryUsageBytes : Option Int
  networkRxBps : Option ℚ
  networkTxBps : Option ℚ
  blockReadBps : Option ℚ
  blockWriteBps : Option ℚ
  pids : Option Nat

/-- `PRIMARY KEY(container_instance_id,ts)`. -/
def InstanceSample.key (s : InstanceSample) : String × Int := (s.containerInstanceId, s.ts)

/-- `filesystem_samples_1m` (012). -/
structure FilesystemSample where
  ts : Int
  hostId : String
  mountKey : String
  mountPoint : String
  fsType : String
  totalBytes : Option Int
  usedBytes : Option Int
  availableBytes : Option Int
  usedPct : Option ℚ
  inodesTotal : Option Int
  inodesUsed : Option Int
  inodesUsedPct : Option ℚ
  deriving DecidableEq

/-- `PRIMARY KEY(host_id, mount_key, ts)`. -/
def FilesystemSample.key (s : FilesystemSample) : String × String × Int :=
  (s.hostId, s.mountKey, s.ts)

/-- `events` (004_telemetry.sql:4): `id TEXT PRIMARY KEY`. -/
structure EventRow where
  id : String
  ts : Int
  hostId : Option String := none
  resourceId : Option String := none
  containerInstanceId : Option String := none
  type : String
  severity : String
  summary : String
  detailsJson : Option String := none
  correlationKey : Option String := none
  source : String
  createdAt : Int
  deriving DecidableEq

/-- `collector_state_events` (004_telemetry.sql). -/
structure CollectorStateEvent where
  id : String
  ts : Int
  collectorName : String
  previousState : Metrics.CollectorState
  newState : Metrics.CollectorState
  reasonCode : Metrics.CollectorState
  message : String

/-! ## Rollups (005, 006, 007, 009, 014) -/

/-- The three rollup tiers (rollups.go:16-19). -/
inductive Tier where
  | oneMinute | fifteenMinute | oneHour
  deriving DecidableEq

inductive HostMetric where
  | cpu | memory | networkRx | networkTx | cpuUser | cpuSystem | cpuIowait | cpuSteal
  | load1 | load5 | load15 | swapUsed | diskRead | diskWrite | diskIops
  deriving DecidableEq

instance : Fintype HostMetric where
  elems := {.cpu, .memory, .networkRx, .networkTx, .cpuUser, .cpuSystem, .cpuIowait, .cpuSteal,
    .load1, .load5, .load15, .swapUsed, .diskRead, .diskWrite, .diskIops}
  complete metric := by cases metric <;> decide

inductive ResourceMetric where
  | cpu | memory | networkRx | networkTx | blockRead | blockWrite
  deriving DecidableEq

instance : Fintype ResourceMetric where
  elems := {.cpu, .memory, .networkRx, .networkTx, .blockRead, .blockWrite}
  complete metric := by cases metric <;> decide

/-- `host_rollups_*`: `ts INTEGER PRIMARY KEY` and four columns for each metric,
the average, minimum, maximum and number of non-null samples. -/
structure HostRollup where
  ts : Int
  stats : HostMetric → Stats
  deriving DecidableEq

/-- `resource_rollups_*`. -/
structure ResourceRollup where
  ts : Int
  resourceId : String
  stats : ResourceMetric → Stats
  deriving DecidableEq

/-- `PRIMARY KEY(resource_id,ts)`. -/
def ResourceRollup.key (r : ResourceRollup) : String × Int := (r.resourceId, r.ts)

/-! ## Checks and alerts (015) -/

/-- `CHECK(status IN ('unknown','success','failure','running'))`. -/
inductive CheckStatus where
  | unknown | success | failure | running
  deriving DecidableEq

/-- `health_checks`. -/
structure HealthCheckRow where
  id : String
  resourceId : String
  intervalSeconds : Int
  required : Bool
  enabled : Bool
  deriving DecidableEq

/-- `health_check_state`. -/
structure HealthCheckStateRow where
  checkId : String
  status : CheckStatus
  checkedAt : Option Int
  consecutiveSuccesses : Nat
  consecutiveFailures : Nat
  nextRunAt : Option Int

/-- `alert_rules`, durations in seconds. -/
structure AlertRuleRow where
  id : String
  family : String
  name : String
  builtIn : Bool
  enabled : Bool
  severity : Level
  scopeType : String
  scopeId : String
  threshold : Option ℚ
  recoveryThreshold : Option ℚ
  triggerSeconds : Int
  recoverySeconds : Int
  windowSeconds : Int
  cooldownSeconds : Int
  repeatSeconds : Int
  suppressDuringDeployment : Bool
  createdAt : Int
  updatedAt : Int
  deriving DecidableEq

/-- `alert_evaluation_state`; `details_json` is the record it is marshalled
from, `{"observed": value}`. -/
structure EvaluationStateRow where
  dedupKey : String
  ruleId : String
  targetType : String
  targetId : String
  phase : Phase
  phaseSince : Int
  lastEvaluatedAt : Int
  lastNotifiedAt : Option Int
  cooldownUntil : Option Int
  observedValue : ℚ
  detailsObserved : ℚ

/-- `alerts`. -/
structure AlertRow where
  id : String
  dedupKey : String
  ruleId : String
  family : String
  severity : Level
  targetType : String
  targetId : String
  status : AlertStatus
  startedAt : Int
  resolvedAt : Option Int
  lastObservedAt : Int
  observedValue : ℚ
  message : String

/-- `CHECK(scope_type IN ('server','project','resource','rule'))` of `silences`. -/
inductive SilenceScope where
  | server | project | resource | rule
  deriving DecidableEq

/-- `silences`. -/
structure SilenceRow where
  id : String
  scopeType : SilenceScope
  scopeId : String
  startsAt : Int
  endsAt : Int

/-- `deployment_grace_periods`. -/
structure GracePeriodRow where
  resourceId : String
  startsAt : Int
  endsAt : Int
  confirmed : Bool

/-! ## Incidents and notifications (017) -/

/-- `incidents`. -/
structure IncidentRow where
  id : String
  groupKey : String
  status : IncidentStatus
  severity : Level
  targetType : String
  targetId : String
  title : String
  openedAt : Int
  updatedAt : Int
  resolvedAt : Option Int
  version : Nat
  nextReminderAt : Option Int

/-- `incident_alerts`. -/
structure IncidentAlertRow where
  incidentId : String
  alertId : String
  joinedAt : Int
  resolvedAt : Option Int

/-- `PRIMARY KEY(incident_id, alert_id)`. -/
def IncidentAlertRow.key (r : IncidentAlertRow) : String × String := (r.incidentId, r.alertId)

/-- `notification_channels`, as the incident code reads them. -/
structure ChannelRow where
  id : String
  enabled : Bool
  minimumSeverity : Level
  notifyResolved : Bool
  deletedAt : Option Int

/-- `notification_deliveries`. -/
structure DeliveryRow where
  id : String
  channelId : String
  incidentId : Option String
  eventType : DeliveryEvent
  payload : Payload
  idempotencyKey : String
  status : DeliveryStatus
  attemptCount : Nat
  nextAttemptAt : Option Int
  startedAt : Option Int
  completedAt : Option Int
  failureCode : Option String
  createdAt : Int
  updatedAt : Int

/-! ## The database -/

structure Database where
  hosts : Table HostRow.id
  resources : Table ResourceRow.id
  containerInstances : Table ContainerInstanceRow.id
  hostSamples : Table HostSample.key
  resourceSamples : Table ResourceSample.key
  instanceSamples : Table InstanceSample.key
  filesystemSamples : Table FilesystemSample.key
  events : Table EventRow.id
  collectorStateEvents : Table CollectorStateEvent.id
  hostRollups : Tier → Table HostRollup.ts
  resourceRollups : Tier → Table ResourceRollup.key
  healthChecks : Table HealthCheckRow.id
  healthCheckState : Table HealthCheckStateRow.checkId
  alertRules : Table AlertRuleRow.id
  alertEvaluationState : Table EvaluationStateRow.dedupKey
  alerts : Table AlertRow.id
  silences : Table SilenceRow.id
  gracePeriods : Table GracePeriodRow.resourceId
  incidents : Table IncidentRow.id
  incidentAlerts : Table IncidentAlertRow.key
  channels : Table ChannelRow.id
  deliveries : Table DeliveryRow.id

def Database.empty : Database where
  hosts := .empty
  resources := .empty
  containerInstances := .empty
  hostSamples := .empty
  resourceSamples := .empty
  instanceSamples := .empty
  filesystemSamples := .empty
  events := .empty
  collectorStateEvents := .empty
  hostRollups := fun _ => .empty
  resourceRollups := fun _ => .empty
  healthChecks := .empty
  healthCheckState := .empty
  alertRules := .empty
  alertEvaluationState := .empty
  alerts := .empty
  silences := .empty
  gracePeriods := .empty
  incidents := .empty
  incidentAlerts := .empty
  channels := .empty
  deliveries := .empty

/-- Why a statement is refused. -/
inductive SqlError where
  /-- `UNIQUE constraint failed` (primary keys included). -/
  | unique (columns : String)
  /-- `FOREIGN KEY constraint failed`. -/
  | foreignKey (column : String)
  /-- `CHECK constraint failed`. -/
  | check (column : String)
  /-- A parameter the driver cannot bind (`uint64` with the high bit set). -/
  | bind (parameter : String)
  /-- `sql: no rows in result set`. -/
  | noRows
  deriving DecidableEq

end Binnacle.Storage
