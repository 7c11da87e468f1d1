import Binnacle.Clock
import Mathlib.Data.Rat.Defs

/-!
# The observation types of the metrics engine (`internal/metrics/types.go`)

`*float64` fields are optional rationals (every finite `float64` is one, and
the code only copies, compares and aggregates them), `*int64` fields optional
integers. A Go map keyed by name is the list of its entries in iteration order.
-/

namespace Binnacle.Metrics

/-- `ResourceStatus` (types.go:36-45). -/
inductive ResourceStatus where
  | healthy | paused | unknown | degraded | down | archived
  deriving DecidableEq

/-- `CollectorState` (types.go:55-62). -/
inductive CollectorState where
  | healthy | degraded | down | unknown
  deriving DecidableEq

/-- `HostObservation` (types.go:72-107). -/
structure HostObservation where
  at_ : Time := zeroTime
  cpuPercent : Option ℚ := none
  cpuUserPercent : Option ℚ := none
  cpuSystemPercent : Option ℚ := none
  cpuIOWaitPercent : Option ℚ := none
  cpuStealPercent : Option ℚ := none
  memoryUsedBytes : Option Int := none
  memoryTotalBytes : Option Int := none
  memoryAvailableBytes : Option Int := none
  memoryPercent : Option ℚ := none
  memoryCachedBytes : Option Int := none
  memoryBuffersBytes : Option Int := none
  swapUsedBytes : Option Int := none
  swapTotalBytes : Option Int := none
  swapPercent : Option ℚ := none
  load1 : Option ℚ := none
  load5 : Option ℚ := none
  load15 : Option ℚ := none
  networkRXBPS : Option ℚ := none
  networkTXBPS : Option ℚ := none
  networkRXPacketsPS : Option ℚ := none
  networkTXPacketsPS : Option ℚ := none
  networkRXErrorsDelta : Option Int := none
  networkTXErrorsDelta : Option Int := none
  networkRXDropsDelta : Option Int := none
  networkTXDropsDelta : Option Int := none
  diskReadBPS : Option ℚ := none
  diskWriteBPS : Option ℚ := none
  diskReadIOPS : Option ℚ := none
  diskWriteIOPS : Option ℚ := none
  diskUsedBytes : Option Int := none
  diskTotalBytes : Option Int := none
  uptimeSeconds : Option ℚ := none
  deriving DecidableEq

/-- `ResourceComponent` (types.go:120-133). -/
structure ResourceComponent where
  id : String
  name : String
  status : ResourceStatus
  runtimeState : String := ""
  healthStatus : String := ""
  cpuHostPercent : Option ℚ := none
  memoryBytes : Option Int := none
  rxBPS : Option ℚ := none
  txBPS : Option ℚ := none
  blockReadBPS : Option ℚ := none
  blockWriteBPS : Option ℚ := none
  pids : Option Nat := none
  deriving DecidableEq

/-- `ResourceSnapshot` (types.go:134-156). -/
structure ResourceSnapshot where
  id : String
  name : String
  status : ResourceStatus
  signalStatus : ResourceStatus := .unknown
  cpuHostPercent : Option ℚ := none
  memoryBytes : Option Int := none
  rxBPS : Option ℚ := none
  txBPS : Option ℚ := none
  blockReadBPS : Option ℚ := none
  blockWriteBPS : Option ℚ := none
  lastSeenAt : Time := zeroTime
  category : String := ""
  context : String := ""
  project : String := ""
  environment : String := ""
  infrastructure : Bool := false
  components : List ResourceComponent := []
  stableKey : String := ""
  sourceKind : String := ""
  manualName : Bool := false
  manualContext : Bool := false
  deriving DecidableEq

/-- `CollectorHealth` (types.go:157-162). -/
structure CollectorHealth where
  name : String
  state : CollectorState
  reason : String := ""
  freshAt : Time := zeroTime
  deriving DecidableEq

/-- `Event` (types.go:163-173); `Sequence` is a counter and modelled by `Nat`. -/
structure Event where
  id : Nat := 0
  at_ : Time
  type : String
  resourceId : String := ""
  containerInstance : String := ""
  severity : String := ""
  message : String := ""
  details : String := ""
  correlationKey : String := ""
  deriving DecidableEq

/-- `Snapshot` (types.go:174-181). -/
structure Snapshot where
  sequence : Nat := 0
  at_ : Time := zeroTime
  bootIdentity : String := ""
  host : HostObservation := {}
  resources : List ResourceSnapshot := []
  collectors : List (String × CollectorHealth) := []
  deriving DecidableEq

/-- `FilesystemObservation` (types.go:182-194). -/
structure FilesystemObservation where
  at_ : Time
  mountKey : String
  mountPoint : String
  fsType : String
  totalBytes : Option Int := none
  usedBytes : Option Int := none
  availableBytes : Option Int := none
  usedPercent : Option ℚ := none
  inodesTotal : Option Int := none
  inodesUsed : Option Int := none
  inodesUsedPercent : Option ℚ := none
  deriving DecidableEq

/-- `PersistenceBatch` (types.go:196-200). -/
structure PersistenceBatch where
  snapshot : Snapshot
  events : List Event
  filesystems : List FilesystemObservation
  deriving DecidableEq

end Binnacle.Metrics
