import Binnacle.Alerts.Types

/-!
# Incident and delivery records (`internal/notifications/types.go`)

The JSON body of a delivery is modelled by the record it is marshalled from.
-/

namespace Binnacle.Notifications

open Alerts

/-- `CHECK(status IN ('open','resolved'))` of `incidents`. -/
inductive IncidentStatus where
  | opened | resolved
  deriving DecidableEq

/-- `CHECK(event_type IN ('opened','updated','reminder','resolved','test'))`. -/
inductive DeliveryEvent where
  | opened | updated | reminder | resolved | test
  deriving DecidableEq

/-- `CHECK(status IN ('pending','in_progress',…))` of `notification_deliveries`. -/
inductive DeliveryStatus where
  | pending | inProgress | succeeded | permanentFailure | cancelled
  deriving DecidableEq

/-- `CHECK(status IN ('firing','resolved'))` of `alerts`. -/
inductive AlertStatus where
  | firing | resolved
  deriving DecidableEq

/-- `MemberAlert` (types.go:25-33). -/
structure MemberAlert where
  id : String
  family : String
  severity : Level
  status : AlertStatus
  message : String
  startedAt : Int
  resolvedAt : Option Int
  deriving DecidableEq

/-- `Incident` (types.go:7-23), as `payloadTx` fills it. -/
structure Incident where
  id : String
  groupKey : String
  status : IncidentStatus
  severity : Level
  targetType : String
  targetId : String
  title : String
  alertCount : Nat
  firingCount : Nat
  openedAt : Int
  updatedAt : Int
  resolvedAt : Option Int
  version : Nat
  alerts : List MemberAlert
  deriving DecidableEq

/-- The body of a delivery: `{"schemaVersion":1,"eventType":…,"deliveryId":…,
"idempotencyKey":…,"incident":…}`; the incident is absent in a test message. -/
structure Payload where
  schemaVersion : Nat := 1
  eventType : DeliveryEvent
  deliveryId : String
  idempotencyKey : String
  incident : Option Incident
  deriving DecidableEq

end Binnacle.Notifications
