import Binnacle.Storage.Schema

/-!
# Health checks (`internal/checks/repository.go`)

The statements of the repository. `Check` has the fields that scheduling and
alerting read; what only the runner reads (name, URL, method, timeout, expected
answer) is left out, and with it the validation of these fields.

- `due_eq_some`, `due_eq_none`: what `Due` lists, and when it refuses its limit;
- `update_frame`: what an edit of a check leaves as it was.
-/

namespace Binnacle.Checks

open Relational Storage

/-- `Check` (types.go:32-47). -/
structure Check where
  id : String
  resourceId : String
  interval : Duration
  required : Bool
  enabled : Bool
  deriving DecidableEq

/-- `Result` (types.go:82-92), as `SaveResult` reads it. -/
structure Result where
  checkId : String
  status : CheckStatus
  checkedAt : Time := zeroTime

/-- A stored check as `scanCheck` reads it (repository.go:101-110). -/
def scanCheck (r : HealthCheckRow) : Check where
  id := r.id
  resourceId := r.resourceId
  interval := r.intervalSeconds * second
  required := r.required
  enabled := r.enabled

def checkRow (c : Check) : HealthCheckRow where
  id := c.id
  resourceId := c.resourceId
  intervalSeconds := c.interval.tdiv second
  required := c.required
  enabled := c.enabled

/-- The constraints of `health_checks` that do not concern its key. -/
def checkRefused (db : Database) (c : Check) : Option SqlError :=
  if c.interval.tdiv second < 10 || 3600 < c.interval.tdiv second then
    some (.check "health_checks.interval_seconds")
  else if !db.resources.has c.resourceId then
    some (.foreignKey "health_checks.resource_id")
  else
    none

/-- `Create` (repository.go:18-33), once the check is valid. -/
def create (db : Database) (c : Check) : Except SqlError Database :=
  match checkRefused db c with
  | some err => .error err
  | none =>
    match db.healthChecks.insert (checkRow c) with
    | none => .error (.unique "health_checks.id")
    | some healthChecks => .ok { db with healthChecks }

/-- `Update` (repository.go:35-48), once the check is valid. -/
def update (db : Database) (c : Check) : Except SqlError Database :=
  if db.healthChecks.has c.id then
    match checkRefused db c with
    | some err => .error err
    | none =>
      .ok { db with
        healthChecks := db.healthChecks.update (fun r => r.id = c.id)
          (fun r => { checkRow c with id := r.id }) (fun _ => rfl) }
  else
    .error .noRows

/-- `Delete` (repository.go:49-52); the check's state goes with it. -/
def delete (db : Database) (id : String) : Database :=
  { db with
    healthChecks := db.healthChecks.delete fun r => r.id = id
    healthCheckState := db.healthCheckState.delete fun s => s.checkId = id }

/-- `Get` (repository.go:53-56). -/
def get (db : Database) (id : String) : Option Check := (db.healthChecks.find? id).map scanCheck

/-- `s.next_run_at` of the check, through the left join. -/
def nextRunAt (db : Database) (r : HealthCheckRow) : Option Int :=
  (db.healthCheckState.find? r.id).bind HealthCheckStateRow.nextRunAt

/-- `r.archived_at IS NULL AND r.status NOT IN ('paused','archived')`. -/
def schedulable (db : Database) (r : HealthCheckRow) : Bool :=
  match db.resources.find? r.resourceId with
  | some res => res.archivedAt.isNone && res.status ≠ "paused" && res.status ≠ "archived"
  | none => false

/-- The `WHERE` clause of `Due`. -/
def isDue (db : Database) (now : Time) (r : HealthCheckRow) : Bool :=
  r.enabled && schedulable db r && (nextRunAt db r).all (· ≤ unix now)

/-- `ORDER BY COALESCE(s.next_run_at,0),c.id`. -/
def dueBefore (db : Database) (a b : HealthCheckRow) : Prop :=
  (nextRunAt db a).getD 0 < (nextRunAt db b).getD 0 ∨
    (nextRunAt db a).getD 0 = (nextRunAt db b).getD 0 ∧ a.id ≤ b.id

instance (db : Database) : DecidableRel (dueBefore db) :=
  fun _ _ => inferInstanceAs (Decidable (_ ∨ _))

/-- All due checks, in the order of `Due`. -/
def allDue (db : Database) (now : Time) : List Check :=
  ((db.healthChecks.rows.filter (isDue db now)).insertionSort (dueBefore db)).map scanCheck

/-- `Due` (repository.go:112-134); `none` is the error for a limit out of range. -/
def due (db : Database) (now : Time) (limit : Nat) : Option (List Check) :=
  if limit < 1 || limit > 1000 then none else some ((allDue db now).take limit)

/-- The row `SaveResult` inserts. -/
def resultRow (c : Check) (result : Result) (checkedAt : Time) : HealthCheckStateRow where
  checkId := result.checkId
  status := result.status
  checkedAt := some (unix checkedAt)
  consecutiveSuccesses := if result.status = .success then 1 else 0
  consecutiveFailures := if result.status = .failure then 1 else 0
  nextRunAt := some (unix (checkedAt + c.interval))

/-- `DO UPDATE SET …` of `SaveResult`. -/
def mergeResult (new row : HealthCheckStateRow) : HealthCheckStateRow :=
  { new with
    checkId := row.checkId
    consecutiveSuccesses := if new.status = .success then row.consecutiveSuccesses + 1 else 0
    consecutiveFailures := if new.status = .failure then row.consecutiveFailures + 1 else 0 }

theorem mergeResult_checkId (new row : HealthCheckStateRow) :
    (mergeResult new row).checkId = row.checkId := rfl

/-- `SaveResult` (repository.go:135-146). -/
def saveResult (db : Database) (c : Check) (result : Result) (wallClock : Time) :
    Except SqlError Database :=
  let checkedAt := if result.checkedAt = zeroTime then wallClock else result.checkedAt
  if db.healthChecks.has result.checkId then
    .ok { db with
      healthCheckState := db.healthCheckState.upsert (resultRow c result checkedAt)
        (mergeResult (resultRow c result checkedAt)) (mergeResult_checkId _) }
  else
    .error (.foreignKey "health_check_state.check_id")

/-! ## What the statements do -/

theorem update_frame {db db' : Database} {c : Check} (h : update db c = .ok db') :
    db' = { db with healthChecks := db'.healthChecks } := by
  unfold update at h
  split at h
  · split at h
    · cases h
    · cases h
      rfl
  · cases h

theorem due_eq_some {db : Database} {now : Time} {limit : Nat} {checks : List Check}
    (h : due db now limit = some checks) :
    1 ≤ limit ∧ limit ≤ 1000 ∧ checks = (allDue db now).take limit := by
  unfold due at h
  split at h
  · cases h
  · next hlimit =>
    simp only [Bool.or_eq_true, decide_eq_true_eq, not_or, Nat.not_lt] at hlimit
    exact ⟨hlimit.1, hlimit.2, (Option.some.inj h).symm⟩

theorem due_eq_none {db : Database} {now : Time} {limit : Nat} (hpos : 0 < limit)
    (h : due db now limit = none) : 1000 < limit := by
  unfold due at h
  split at h
  · next hlimit =>
    simp only [Bool.or_eq_true, decide_eq_true_eq] at hlimit
    omega
  · cases h

end Binnacle.Checks
