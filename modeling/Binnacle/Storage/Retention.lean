import Binnacle.Storage.Writer

/-!
# Retention (`internal/storage/retention.go`, `applyRetention`)

Each table of the retention map is emptied of the rows older than its cutoff,
a limited number of rows per `DELETE`, until a `COUNT` finds none
(`Relational.Table.drain`). Every `DELETE` is committed on its own.

- `expireTable_eq`: the loop over a table deletes its expired rows;
- `applyRetention_order_free`: the order of the map and the batch size do not matter.
-/

namespace Binnacle.Storage

open Relational

/-- The tables of the retention map (retention.go:107-121);
`network_interface_samples_1m` is never written. -/
inductive RetentionTable where
  | hostSamples | resourceSamples | instanceSamples | filesystemSamples
  | events | collectorStateEvents
  | hostRollups (tier : Tier)
  | resourceRollups (tier : Tier)
  deriving DecidableEq

def retentionTables : List RetentionTable :=
  [.hostSamples, .resourceSamples, .instanceSamples, .filesystemSamples, .events,
    .collectorStateEvents, .hostRollups .oneMinute, .resourceRollups .oneMinute,
    .hostRollups .fifteenMinute, .resourceRollups .fifteenMinute, .hostRollups .oneHour,
    .resourceRollups .oneHour]

def RetentionCutoffs.tier (r : RetentionCutoffs) : Tier → Duration
  | .oneMinute => r.oneMinute
  | .fifteenMinute => r.fifteenMinute
  | .oneHour => r.oneHour

def RetentionCutoffs.duration (r : RetentionCutoffs) : RetentionTable → Duration
  | .hostRollups tier | .resourceRollups tier => r.tier tier
  | _ => r.raw

/-- Replace one table of the retention map by `f` of it and its `ts` column. -/
def RetentionTable.modify (table : RetentionTable)
    (f : {ρ κ : Type} → {key : ρ → κ} → [DecidableEq κ] → (ρ → Int) → Table key → Table key)
    (db : Database) : Database :=
  match table with
  | .hostSamples => { db with hostSamples := f HostSample.ts db.hostSamples }
  | .resourceSamples => { db with resourceSamples := f ResourceSample.ts db.resourceSamples }
  | .instanceSamples => { db with instanceSamples := f InstanceSample.ts db.instanceSamples }
  | .filesystemSamples =>
    { db with filesystemSamples := f FilesystemSample.ts db.filesystemSamples }
  | .events => { db with events := f EventRow.ts db.events }
  | .collectorStateEvents =>
    { db with collectorStateEvents := f CollectorStateEvent.ts db.collectorStateEvents }
  | .hostRollups tier =>
    { db with hostRollups := fun t =>
        if t = tier then f HostRollup.ts (db.hostRollups t) else db.hostRollups t }
  | .resourceRollups tier =>
    { db with resourceRollups := fun t =>
        if t = tier then f ResourceRollup.ts (db.resourceRollups t) else db.resourceRollups t }

/-- `DELETE FROM table WHERE rowid IN (SELECT rowid FROM table WHERE ts<? LIMIT ?)`
(retention.go:138). -/
def deleteExpired (order : RowOrder) (limit : Nat) (cutoff : Int) (table : RetentionTable) :
    Database → Database :=
  table.modify fun ts t => t.deleteSome order limit fun r => ts r < cutoff

/-- The loop over one table (retention.go:131-150). -/
def expireTable (order : RowOrder) (limit : Nat) (cutoff : Int) (table : RetentionTable) :
    Database → Database :=
  table.modify fun ts t => Table.drain order limit (fun r => ts r < cutoff) t.rows.length t

/-- The number of rows a `DELETE` takes at once (retention.go:122-125). -/
def retentionLimit (aggressive : Bool) : Nat := if aggressive then 2000 else 500

/-- `applyRetention` (retention.go:102-157); `order` also arranges the map. -/
def applyRetention (order : RowOrder) (r : RetentionCutoffs) (aggressive : Bool) (now : Time)
    (db : Database) : Database :=
  if r.raw = 0 then db
  else (order.arrange retentionTables).foldl (fun db table =>
    if r.duration table ≤ 0 then db
    else expireTable order (retentionLimit aggressive) (unixMilli (now - r.duration table)) table
      db) db

theorem expireTable_eq (order : RowOrder) {limit : Nat} (hlimit : 0 < limit) (cutoff : Int)
    (table : RetentionTable) :
    expireTable order limit cutoff table =
      table.modify fun ts t => t.delete fun r => ts r < cutoff := by
  unfold expireTable
  congr 1
  funext ρ κ key _ ts t
  exact Table.drain_eq order hlimit _ List.countP_le_length

/-! ## The loops as sequences of deletes -/

def RetentionTable.rowCount (table : RetentionTable) (db : Database) : Nat :=
  match table with
  | .hostSamples => db.hostSamples.rows.length
  | .resourceSamples => db.resourceSamples.rows.length
  | .instanceSamples => db.instanceSamples.rows.length
  | .filesystemSamples => db.filesystemSamples.rows.length
  | .events => db.events.rows.length
  | .collectorStateEvents => db.collectorStateEvents.rows.length
  | .hostRollups tier => (db.hostRollups tier).rows.length
  | .resourceRollups tier => (db.resourceRollups tier).rows.length

section Modify

variable {f g : {ρ κ : Type} → {key : ρ → κ} → [DecidableEq κ] → (ρ → Int) → Table key → Table key}

theorem RetentionTable.modify_congr {table : RetentionTable} {db : Database}
    (h : ∀ {ρ κ : Type} {key : ρ → κ} [DecidableEq κ] (ts : ρ → Int) (t : Table key),
      t.rows.length ≤ table.rowCount db → f ts t = g ts t) :
    table.modify f db = table.modify g db := by
  cases table with
  | hostRollups tier | resourceRollups tier =>
    simp only [modify]
    congr 1
    funext t
    split
    · next ht => rw [ht, h _ _ (Nat.le_refl _)]
    · rfl
  | _ => simp only [modify]; rw [h _ _ (Nat.le_refl _)]

theorem RetentionTable.modify_modify (table : RetentionTable) (db : Database) :
    table.modify g (table.modify f db) = table.modify (fun ts t => g ts (f ts t)) db := by
  cases table with
  | hostRollups tier | resourceRollups tier =>
    simp only [modify]
    congr 1
    funext t
    split <;> rfl
  | _ => rfl

theorem RetentionTable.modify_comm (h : ∀ {ρ κ : Type} {key : ρ → κ} [DecidableEq κ] (ts : ρ → Int)
      (t : Table key), f ts (g ts t) = g ts (f ts t)) (table table' : RetentionTable)
    (db : Database) :
    table.modify f (table'.modify g db) = table'.modify g (table.modify f db) := by
  cases table <;> cases table' <;> simp only [modify, h]
  all_goals
    congr 1
    funext t
    split_ifs <;> simp only [h]

theorem RetentionTable.modify_self {table : RetentionTable} (db : Database) :
    table.modify (fun _ t => t) db = db := by
  cases table with
  | hostRollups tier => simp [modify]
  | resourceRollups tier => simp [modify]
  | _ => rfl

theorem RetentionTable.iterate_modify (table : RetentionTable) (n : Nat) (db : Database) :
    (table.modify f)^[n] db = table.modify (fun ts t => (f ts)^[n] t) db := by
  induction n with
  | zero => exact (modify_self db).symm
  | succ n ih =>
    rw [Function.iterate_succ_apply', ih, modify_modify]
    simp only [Function.iterate_succ_apply']

end Modify

/-- The loop over one table is as many deletes as the table has rows, or fewer:
those that find nothing change nothing. -/
theorem expireTable_iterate (order : RowOrder) {limit : Nat} (hlimit : 0 < limit) (cutoff : Int)
    (table : RetentionTable) (db : Database) :
    expireTable order limit cutoff table db
      = (deleteExpired order limit cutoff table)^[table.rowCount db] db := by
  rw [expireTable_eq order hlimit, deleteExpired, table.iterate_modify]
  refine RetentionTable.modify_congr fun ts t ht => ?_
  exact (Table.iterate_deleteSome order hlimit _ (le_trans List.countP_le_length ht)).symm

/-- What `applyRetention` leaves depends neither on the order of the map and of the rows nor on
how many rows a `DELETE` takes. -/
theorem applyRetention_order_free (order order' : RowOrder) (r : RetentionCutoffs)
    (aggressive aggressive' : Bool) (now : Time) (db : Database) :
    applyRetention order r aggressive now db = applyRetention order' r aggressive' now db := by
  have hlimit : ∀ b, 0 < retentionLimit b := by decide
  unfold applyRetention
  simp only [expireTable_eq _ (hlimit _)]
  split
  · rfl
  · refine ((order.perm _).trans (order'.perm _).symm).foldl_eq' (fun a _ b _ s => ?_) db
    split_ifs
    · rfl
    · rfl
    · rfl
    · refine RetentionTable.modify_comm (fun ts t => Table.ext_rows ?_) b a s
      simp only [Table.delete, List.filter_filter, Bool.and_comm]

end Binnacle.Storage
