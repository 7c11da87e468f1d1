import Binnacle.Storage.Retention

/-!
# The storage budget (`internal/storage/budget.go`, `retention.go`)

Every minute the size of the database is compared with its target; at the
emergency threshold the writer is paused, and each change of that is recorded as
an event. `WriteEvent` gets an event without an id, so all of them are stored
under the key `0`.

- `applyRetention_events`: what retention leaves of the events;
- `pauseRow_evaluate`: what a budget evaluation leaves under that key.
-/

namespace Binnacle.Storage

open Relational Metrics

/-- `EvaluateBudget` (budget.go:13-28). The ratio of the sizes is taken exactly. -/
def evaluateBudget (used target : Int) (warning critical emergency : ℚ) : BudgetState :=
  if target ≤ 0 then .ok
  else
    let r : ℚ := used / target
    if r ≥ emergency then .emergency
    else if r ≥ critical then .critical
    else if r ≥ warning then .warning
    else .ok

/-- `SetRetention` (retention.go:13-17). -/
def setRetention (m : Manager) (r : RetentionCutoffs) : Manager := { m with retention := r }

/-- `SetBudgetTarget` (retention.go:20-24). -/
def setBudgetTarget (m : Manager) (bytes : Int) : Manager :=
  { m with budget := { m.budget with targetBytes := bytes } }

/-- The event of a pause or of its end (retention.go:77-79). -/
def pauseEvent (paused : Bool) (at_ : Time) : Event :=
  if paused then
    { at_, type := "persistence_emergency", severity := "critical", message :=
        "Raw history persistence paused; database volume reached emergency threshold" }
  else
    { at_, type := "persistence_resumed", severity := "info", message :=
        "Raw history persistence resumed; database volume below emergency threshold" }

/-- What a budget evaluation takes from outside: the size of the files, whether
retention is due, and the two readings of the clock. -/
structure BudgetInput where
  used : Int
  runRetention : Bool
  eventAt : Time
  now : Time
  order : RowOrder

def budgetState (m : Manager) (used : Int) : BudgetState :=
  evaluateBudget used m.budget.targetBytes (4 / 5) (19 / 20) (49 / 50)

/-- The new budget and pause (retention.go:65-71). -/
def updateBudget (m : Manager) (used : Int) : Manager :=
  { m with
    budget := ⟨used, m.budget.targetBytes, budgetState m used⟩
    emergencyPause := budgetState m used = .emergency }

/-- `evaluateBudgetAndRetention` (retention.go:60-89). -/
def evaluateBudgetAndRetention (m : Manager) (input : BudgetInput) : Manager :=
  let updated := updateBudget m input.used
  let recorded :=
    if m.emergencyPause = updated.emergencyPause then updated
    else updated.attempt
      (writeEvent updated.db (pauseEvent updated.emergencyPause input.eventAt))
  if input.runRetention then
    { recorded with
      db := applyRetention input.order m.retention
        (updated.budget.state = .critical || updated.budget.state = .emergency) input.now
        recorded.db }
  else recorded

/-! ## What retention leaves of the events -/

theorem expireTable_events (order : RowOrder) {limit : Nat} (hlimit : 0 < limit) (cutoff : Int)
    (table : RetentionTable) (db : Database) :
    (expireTable order limit cutoff table db).events
      = if table = .events then db.events.delete fun e => e.ts < cutoff else db.events := by
  rw [expireTable_eq order hlimit]
  cases table <;> rfl

def expires (r : RetentionCutoffs) (now : Time) (ts : Int) : Bool :=
  0 < r.raw && ts < unixMilli (now - r.raw)

theorem delete_expires_of_nonpos {r : RetentionCutoffs} (h : r.raw ≤ 0) (now : Time)
    (t : Table EventRow.id) : (t.delete fun e => expires r now e.ts) = t := by
  refine Table.delete_eq_self (List.countP_eq_zero.mpr fun e _ hexp => ?_)
  simp only [expires, Bool.and_eq_true, decide_eq_true_eq] at hexp
  exact absurd hexp.1 (Int.not_lt.mpr h)

def expireOne (order : RowOrder) (limit : Nat) (r : RetentionCutoffs) (now : Time) (db : Database)
    (table : RetentionTable) : Database :=
  if r.duration table ≤ 0 then db
  else expireTable order limit (unixMilli (now - r.duration table)) table db

theorem expireOne_events (order : RowOrder) {limit : Nat} (hlimit : 0 < limit)
    (r : RetentionCutoffs) (now : Time) (table : RetentionTable) (db : Database) :
    (expireOne order limit r now db table).events
      = if table = .events then db.events.delete fun e => expires r now e.ts else db.events := by
  unfold expireOne
  split
  · next hskip =>
    split
    · next htable =>
      subst htable
      exact (delete_expires_of_nonpos hskip now db.events).symm
    · rfl
  · next hdue =>
    rw [expireTable_events order hlimit]
    split
    · next htable =>
      subst htable
      have hraw : 0 < r.raw := Int.not_le.mp hdue
      simp only [expires, hraw, decide_true, Bool.true_and]
      rfl
    · rfl

theorem foldl_expireOne_events (order : RowOrder) {limit : Nat} (hlimit : 0 < limit)
    (r : RetentionCutoffs) (now : Time) {tables : List RetentionTable} {db : Database}
    (h : .events ∈ tables ∨ (db.events.delete fun e => expires r now e.ts) = db.events) :
    (tables.foldl (expireOne order limit r now) db).events
      = db.events.delete fun e => expires r now e.ts := by
  induction tables generalizing db with
  | nil =>
    rcases h with h | h
    · cases h
    · exact h.symm
  | cons table tables ih =>
    have hone := expireOne_events order hlimit r now table db
    rw [List.foldl_cons]
    by_cases htable : table = .events
    · rw [if_pos htable] at hone
      rw [ih (.inr ?_), hone, Table.delete_delete]
      rw [hone, Table.delete_delete]
    · rw [if_neg htable] at hone
      rw [ih ?_, hone]
      rw [hone]
      refine h.imp_left fun hmem => ?_
      exact (List.mem_cons.mp hmem).resolve_left (Ne.symm htable)

theorem retentionLimit_pos (aggressive : Bool) : 0 < retentionLimit aggressive := by
  cases aggressive <;> decide

theorem applyRetention_events (order : RowOrder) (r : RetentionCutoffs) (aggressive : Bool)
    (now : Time) (db : Database) :
    (applyRetention order r aggressive now db).events
      = db.events.delete fun e => expires r now e.ts := by
  unfold applyRetention
  split
  · next hraw => exact (delete_expires_of_nonpos (le_of_eq hraw) now db.events).symm
  · refine foldl_expireOne_events order (retentionLimit_pos aggressive) r now (.inl ?_)
    rw [order.mem_arrange]
    decide

/-! ## The event of the pause -/

/-- The event stored under the key `0`. -/
def pauseRow (db : Database) : Option EventRow := db.events.find? "0"

def changesPause (m : Manager) (input : BudgetInput) : Bool :=
  m.emergencyPause != (updateBudget m input.used).emergencyPause

def BudgetInput.expires (input : BudgetInput) (m : Manager) (ts : Int) : Bool :=
  input.runRetention && Storage.expires m.retention input.now ts

def pauseEventOf (m : Manager) (input : BudgetInput) : EventRow :=
  eventRow (pauseEvent (updateBudget m input.used).emergencyPause input.eventAt)

theorem pauseEvent_id (paused : Bool) (at_ : Time) : (pauseEvent paused at_).id = 0 := by
  cases paused <;> rfl

theorem evaluateBudget_events (m : Manager) (input : BudgetInput) :
    (evaluateBudgetAndRetention m input).db.events
      = (if changesPause m input then m.db.events.insertOrIgnore (pauseEventOf m input)
          else m.db.events).delete fun e => input.expires m e.ts := by
  have hwrite : ∀ db : Database, writeEvent db
      (pauseEvent (updateBudget m input.used).emergencyPause input.eventAt)
        = .ok { db with events := db.events.insertOrIgnore (pauseEventOf m input) } := by
    intro db
    refine if_pos ?_
    rw [pauseEvent_id]
    decide
  have hrecorded : (if m.emergencyPause = (updateBudget m input.used).emergencyPause then
        updateBudget m input.used
      else (updateBudget m input.used).attempt (writeEvent (updateBudget m input.used).db
        (pauseEvent (updateBudget m input.used).emergencyPause input.eventAt))).db.events
      = if changesPause m input then m.db.events.insertOrIgnore (pauseEventOf m input)
        else m.db.events := by
    unfold changesPause
    split
    · next hsame =>
      simp only [hsame, bne_self_eq_false, Bool.false_eq_true, if_false]
      rfl
    · next hchange =>
      rw [hwrite, if_pos (bne_iff_ne.mpr hchange)]
      rfl
  unfold evaluateBudgetAndRetention
  simp only
  split
  · next hdue =>
    simp only [applyRetention_events, hrecorded, BudgetInput.expires, hdue, Bool.true_and]
  · next hnot =>
    simp only [hrecorded, BudgetInput.expires, hnot, Bool.false_and]
    refine (Table.delete_eq_self ?_).symm
    simp

theorem mem_evaluateBudget_events {m : Manager} {input : BudgetInput} {e : EventRow}
    (h : e ∈ (evaluateBudgetAndRetention m input).db.events.rows) :
    e ∈ m.db.events.rows ∨ e = pauseEventOf m input := by
  rw [evaluateBudget_events, Table.mem_delete] at h
  split at h
  · exact Table.mem_insertOrIgnore h.1
  · exact .inl h.1

theorem pauseEventOf_spec (m : Manager) (input : BudgetInput) :
    (pauseEventOf m input).id = "0" ∧ (pauseEventOf m input).type =
      if (updateBudget m input.used).emergencyPause then "persistence_emergency"
      else "persistence_resumed" := by
  refine ⟨?_, ?_⟩
  · simp only [pauseEventOf, eventRow, pauseEvent_id]
    rfl
  · unfold pauseEventOf pauseEvent
    split <;> rfl

/-- What a budget evaluation leaves under the key `0`: the first event stored there
stays, until retention deletes it. -/
theorem pauseRow_evaluate (m : Manager) (input : BudgetInput) :
    pauseRow (evaluateBudgetAndRetention m input).db
      = ((pauseRow m.db).or
          (if changesPause m input then some (pauseEventOf m input) else none)).filter
          fun e => !input.expires m e.ts := by
  unfold pauseRow
  rw [evaluateBudget_events, Table.find?_delete]
  congr 1
  split
  · rw [Table.find?_insertOrIgnore, if_pos (pauseEventOf_spec m input).1]
    cases m.db.events.find? "0" <;> rfl
  · rw [Option.or_none]

end Binnacle.Storage
