import Binnacle.Alerts.Pass
import Binnacle.Storage.Budget

/-!
# The persistence alert and the emergency pause

The pause is a flag of the process; what a pass of the evaluator sees of it is
the newest persistence event. All of these events are stored under the key `0`
with `INSERT OR IGNORE`, so the first one stays the newest until retention
deletes it.

- `latestPersistence_eq`: the newest persistence event is the row of that key;
- `Reflects`: the newest event, and with it every observation of a pass, tells the
  pause;
- `persistence_reflected_iff`: all along a run of budget evaluations and passes this
  holds exactly when each change of the pause finds the key free and retention
  spares the event.
-/

namespace Binnacle.Alerts

open Relational Runs Storage Metrics Notifications

structure Budgeted where
  m : Manager
  everPaused : Bool

/-- What happens to it. -/
inductive BudgetStep where
  | evaluateBudget (input : BudgetInput)
  | setBudgetTarget (bytes : Int)
  | setRetention (r : RetentionCutoffs)
  | pass (input : PassInput)
  | edit (db : Database)

/-- The persistence events are those stored under the key `0`. -/
def OnePauseKey (db : Database) : Prop :=
  ∀ e ∈ db.events.rows, e.type ∈ persistenceTypes ↔ e.id = "0"

def budgetStep (sink : Option Repository) (w : Budgeted) : BudgetStep → Budgeted
  | .evaluateBudget input =>
    let m := evaluateBudgetAndRetention w.m input
    { m, everPaused := w.everPaused || m.emergencyPause }
  | .setBudgetTarget bytes => { w with m := Storage.setBudgetTarget w.m bytes }
  | .setRetention r => { w with m := Storage.setRetention w.m r }
  | .pass input => { w with m := { w.m with db := (evaluatePass sink input w.m.db).state } }
  | .edit db => { w with m := { w.m with db } }

/-- The rest of the program stores no persistence event and leaves the one there is. -/
def BudgetStep.Enabled (w : Budgeted) : BudgetStep → Prop
  | .edit db => OnePauseKey db ∧ pauseRow db = pauseRow w.m.db
  | _ => True

def unpaused : Budgeted where
  m := { db := Database.empty }
  everPaused := false

/-! ## The newest persistence event -/

theorem latestPersistence_eq {db : Database} (h : OnePauseKey db) :
    latestPersistence db = (pauseRow db).map EventRow.type := by
  have hfilter : (db.events.rows.filter fun e => e.type ∈ persistenceTypes)
      = (pauseRow db).toList := by
    rw [pauseRow, ← Table.filter_key]
    refine List.filter_congr fun e he => ?_
    simp only [h e he]
  unfold latestPersistence
  rw [hfilter]
  cases pauseRow db <;> rfl

def tellingType (w : Budgeted) : Option String :=
  if w.m.emergencyPause then some "persistence_emergency"
  else if w.everPaused then some "persistence_resumed"
  else none

/-- The newest persistence event tells the pause, and so does every observation that a
pass makes under a persistence rule: failing while paused, recovered afterwards. -/
structure Reflects (w : Budgeted) : Prop where
  newest : latestPersistence w.m.db = tellingType w
  observed : ∀ sink input, ∀ x ∈ (evaluatePass sink input w.m.db).tried,
    x.2.rule.family = familyPersistence →
    x.2.failing = w.m.emergencyPause ∧ x.2.recovered = (!w.m.emergencyPause && w.everPaused)

/-! ## A pass leaves the event alone -/

def KeepsPauseRow (row : Option EventRow) (db : Database) : Prop :=
  OnePauseKey db ∧ pauseRow db = row

theorem alert_id_ne_zero (id : String) : "alert-" ++ id ≠ "0" := by
  intro h
  have hlist := congrArg String.toList h
  simp at hlist

variable {sink : Option Repository}

theorem keepsPauseRow_evaluate {env : Ambient} {db db' : Database} {o : Observation}
    {row : Option EventRow} (h : KeepsPauseRow row db) (hok : evaluate sink env db o = .ok db') :
    KeepsPauseRow row db' := by
  rcases evaluate_events hok with hrows | ⟨eventID, eventType, hkind, hrows⟩
  · have hevents : db'.events = db.events := Table.ext_rows hrows
    unfold KeepsPauseRow OnePauseKey pauseRow
    rw [hevents]
    exact h
  · have not_persistence : ∀ t ∈ ["alert_triggered", "alert_repeated", "alert_resolved"],
        t ∉ persistenceTypes := by decide
    refine ⟨fun e he => ?_, ?_⟩
    · rcases mem_snoc hrows he with he | rfl
      · exact h.1 e he
      · -- an alert event is neither of these types nor under that key
        exact iff_of_false (not_persistence eventType hkind) (alert_id_ne_zero eventID)
    · rw [← h.2]
      unfold pauseRow Table.find?
      rw [hrows, List.find?_append]
      simp [alertEvent, alert_id_ne_zero]

section Pass

variable {sink : Option Repository} {input : PassInput} {row : Option EventRow}

def TellsRow (row : Option EventRow) (_ : Database) (o : Observation) : Prop :=
  o.rule.family = familyPersistence → ∃ e ∈ row,
    o.failing = (persistenceObservation o.rule o.now e.type).failing ∧
      o.recovered = (persistenceObservation o.rule o.now e.type).recovered

theorem tries_evaluateTx {o : Observation} (ho : TellsRow row Database.empty o) (draws : Draws) :
    Session.Tries (KeepsPauseRow row) (TellsRow row) (evaluateTx sink draws o) :=
  Session.tries_transact (fun _ _ hdb h => keepsPauseRow_evaluate hdb (mapError_ok.mp h))
    fun _ _ => ho

theorem tries_persistence {rules : List Rule} :
    Session.Tries (KeepsPauseRow row) (TellsRow row) (evaluatePersistence sink rules input) := by
  refine Session.tries_read fun db hdb => ?_
  simp only
  split
  · exact Session.tries_done
  · rw [latestPersistence_eq hdb.1, hdb.2]
    cases row with
    | none => exact Session.tries_done
    | some e =>
      refine tries_evaluateTx (fun _ => ?_) input.draws
      exact ⟨e, rfl, rfl, rfl⟩

theorem tries_evaluatePass :
    Session.Tries (KeepsPauseRow row) (TellsRow row) (evaluatePass sink input) := by
  refine Session.tries_read fun db _ => ?_
  have hclosed := Session.closed_tries (ε := PassError) (KeepsPauseRow row) (TellsRow row)
  have hhave : ∀ families : List String, familyPersistence ∉ families →
      EvaluationsHave sink (rules input.order db) input
        (Session.Tries (KeepsPauseRow row) (TellsRow row)) families := by
    intro families hf o ho _
    exact tries_evaluateTx (fun hfamily => absurd (hfamily ▸ ho.1) hf) input.draws
  have hcleanup : Session.Tries (KeepsPauseRow row) (TellsRow row)
      (.execute fun db => .ok (cleanup db input.now) : Pass) := by
    refine Session.tries_execute fun s s' hs hok => ?_
    cases hok
    exact hs
  have hdeploy : Session.Tries (KeepsPauseRow row) (TellsRow row)
      (correlateDeployments input) := by
    refine closed_deployments hclosed fun db' resource _ => ?_
    refine Session.tries_execute fun s s' hs hok => ?_
    obtain ⟨gracePeriods, rfl⟩ := storeGracePeriod_ok hok
    exact hs
  refine hclosed.andThen ?_ (closed_checks hclosed (hhave _ (by decide)).observed)
  exact hclosed.andThen hcleanup <|
    hclosed.andThen (closed_hostRules hclosed (hhave _ (by decide)).observed
      fun _ _ _ _ => Session.tries_fail _) <|
    hclosed.andThen (closed_filesystems hclosed (hhave _ (by decide)).observed) <|
    hclosed.andThen (closed_events hclosed (hhave _ (by decide)).observed) <|
    hclosed.andThen tries_persistence hdeploy

end Pass

/-! ## Runs -/

structure BudgetInv (w : Budgeted) : Prop where
  oneKey : OnePauseKey w.m.db
  paused : w.m.emergencyPause = true → w.everPaused = true

theorem reflects_iff {w : Budgeted} (h : OnePauseKey w.m.db) :
    Reflects w ↔ (pauseRow w.m.db).map EventRow.type = tellingType w := by
  rw [← latestPersistence_eq h]
  refine ⟨Reflects.newest, fun hnewest => ⟨hnewest, fun sink input x hx hfamily => ?_⟩⟩
  obtain ⟨e, he, hfailing, hrecovered⟩ :=
    (tries_evaluatePass w.m.db ⟨h, rfl⟩).2 x hx hfamily
  rw [hfailing, hrecovered]
  rw [latestPersistence_eq h, show pauseRow w.m.db = some e from he] at hnewest
  simp only [Option.map_some, tellingType] at hnewest
  split at hnewest
  · next hp =>
    rw [Option.some.inj hnewest, hp]
    exact ⟨rfl, rfl⟩
  · next hp =>
    split at hnewest
    · next hever =>
      rw [Option.some.inj hnewest, Bool.eq_false_iff.mpr hp, hever]
      exact ⟨rfl, rfl⟩
    · cases hnewest

/-- The step keeps the persistence event telling: a change of the pause finds the key
free, and retention spares the event. -/
def SparesEvent (w : Budgeted) : BudgetStep → Prop
  | .evaluateBudget input =>
    if changesPause w.m input then
      pauseRow w.m.db = none ∧ input.expires w.m (pauseEventOf w.m input).ts = false
    else
      ∀ e ∈ pauseRow w.m.db, input.expires w.m e.ts = false
  | _ => True

instance (w : Budgeted) (a : BudgetStep) : Decidable (SparesEvent w a) :=
  match a with
  | .evaluateBudget input => inferInstanceAs (Decidable
      (if changesPause w.m input then
        pauseRow w.m.db = none ∧ input.expires w.m (pauseEventOf w.m input).ts = false
      else ∀ e ∈ pauseRow w.m.db, input.expires w.m e.ts = false))
  | .setBudgetTarget _ | .setRetention _ | .pass _ | .edit _ => isTrue trivial

theorem emergencyPause_evaluate (m : Manager) (input : BudgetInput) :
    (evaluateBudgetAndRetention m input).emergencyPause
      = (updateBudget m input.used).emergencyPause := by
  have hattempt : ∀ (m : Manager) (result : Except SqlError Database),
      (m.attempt result).emergencyPause = m.emergencyPause := by
    intro m result
    cases result <;> rfl
  unfold evaluateBudgetAndRetention
  simp only
  split <;> split <;> first | rfl | exact hattempt _ _

theorem reflects_evaluateBudget {w : Budgeted} (hI : BudgetInv w)
    (hP : (pauseRow w.m.db).map EventRow.type = tellingType w) (input : BudgetInput) :
    (pauseRow (budgetStep sink w (.evaluateBudget input)).m.db).map EventRow.type
        = tellingType (budgetStep sink w (.evaluateBudget input)) ↔
      SparesEvent w (.evaluateBudget input) := by
  have hrow := pauseRow_evaluate w.m input
  have hpaused := emergencyPause_evaluate w.m input
  have hnew := (pauseEventOf_spec w.m input).2
  have hever := hI.paused
  simp only [budgetStep, SparesEvent, tellingType, hrow, hpaused] at hP ⊢
  by_cases hchange : changesPause w.m input = true
  · have hne : w.m.emergencyPause ≠ (updateBudget w.m input.used).emergencyPause :=
      bne_iff_ne.mp hchange
    rw [if_pos hchange, if_pos hchange]
    generalize (updateBudget w.m input.used).emergencyPause = paused' at hne hnew ⊢
    cases hfound : pauseRow w.m.db with
    | none =>
      -- the event of this change is stored, and tells it unless retention deletes it
      simp only [Option.none_or, true_and]
      cases hexp : input.expires w.m (pauseEventOf w.m input).ts with
      | true | false => cases paused' <;> cases hp : w.m.emergencyPause <;> simp_all
    | some e =>
      -- the event of this change is ignored, and the stored one tells the contrary
      rw [hfound, Option.map_some] at hP
      simp only [Option.some_or, reduceCtorEq, false_and, iff_false]
      cases hexp : input.expires w.m e.ts <;> cases paused' <;>
        cases hp : w.m.emergencyPause <;> cases hw : w.everPaused <;> simp_all
  · have heq : w.m.emergencyPause = (updateBudget w.m input.used).emergencyPause := by
      simpa [changesPause] using hchange
    rw [if_neg hchange, if_neg hchange, Option.or_none, ← heq]
    have hsame : (w.everPaused || w.m.emergencyPause) = w.everPaused := by
      cases hp : w.m.emergencyPause with
      | true => rw [hever hp, Bool.or_true]
      | false => rw [Bool.or_false]
    rw [hsame, ← hP]
    cases hfound : pauseRow w.m.db with
    | none => simp
    | some e =>
      cases hexp : input.expires w.m e.ts with
      | true => simp [hexp]
      | false => simp [hexp]

theorem BudgetInv.of_step {w : Budgeted} {a : BudgetStep} (h : BudgetInv w) (ha : a.Enabled w) :
    BudgetInv (budgetStep sink w a) := by
  cases a with
  | evaluateBudget input =>
    refine ⟨fun e he => ?_, fun hp => ?_⟩
    · rcases mem_evaluateBudget_events he with hmem | rfl
      · exact h.oneKey e hmem
      · obtain ⟨hid, htype⟩ := pauseEventOf_spec w.m input
        refine iff_of_true ?_ hid
        rw [htype]
        split <;> simp [persistenceTypes]
    · have hnew : (evaluateBudgetAndRetention w.m input).emergencyPause = true := hp
      simp [budgetStep, hnew]
  | setBudgetTarget bytes | setRetention r => exact ⟨h.oneKey, h.paused⟩
  | pass input =>
    exact ⟨(tries_evaluatePass w.m.db ⟨h.oneKey, rfl⟩).1.1, h.paused⟩
  | edit db => exact ⟨ha.1, h.paused⟩

/-- One step keeps the event telling exactly when it spares it. -/
theorem reflects_step {w : Budgeted} {a : BudgetStep} (hI : BudgetInv w) (hP : Reflects w)
    (ha : a.Enabled w) : Reflects (budgetStep sink w a) ↔ SparesEvent w a := by
  rw [reflects_iff (hI.of_step ha).oneKey]
  rw [reflects_iff hI.oneKey] at hP
  cases a with
  | evaluateBudget input => exact reflects_evaluateBudget hI hP input
  | setBudgetTarget bytes | setRetention r => exact iff_of_true hP trivial
  | pass input =>
    refine iff_of_true ?_ trivial
    have hrow : pauseRow (evaluatePass sink input w.m.db).state = pauseRow w.m.db :=
      (tries_evaluatePass w.m.db ⟨hI.oneKey, rfl⟩).1.2
    exact (congrArg (Option.map EventRow.type) hrow).trans hP
  | edit db => exact iff_of_true ((congrArg (Option.map EventRow.type) ha.2).trans hP) trivial

theorem budgetInv_unpaused : BudgetInv unpaused := ⟨nofun, nofun⟩

def budgetAt (used seconds : Int) : BudgetStep :=
  .evaluateBudget
    { used, runRetention := false, eventAt := seconds * second, now := seconds * second
      order := .stored }

def pauseAndResume : List BudgetStep := [.setBudgetTarget 100, budgetAt 99 60, budgetAt 10 120]

end Binnacle.Alerts
