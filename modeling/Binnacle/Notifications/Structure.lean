import Binnacle.Alerts.Evaluate
import Binnacle.Alerts.Repository
import Binnacle.Notifications.Repository
import Mathlib.Order.Bounds.Basic

/-!
# The structure of incidents over whole histories

Alerts, memberships and incidents under any interleaving of the transactions
that write them. An incident's severity is raised when an alert joins and
recounted when one leaves; `Structured` is the invariant both formulas keep:
an open incident carries the greatest severity of its firing members.

- `Structured.join`, `Structured.leave`: an alert joins, an alert leaves;
- `Transaction.structured`: every committed transaction keeps `Structured`.
-/

namespace Binnacle.Notifications

open Relational Runs Alerts Storage

/-! ## Severities are ordered -/

def rank : Level → Nat
  | .warning => 0
  | .critical => 1

theorem rank_injective : Function.Injective rank := by
  intro a b h
  cases a <;> cases b <;> first | rfl | cases h

instance : LinearOrder Level := LinearOrder.lift' rank rank_injective

theorem level_le_critical (s : Level) : s ≤ .critical := by
  cases s <;> decide

def severities (db : Database) (incidentID : String) : Set Level :=
  {s | ∃ a ∈ firingMembers db incidentID, a.severity = s}

variable {db db' : Database} {incidentID alertID group : String} {i j : IncidentRow} {env : Ambient}
  {now : Time} {severity level : Level} {m : IncidentAlertRow} {f : IncidentRow → IncidentRow}
  {r : Repository} {a : Alert} {incidents : Table IncidentRow.id}

theorem mem_firingMembers {a : AlertRow} :
    a ∈ firingMembers db incidentID ↔ a ∈ db.alerts.rows ∧ a.status = .firing ∧
      ∃ m ∈ db.incidentAlerts.rows, m.incidentId = incidentID ∧ m.alertId = a.id := by
  simp only [firingMembers, members, List.mem_filter, List.mem_filterMap, decide_eq_true_eq,
    Table.find?_eq_some_iff]
  constructor
  · rintro ⟨⟨m, ⟨hm, hinc⟩, ha, hid⟩, hfiring⟩
    exact ⟨ha, hfiring, m, hm, hinc, hid.symm⟩
  · rintro ⟨ha, hfiring, m, hm, hinc, hid⟩
    exact ⟨⟨m, ⟨hm, hinc⟩, ha, hid.symm⟩, hfiring⟩

/-- What the recount of `AlertResolvedTx` answers. -/
theorem isGreatest_severityOf (h : firingMembers db incidentID ≠ []) :
    IsGreatest (severities db incidentID) (severityOf (firingMembers db incidentID)) := by
  unfold severityOf
  split
  · next hany =>
    obtain ⟨a, ha, hcrit⟩ := List.any_eq_true.mp hany
    exact ⟨⟨a, ha, of_decide_eq_true hcrit⟩, fun s _ => level_le_critical s⟩
  · next hnone =>
    obtain ⟨a, ha⟩ := List.exists_mem_of_ne_nil _ h
    -- no member is critical, so every severity is the lower one
    have hwarning : ∀ b ∈ firingMembers db incidentID, b.severity = .warning := by
      intro b hb
      cases hs : b.severity with
      | warning => rfl
      | critical => exact absurd (List.any_eq_true.mpr ⟨b, hb, decide_eq_true hs⟩) hnone
    refine ⟨⟨a, ha, hwarning a ha⟩, ?_⟩
    rintro s ⟨b, hb, rfl⟩
    rw [hwarning b hb]

theorem escalate_eq_max (i : IncidentRow) (a : Alert)
    (h : a.severity = level.severity) : escalate i a = max level i.severity := by
  unfold escalate
  rw [h]
  cases level <;> cases i.severity <;> decide

/-! ## The invariant -/

structure Structured (db : Database) : Prop where
  incident : ∀ m ∈ db.incidentAlerts.rows, ∃ i ∈ db.incidents.rows, i.id = m.incidentId
  alert : ∀ m ∈ db.incidentAlerts.rows, ∃ a ∈ db.alerts.rows, a.id = m.alertId
  /-- `UNIQUE(alert_id)`. -/
  unique : ∀ m ∈ db.incidentAlerts.rows, ∀ m' ∈ db.incidentAlerts.rows,
    m.alertId = m'.alertId → m = m'
  openFor : ∀ i ∈ db.incidents.rows, firingMembers db i.id ≠ [] → i.status = .opened
  /-- An open incident has the greatest severity of its firing alerts. -/
  severity : ∀ i ∈ db.incidents.rows, i.status = .opened →
    IsGreatest (severities db i.id) i.severity
  /-- `incidents_one_open_group`. -/
  oneOpen : ∀ i ∈ db.incidents.rows, ∀ j ∈ db.incidents.rows, i.status = .opened →
    j.status = .opened → i.groupKey = j.groupKey → i = j

theorem structured_of_empty (hincidents : db.incidents.rows = [])
    (hmembers : db.incidentAlerts.rows = []) : Structured db := by
  constructor <;> simp [hincidents, hmembers]

theorem Structured.firing (h : Structured db) (hi : i ∈ db.incidents.rows)
    (hopen : i.status = .opened) : firingMembers db i.id ≠ [] := by
  obtain ⟨⟨a, ha, -⟩, -⟩ := h.severity i hi hopen
  exact List.ne_nil_of_mem ha

/-- The incident as an alert that joins it leaves it: open, at least as severe
as the alert, alone in its group. -/
structure Joined (db : Database) (severity : Level) (i : IncidentRow) : Prop where
  opened : i.status = .opened
  severity : IsGreatest (insert severity (severities db i.id)) i.severity
  alone : ∀ j ∈ db.incidents.rows, j.status = .opened → j.groupKey = i.groupKey → j.id = i.id

theorem Structured.join (h : Structured db) {x : AlertRow}
    (hx : x ∈ db.alerts.rows) (hfiring : x.status = .firing)
    (hfree : ∀ e ∈ db.incidentAlerts.rows, e.alertId ≠ x.id) (hm : m.alertId = x.id)
    (halerts : db'.alerts = db.alerts)
    (hmembers : db'.incidentAlerts.rows = db.incidentAlerts.rows ++ [m])
    (hold : ∀ i ∈ db.incidents.rows, ∃ i' ∈ db'.incidents.rows, i'.id = i.id)
    (hthis : ∃ i ∈ db'.incidents.rows, i.id = m.incidentId)
    (hnew : ∀ i ∈ db'.incidents.rows, i.id ≠ m.incidentId → i ∈ db.incidents.rows)
    (hjoined : ∀ i ∈ db'.incidents.rows, i.id = m.incidentId → Joined db x.severity i) :
    Structured db' := by
  have hmem : ∀ e, e ∈ db'.incidentAlerts.rows ↔ e ∈ db.incidentAlerts.rows ∨ e = m := by
    intro e
    rw [hmembers, List.mem_append, List.mem_singleton]
  -- the joining alert is the only new firing member
  have hfm : ∀ id a, a ∈ firingMembers db' id ↔
      a ∈ firingMembers db id ∨ (id = m.incidentId ∧ a = x) := by
    intro id a
    simp only [mem_firingMembers, halerts, hmem]
    constructor
    · rintro ⟨ha, hf, e, he | rfl, hinc, hal⟩
      · exact .inl ⟨ha, hf, e, he, hinc, hal⟩
      · exact .inr ⟨hinc.symm, Table.eq_of_key_eq ha hx (hal.symm.trans hm)⟩
    · rintro (⟨ha, hf, e, he, hinc, hal⟩ | ⟨rfl, rfl⟩)
      · exact ⟨ha, hf, e, .inl he, hinc, hal⟩
      · exact ⟨hx, hfiring, m, .inr rfl, rfl, hm⟩
  have hother : ∀ id, id ≠ m.incidentId → severities db' id = severities db id := by
    intro id hid
    ext s
    simp only [severities, Set.mem_ofPred_eq, hfm, hid, false_and, or_false]
  have hsame : severities db' m.incidentId = insert x.severity (severities db m.incidentId) := by
    ext s
    simp only [severities, Set.mem_ofPred_eq, hfm, Set.mem_insert_iff, true_and]
    constructor
    · rintro ⟨a, ha | rfl, rfl⟩
      · exact .inr ⟨a, ha, rfl⟩
      · exact .inl rfl
    · rintro (rfl | ⟨a, ha, rfl⟩)
      · exact ⟨x, .inr rfl, rfl⟩
      · exact ⟨a, .inl ha, rfl⟩
  refine ⟨?_, ?_, ?_, ?_, ?_, ?_⟩
  · intro e he
    rcases (hmem e).mp he with he | rfl
    · obtain ⟨i, hi, hid⟩ := h.incident e he
      obtain ⟨i', hi', hid'⟩ := hold i hi
      exact ⟨i', hi', hid'.trans hid⟩
    · exact hthis
  · intro e he
    rw [halerts]
    rcases (hmem e).mp he with he | rfl
    · exact h.alert e he
    · exact ⟨x, hx, hm.symm⟩
  · intro e he e' he' heq
    rcases (hmem e).mp he with he | rfl <;> rcases (hmem e').mp he' with he' | rfl
    · exact h.unique e he e' he' heq
    · exact absurd (heq.trans hm) (hfree e he)
    · exact absurd (heq.symm.trans hm) (hfree e' he')
    · rfl
  · intro i hi hne
    by_cases hid : i.id = m.incidentId
    · exact (hjoined i hi hid).opened
    · obtain ⟨a, ha⟩ := List.exists_mem_of_ne_nil _ hne
      have ha' : a ∈ firingMembers db i.id := by simpa [hid] using (hfm i.id a).mp ha
      exact h.openFor i (hnew i hi hid) (List.ne_nil_of_mem ha')
  · intro i hi hopen
    by_cases hid : i.id = m.incidentId
    · rw [hid, hsame, ← hid]
      exact (hjoined i hi hid).severity
    · rw [hother i.id hid]
      exact h.severity i (hnew i hi hid) hopen
  · intro i hi j hj hio hjo hkey
    by_cases hid : i.id = m.incidentId <;> by_cases hjd : j.id = m.incidentId
    · exact Table.eq_of_key_eq hi hj (hid.trans hjd.symm)
    · exact absurd (((hjoined i hi hid).alone j (hnew j hj hjd) hjo hkey.symm).trans hid) hjd
    · exact absurd (((hjoined j hj hjd).alone i (hnew i hi hid) hio hkey).trans hjd) hid
    · exact h.oneOpen i (hnew i hi hid) j (hnew j hj hjd) hio hjo hkey

section Transfer

variable (h : Structured db)
  (hmembers : ∀ m' ∈ db'.incidentAlerts.rows, ∃ m ∈ db.incidentAlerts.rows, m.key = m'.key)
  (hincident : ∀ m ∈ db'.incidentAlerts.rows, ∃ i ∈ db'.incidents.rows, i.id = m.incidentId)
  (halert : ∀ m ∈ db'.incidentAlerts.rows, ∃ a ∈ db'.alerts.rows, a.id = m.alertId)

include h hmembers hincident halert

theorem Structured.transfer
    (hinc : ∀ i' ∈ db'.incidents.rows, ∃ i ∈ db.incidents.rows, i'.id = i.id ∧
      i'.groupKey = i.groupKey ∧ (i'.status = .opened → i.status = .opened))
    (hopen : ∀ i ∈ db'.incidents.rows, firingMembers db' i.id ≠ [] → i.status = .opened)
    (hsev : ∀ i ∈ db'.incidents.rows, i.status = .opened →
      IsGreatest (severities db' i.id) i.severity) : Structured db' := by
  refine ⟨hincident, halert, ?_, hopen, hsev, ?_⟩
  · intro m' hm' e' he' heq
    obtain ⟨m, hm, hmk⟩ := hmembers m' hm'
    obtain ⟨e, he, hek⟩ := hmembers e' he'
    have hme : m = e := h.unique m hm e he
      (((congrArg Prod.snd hmk).trans heq).trans (congrArg Prod.snd hek).symm)
    refine Table.eq_of_key_eq hm' he' ?_
    rw [← hmk, ← hek, hme]
  · intro i' hi' j' hj' hio hjo hkey
    obtain ⟨i, hi, hid, hig, his⟩ := hinc i' hi'
    obtain ⟨j, hj, hjd, hjg, hjs⟩ := hinc j' hj'
    have hij : i = j :=
      h.oneOpen i hi j hj (his hio) (hjs hjo) (hig.symm.trans (hkey.trans hjg))
    refine Table.eq_of_key_eq hi' hj' ?_
    rw [hid, hjd, hij]

theorem Structured.same
    (hinc : ∀ i' ∈ db'.incidents.rows, ∃ i ∈ db.incidents.rows, i'.id = i.id ∧
      i'.groupKey = i.groupKey ∧ i'.status = i.status ∧ i'.severity = i.severity)
    (hfiring : ∀ i ∈ db'.incidents.rows, ∀ s, s ∈ severities db' i.id ↔ s ∈ severities db i.id) :
    Structured db' := by
  have hsame : ∀ i ∈ db'.incidents.rows, severities db' i.id = severities db i.id :=
    fun i hi => Set.ext (hfiring i hi)
  refine h.transfer hmembers hincident halert ?_ ?_ ?_
  · intro i' hi'
    obtain ⟨i, hi, hid, hig, his, -⟩ := hinc i' hi'
    exact ⟨i, hi, hid, hig, fun ho => his ▸ ho⟩
  · intro i' hi' hne
    obtain ⟨i, hi, hid, -, his, -⟩ := hinc i' hi'
    obtain ⟨a, ha⟩ := List.exists_mem_of_ne_nil _ hne
    obtain ⟨b, hb, -⟩ := (hfiring i' hi' a.severity).mp ⟨a, ha, rfl⟩
    rw [hid] at hb
    rw [his]
    exact h.openFor i hi (List.ne_nil_of_mem hb)
  · intro i' hi' hopen
    rw [hsame i' hi']
    obtain ⟨i, hi, hid, -, his, hsev⟩ := hinc i' hi'
    rw [hid, hsev]
    exact h.severity i hi (his ▸ hopen)

end Transfer

theorem Structured.sameMembers (h : Structured db)
    (hmembers : db'.incidentAlerts = db.incidentAlerts)
    (hincidents : db'.incidents = db.incidents)
    (halerts : ∀ a ∈ db.alerts.rows, ∃ a' ∈ db'.alerts.rows, a'.id = a.id)
    (hfiring : ∀ id s, s ∈ severities db' id ↔ s ∈ severities db id) : Structured db' := by
  refine h.same ?_ ?_ ?_ ?_ fun i _ => hfiring i.id
  · rw [hmembers]
    exact fun m hm => ⟨m, hm, rfl⟩
  · rw [hmembers, hincidents]
    exact h.incident
  · rw [hmembers]
    intro m hm
    obtain ⟨a, ha, hid⟩ := h.alert m hm
    obtain ⟨a', ha', hid'⟩ := halerts a ha
    exact ⟨a', ha', hid'.trans hid⟩
  · rw [hincidents]
    exact fun i hi => ⟨i, hi, rfl, rfl, rfl, rfl⟩

/-- Incidents that an `UPDATE` rewrites only in columns the structure does not
read. -/
theorem Structured.updateIncidents (h : Structured db) (p : IncidentRow → Bool)
    (hf : ∀ i, (f i).id = i.id)
    (hkeeps : ∀ i, (f i).groupKey = i.groupKey ∧ (f i).status = i.status ∧
      (f i).severity = i.severity) :
    Structured { db with incidents := db.incidents.update p f hf } := by
  have hback : ∀ i' ∈ (db.incidents.update p f hf).rows, ∃ i ∈ db.incidents.rows, i'.id = i.id ∧
      i'.groupKey = i.groupKey ∧ i'.status = i.status ∧ i'.severity = i.severity := by
    intro i' hi'
    obtain ⟨i, hi, rfl⟩ := List.mem_map.mp hi'
    refine ⟨i, hi, ?_⟩
    split
    · exact ⟨hf i, hkeeps i⟩
    · exact ⟨rfl, rfl, rfl, rfl⟩
  refine h.same (fun m hm => ⟨m, hm, rfl⟩) (fun m hm => ?_) h.alert hback (fun _ _ _ => Iff.rfl)
  obtain ⟨i, hi, hid⟩ := h.incident m hm
  obtain ⟨i', hi', hid'⟩ : ∃ i' ∈ (db.incidents.update p f hf).rows, i'.id = i.id :=
    Table.exists_update hf hi
  exact ⟨i', hi', hid'.trans hid⟩

theorem Structured.congr (h : Structured db) (halerts : db'.alerts = db.alerts)
    (hmembers : db'.incidentAlerts = db.incidentAlerts)
    (hincidents : db'.incidents = db.incidents) : Structured db' := by
  have hfm : ∀ id, firingMembers db' id = firingMembers db id := by
    intro id
    unfold firingMembers members
    rw [halerts, hmembers]
  refine h.sameMembers hmembers hincidents (fun a ha => ⟨a, halerts ▸ ha, rfl⟩) fun id s => ?_
  simp only [severities, hfm]

theorem DeliveriesOnly.structured (hframe : DeliveriesOnly db db') (h : Structured db) :
    Structured db' :=
  h.congr (by rw [hframe]) (by rw [hframe]) (by rw [hframe])

/-! ## An alert fires -/

theorem Structured.insertAlert {o : Observation} (h : Structured db)
    (hins : insertAlert env db o = .ok db') :
    Structured db' ∧ ∃ x ∈ db'.alerts.rows, x.id = env.ids 0 ∧ x.status = .firing ∧
      o.rule.severity = x.severity.severity := by
  obtain ⟨level, hlevel, -, hrows, hframe⟩ := insertAlert_ok hins
  have hx : alertRow env o level ∈ db'.alerts.rows := by rw [hrows]; simp
  have hold : ∀ a ∈ db.alerts.rows, a ∈ db'.alerts.rows := by
    intro a ha
    rw [hrows]
    exact List.mem_append_left _ ha
  -- a member of the new row's id would be a stored alert with that id
  have hfresh : ∀ m ∈ db.incidentAlerts.rows, m.alertId ≠ (alertRow env o level).id := by
    intro m hm heq
    obtain ⟨a, ha, hid⟩ := h.alert m hm
    have hnodup := db'.alerts.nodup
    rw [hrows, List.map_append, List.nodup_append] at hnodup
    exact hnodup.2.2 a.id (List.mem_map_of_mem ha) _ (by simp) (hid.trans heq)
  have hmembers : db'.incidentAlerts = db.incidentAlerts := by rw [hframe]
  refine ⟨h.sameMembers hmembers (by rw [hframe]) (fun a ha => ⟨a, hold a ha, rfl⟩) ?_, _, hx, rfl,
    rfl, ?_⟩
  · intro id s
    simp only [severities, Set.mem_ofPred_eq, mem_firingMembers, hmembers]
    constructor
    · rintro ⟨a, ⟨ha, hf, m, hm, hinc, hal⟩, rfl⟩
      rcases mem_snoc hrows ha with ha | rfl
      · exact ⟨a, ⟨ha, hf, m, hm, hinc, hal⟩, rfl⟩
      · exact absurd hal (hfresh m hm)
    · rintro ⟨a, ⟨ha, hf, m, hm, hinc, hal⟩, rfl⟩
      exact ⟨a, ⟨hold a ha, hf, m, hm, hinc, hal⟩, rfl⟩
  · show o.rule.severity = level.severity
    cases hs : o.rule.severity with
    | warning | critical => rw [hs] at hlevel; cases hlevel; rfl
    | other text => rw [hs] at hlevel; cases hlevel

theorem openIncident_eq_some (h : openIncident db group = some i) :
    i ∈ db.incidents.rows ∧ i.groupKey = group ∧ i.status = .opened := by
  have hi := List.find?_some h
  simp only [Bool.and_eq_true, decide_eq_true_eq] at hi
  exact ⟨List.mem_of_find?_eq_some h, hi⟩

theorem openIncident_eq_none (h : openIncident db group = none) :
    ∀ i ∈ db.incidents.rows, i.status = .opened → i.groupKey ≠ group := by
  intro i hi hopen hkey
  have := List.find?_eq_none.mp h i hi
  simp [hkey, hopen] at this

theorem joined_newIncident (h : Structured db) (hnone : openIncident db (groupFor a).key = none)
    (hid : db.incidents.has ("inc_" ++ env.ids 1) = false) :
    Joined db level (newIncident r env a level now) := by
  have hempty : severities db (newIncident r env a level now).id = ∅ := by
    refine Set.eq_empty_of_forall_notMem fun s => ?_
    rintro ⟨b, hb, -⟩
    obtain ⟨-, -, m, hm, hinc, -⟩ := mem_firingMembers.mp hb
    obtain ⟨i, hi, hi'⟩ := h.incident m hm
    exact Table.has_eq_false_iff.mp hid i hi (hi'.trans hinc)
  refine ⟨rfl, ?_, ?_⟩
  · rw [hempty]
    simp [newIncident]
  · intro j hj hopen hkey
    exact absurd hkey (openIncident_eq_none hnone j hj hopen)

theorem joined_touched (h : Structured db) (hi : i ∈ db.incidents.rows)
    (hopen : i.status = .opened) (hlevel : a.severity = level.severity) :
    Joined db level
      { i with severity := escalate i a, updatedAt := unix now, version := i.version + 1 } := by
  refine ⟨hopen, ?_, ?_⟩
  · show IsGreatest (insert level (severities db i.id)) (escalate i a)
    rw [escalate_eq_max i a hlevel]
    exact (h.severity i hi hopen).insert level
  · intro j hj hjo hkey
    rw [h.oneOpen j hj i hi hjo hopen hkey]

theorem mem_touchIncident :
    j ∈ (touchIncident db incidentID severity now).incidents.rows ↔
      (j ∈ db.incidents.rows ∧ j.id ≠ incidentID) ∨ ∃ i ∈ db.incidents.rows, i.id = incidentID ∧
        j = { i with severity, updatedAt := unix now, version := i.version + 1 } :=
  Table.mem_update_key (by intro i; rfl)

theorem mem_closeIncident :
    j ∈ (closeIncident db incidentID now).incidents.rows ↔
      (j ∈ db.incidents.rows ∧ j.id ≠ incidentID) ∨ ∃ i ∈ db.incidents.rows, i.id = incidentID ∧
        j = { i with
          status := .resolved
          resolvedAt := some (unix now)
          updatedAt := unix now
          nextReminderAt := none
          version := i.version + 1 } :=
  Table.mem_update_key (by intro i; rfl)

theorem exists_touchIncident (hi : i ∈ db.incidents.rows) :
    ∃ i' ∈ (touchIncident db incidentID severity now).incidents.rows, i'.id = i.id :=
  Table.exists_update (by intro i; rfl) hi

theorem Structured.alertFiredTx {notify : Bool} (h : Structured db)
    {x : AlertRow} (hx : x ∈ db.alerts.rows) (hid : x.id = a.id) (hfiring : x.status = .firing)
    (hsev : a.severity = x.severity.severity)
    (hrun : alertFiredTx r env db a now notify = .ok db') :
    Structured db' := by
  rcases alertFiredTx_cases hrun with
    ⟨level, incidents, hnone, hlevel, hins, hjoin⟩ | ⟨i, hsome, hjoin⟩
  · obtain ⟨hfree, hrows⟩ := Table.insert_eq_some hins
    obtain ⟨hnew, -, hmem, hframe⟩ := joinIncident_leaves hjoin
    obtain rfl : level = x.severity := by simpa [hsev] using hlevel.symm
    have hinc : db'.incidents.rows
        = db.incidents.rows ++ [newIncident r env a x.severity now] := by
      rw [hframe]
      exact hrows
    refine h.join hx hfiring (hid ▸ hnew) hid.symm (by rw [hframe]) hmem ?_ ?_ ?_ ?_
    · intro i hi
      rw [hinc]
      exact ⟨i, List.mem_append_left _ hi, rfl⟩
    · rw [hinc]
      exact ⟨_, List.mem_append_right _ List.mem_cons_self, rfl⟩
    · intro i hi hne
      rcases mem_snoc hinc hi with hi | rfl
      · exact hi
      · exact absurd rfl hne
    · intro i hi heq
      rcases mem_snoc hinc hi with hi | rfl
      · exact absurd heq (Table.has_eq_false_iff.mp hfree i hi)
      · exact joined_newIncident h hnone hfree
  · obtain ⟨hi, -, hopen⟩ := openIncident_eq_some hsome
    obtain ⟨hnew, -, hmem, hframe⟩ := joinIncident_leaves hjoin
    have hinc : db'.incidents = (touchIncident db i.id (escalate i a) now).incidents := by
      rw [hframe]
    refine h.join hx hfiring (hid ▸ hnew) hid.symm (by rw [hframe]; rfl) hmem ?_ ?_ ?_ ?_
    · intro j hj
      rw [hinc]
      exact exists_touchIncident hj
    · rw [hinc]
      exact exists_touchIncident hi
    · intro j hj hne
      rw [hinc] at hj
      rcases mem_touchIncident.mp hj with ⟨hj, -⟩ | ⟨k, -, hki, rfl⟩
      · exact hj
      · exact absurd hki hne
    · intro j hj heq
      rw [hinc] at hj
      rcases mem_touchIncident.mp hj with ⟨-, hne⟩ | ⟨k, hk, hki, rfl⟩
      · exact absurd heq hne
      · obtain rfl : k = i := Table.eq_of_key_eq hk hi hki
        exact joined_touched h hk hopen hsev

/-! ## An alert resolves -/

theorem mem_resolveAlert {a : AlertRow} :
    (a ∈ (resolveAlert db alertID now).alerts.rows ∧ a.status = .firing) ↔
      (a ∈ db.alerts.rows ∧ a.status = .firing) ∧ a.id ≠ alertID := by
  constructor
  · rintro ⟨ha, hf⟩
    obtain ⟨b, hb, rfl⟩ := List.mem_map.mp ha
    split at hf
    · cases hf
    · next hne =>
      rw [if_neg hne]
      exact ⟨⟨hb, hf⟩, fun h => hne (decide_eq_true h)⟩
  · rintro ⟨⟨ha, hf⟩, hne⟩
    refine ⟨List.mem_map.mpr ⟨a, ha, ?_⟩, hf⟩
    rw [if_neg (by simpa using hne)]

theorem exists_leaveIncident (p : String → String → Prop) :
    (∃ m ∈ (leaveIncident db alertID now).incidentAlerts.rows, p m.incidentId m.alertId) ↔
      ∃ m ∈ db.incidentAlerts.rows, p m.incidentId m.alertId := by
  constructor
  · rintro ⟨m', hm', hp⟩
    obtain ⟨m, hm, rfl⟩ := List.mem_map.mp hm'
    refine ⟨m, hm, ?_⟩
    split at hp <;> exact hp
  · rintro ⟨m, hm, hp⟩
    refine ⟨_, List.mem_map_of_mem hm, ?_⟩
    split <;> exact hp

theorem mem_firingMembers_leave {id : String} {a : AlertRow} :
    a ∈ firingMembers (leaveIncident (resolveAlert db alertID now) alertID now) id ↔
      a ∈ firingMembers db id ∧ a.id ≠ alertID := by
  rw [mem_firingMembers, mem_firingMembers, ← and_assoc,
    exists_leaveIncident fun i x => i = id ∧ x = a.id]
  show (a ∈ (resolveAlert db alertID now).alerts.rows ∧ a.status = .firing) ∧ _ ↔ _
  rw [mem_resolveAlert]
  exact ⟨fun ⟨⟨⟨ha, hf⟩, hne⟩, hm⟩ => ⟨⟨ha, hf, hm⟩, hne⟩,
    fun ⟨⟨ha, hf, hm⟩, hne⟩ => ⟨⟨⟨ha, hf⟩, hne⟩, hm⟩⟩

/-- The alert leaves incident `I`, which is recounted or closed; the other
incidents do not change. -/
theorem Structured.leave (h : Structured db) (alertID I : String) (now : Time)
    (halerts : db'.alerts = (resolveAlert db alertID now).alerts)
    (hmembers : db'.incidentAlerts = (leaveIncident db alertID now).incidentAlerts)
    (hhas : ∀ i ∈ db.incidents.rows, ∃ i' ∈ db'.incidents.rows, i'.id = i.id)
    (hinc : ∀ i' ∈ db'.incidents.rows, (i' ∈ db.incidents.rows ∧
        ∀ m ∈ db.incidentAlerts.rows, m.alertId = alertID → m.incidentId ≠ i'.id) ∨
      ∃ i ∈ db.incidents.rows, i.id = I ∧ i'.id = i.id ∧ i'.groupKey = i.groupKey ∧
        ((firingMembers db' I = [] ∧ i'.status = .resolved) ∨ (firingMembers db' I ≠ [] ∧
          i'.status = i.status ∧ i'.severity = severityOf (firingMembers db' I)))) :
    Structured db' := by
  have hfm : ∀ id a, a ∈ firingMembers db' id ↔ a ∈ firingMembers db id ∧ a.id ≠ alertID := by
    intro id a
    rw [← @mem_firingMembers_leave db alertID now]
    unfold firingMembers members
    rw [halerts, hmembers]
    rfl
  have hother : ∀ id, (∀ m ∈ db.incidentAlerts.rows, m.alertId = alertID → m.incidentId ≠ id) →
      severities db' id = severities db id := by
    intro id hid
    ext s
    simp only [severities, Set.mem_ofPred_eq, hfm]
    constructor
    · rintro ⟨a, ⟨ha, -⟩, rfl⟩
      exact ⟨a, ha, rfl⟩
    · rintro ⟨a, ha, rfl⟩
      obtain ⟨-, -, m, hm, hinc, hal⟩ := mem_firingMembers.mp ha
      exact ⟨a, ⟨ha, fun heq => hid m hm (hal.trans heq) hinc⟩, rfl⟩
  have hsub : ∀ id, firingMembers db' id ≠ [] → firingMembers db id ≠ [] := by
    intro id hne
    obtain ⟨a, ha⟩ := List.exists_mem_of_ne_nil _ hne
    exact List.ne_nil_of_mem ((hfm id a).mp ha).1
  refine h.transfer ?_ ?_ ?_ ?_ ?_ ?_
  · intro m' hm'
    rw [hmembers] at hm'
    obtain ⟨m, hm, rfl⟩ := List.mem_map.mp hm'
    refine ⟨m, hm, ?_⟩
    split <;> rfl
  · intro m' hm'
    rw [hmembers] at hm'
    obtain ⟨m, hm, hid⟩ := (exists_leaveIncident fun id _ => id = m'.incidentId).mp ⟨m', hm', rfl⟩
    obtain ⟨i, hi, hi'⟩ := h.incident m hm
    obtain ⟨i', hi'', hid'⟩ := hhas i hi
    exact ⟨i', hi'', hid'.trans (hi'.trans hid)⟩
  · intro m' hm'
    rw [hmembers] at hm'
    obtain ⟨m, hm, hid⟩ := (exists_leaveIncident fun _ id => id = m'.alertId).mp ⟨m', hm', rfl⟩
    obtain ⟨a, ha, ha'⟩ := h.alert m hm
    rw [halerts]
    refine ⟨_, List.mem_map_of_mem ha, ?_⟩
    rw [← hid, ← ha']
    split <;> rfl
  · intro i' hi'
    rcases hinc i' hi' with ⟨hi, -⟩ | ⟨i, hi, -, hid, hkey, hcase⟩
    · exact ⟨i', hi, rfl, rfl, fun ho => ho⟩
    · refine ⟨i, hi, hid, hkey, fun ho => ?_⟩
      rcases hcase with ⟨-, hres⟩ | ⟨-, hst, -⟩
      · rw [hres] at ho
        cases ho
      · exact hst ▸ ho
  · intro i' hi' hne
    rcases hinc i' hi' with ⟨hi, -⟩ | ⟨i, hi, hiI, hid, -, hcase⟩
    · exact h.openFor i' hi (hsub _ hne)
    · rcases hcase with ⟨hnil, -⟩ | ⟨hsome, hst, -⟩
      · rw [hid, hiI, hnil] at hne
        exact absurd rfl hne
      · rw [hst]
        exact h.openFor i hi (hiI ▸ hsub _ hsome)
  · intro i' hi' ho
    rcases hinc i' hi' with ⟨hi, hne⟩ | ⟨i, hi, hiI, hid, -, hcase⟩
    · rw [hother _ hne]
      exact h.severity i' hi ho
    · rcases hcase with ⟨-, hres⟩ | ⟨hsome, -, hsev⟩
      · rw [hres] at ho
        cases ho
      · rw [hid, hiI, hsev]
        exact isGreatest_severityOf hsome

theorem leaveIncident_of_free (h : ∀ m ∈ db.incidentAlerts.rows, m.alertId ≠ alertID) :
    (leaveIncident db alertID now).incidentAlerts = db.incidentAlerts := by
  refine Table.ext_rows ((List.map_congr_left fun m hm => ?_).trans (List.map_id _))
  exact if_neg (by simp [h m hm])

/-- A resolved alert leaves its incident, which closes with the last one. -/
theorem Structured.alertResolvedTx (h : Structured db)
    (hrun : alertResolvedTx env (resolveAlert db alertID now) alertID now = .ok db') :
    Structured db' := by
  rcases alertResolvedTx_cases hrun with ⟨hfree, rfl⟩ | ⟨m, hmem, hal, hcase⟩
  · exact h.leave alertID "" now rfl (leaveIncident_of_free hfree).symm
      (fun i hi => ⟨i, hi, rfl⟩)
      fun i hi => .inl ⟨hi, fun m hm heq => absurd heq (hfree m hm)⟩
  · -- the alert has this membership only
    have honly : ∀ id, id ≠ m.incidentId → ∀ e ∈ db.incidentAlerts.rows, e.alertId = alertID →
        e.incidentId ≠ id := by
      intro id hid e he heq
      rw [h.unique e he m hmem (heq.trans hal.symm)]
      exact hid.symm
    rcases hcase with ⟨hnil, hclose⟩ | ⟨hsome, rfl⟩
    · refine (enqueueResolutionTx_frame hclose).structured (h.leave alertID m.incidentId now
        rfl rfl ?_ ?_)
      · exact fun i hi => Table.exists_update (by intro i; rfl) hi
      · intro i' hi'
        rcases mem_closeIncident.mp hi' with ⟨hi, hne⟩ | ⟨i, hi, hid, rfl⟩
        · exact .inl ⟨hi, honly _ hne⟩
        · exact .inr ⟨i, hi, hid, rfl, rfl, .inl ⟨hnil, rfl⟩⟩
    · refine h.leave alertID m.incidentId now rfl rfl (fun i hi => exists_touchIncident hi) ?_
      intro i' hi'
      rcases mem_touchIncident.mp hi' with ⟨hi, hne⟩ | ⟨i, hi, hid, rfl⟩
      · exact .inl ⟨hi, honly _ hne⟩
      · exact .inr ⟨i, hi, hid, rfl, rfl, .inr ⟨hsome, rfl, rfl⟩⟩

/-! ## Incidents only move on -/

/-- No incident is forgotten, none goes back to an earlier version or from
resolved to open, and only incidents that are open gain members. -/
structure Extends (db db' : Database) : Prop where
  incident : ∀ i ∈ db.incidents.rows, ∃ i' ∈ db'.incidents.rows, i'.id = i.id ∧
    i.version ≤ i'.version ∧ (i.status = .resolved → i'.status = .resolved)
  member : ∀ m' ∈ db'.incidentAlerts.rows, (∃ m ∈ db.incidentAlerts.rows, m.key = m'.key) ∨
    ∀ i ∈ db.incidents.rows, i.id = m'.incidentId → i.status = .opened

theorem Extends.of_eq (hincidents : db'.incidents = db.incidents)
    (hmembers : db'.incidentAlerts = db.incidentAlerts) : Extends db db' where
  incident i hi := ⟨i, hincidents ▸ hi, rfl, Nat.le_refl _, fun h => h⟩
  member m hm := .inl ⟨m, hmembers ▸ hm, rfl⟩

theorem Extends.refl (db : Database) : Extends db db := .of_eq rfl rfl

theorem Extends.trans {a b c : Database} (hab : Extends a b) (hbc : Extends b c) : Extends a c := by
  constructor
  · intro i hi
    obtain ⟨i₁, hi₁, hid₁, hv₁, hs₁⟩ := hab.incident i hi
    obtain ⟨i₂, hi₂, hid₂, hv₂, hs₂⟩ := hbc.incident i₁ hi₁
    exact ⟨i₂, hi₂, hid₂.trans hid₁, hv₁.trans hv₂, fun h => hs₂ (hs₁ h)⟩
  · intro m₂ hm₂
    rcases hbc.member m₂ hm₂ with ⟨m₁, hm₁, hk₁⟩ | hopen
    · rw [← hk₁]
      rcases hab.member m₁ hm₁ with hold | hopen
      · exact .inl hold
      · refine .inr fun i hi hid => hopen i hi (hid.trans ?_)
        exact (congrArg Prod.fst hk₁).symm
    · refine .inr fun i hi hid => ?_
      obtain ⟨i₁, hi₁, hid₁, -, hs₁⟩ := hab.incident i hi
      cases hs : i.status with
      | opened => rfl
      | resolved =>
        have := hopen i₁ hi₁ (hid₁.trans hid)
        rw [hs₁ hs] at this
        cases this

theorem extends_updateIncidents (p : IncidentRow → Bool) (hf : ∀ i, (f i).id = i.id)
    (hkeeps : ∀ i, i.version ≤ (f i).version ∧ (i.status = .resolved → (f i).status = .resolved)) :
    Extends db { db with incidents := db.incidents.update p f hf } where
  incident i hi := by
    refine ⟨_, List.mem_map_of_mem hi, ?_⟩
    split
    · exact ⟨hf i, hkeeps i⟩
    · exact ⟨rfl, Nat.le_refl _, fun h => h⟩
  member m hm := .inl ⟨m, hm, rfl⟩

theorem extends_touchIncident (db : Database) (incidentID : String) (severity : Level)
    (now : Time) : Extends db (touchIncident db incidentID severity now) :=
  extends_updateIncidents _ _ fun i => ⟨Nat.le_succ i.version, fun h => h⟩

theorem extends_closeIncident (db : Database) (incidentID : String) (now : Time) :
    Extends db (closeIncident db incidentID now) :=
  extends_updateIncidents _ _ fun i => ⟨Nat.le_succ i.version, fun _ => rfl⟩

theorem extends_leaveIncident (db : Database) (alertID : String) (now : Time) :
    Extends db (leaveIncident db alertID now) where
  incident i hi := ⟨i, hi, rfl, Nat.le_refl _, fun h => h⟩
  member m' hm' := by
    obtain ⟨m, hm, rfl⟩ := List.mem_map.mp hm'
    refine .inl ⟨m, hm, ?_⟩
    split <;> rfl

theorem DeliveriesOnly.extends (h : DeliveriesOnly db db') : Extends db db' :=
  .of_eq (by rw [h]) (by rw [h])

theorem extends_membership (hrows : db'.incidentAlerts.rows = db.incidentAlerts.rows ++ [m])
    (hincidents : db'.incidents = db.incidents)
    (hopen : ∀ i ∈ db.incidents.rows, i.id = m.incidentId → i.status = .opened) :
    Extends db db' := by
  constructor
  · rw [hincidents]
    exact fun i hi => ⟨i, hi, rfl, Nat.le_refl _, fun h => h⟩
  · intro e he
    rcases mem_snoc hrows he with he | rfl
    · exact .inl ⟨e, he, rfl⟩
    · exact .inr hopen

theorem extends_newIncident
    (h : db.incidents.insert i = some incidents) : Extends db { db with incidents } := by
  refine ⟨fun j hj => ⟨j, ?_, rfl, Nat.le_refl _, fun h => h⟩, fun m hm => .inl ⟨m, hm, rfl⟩⟩
  show j ∈ incidents.rows
  rw [(Table.insert_eq_some h).2]
  exact List.mem_append_left _ hj

/-- Where an alert joins, the incident is open: a new one, or the one of the
group. -/
theorem opened_newIncident
    (h : db.incidents.insert (newIncident r env a severity now) = some incidents)
    (hi : i ∈ incidents.rows) (hid : i.id = "inc_" ++ env.ids 1) : i.status = .opened := by
  obtain ⟨hfree, hrows⟩ := Table.insert_eq_some h
  rcases mem_snoc hrows hi with hi | rfl
  · exact absurd hid (Table.has_eq_false_iff.mp hfree i hi)
  · rfl

theorem opened_touchIncident (h : openIncident db group = some i)
    (hj : j ∈ (touchIncident db i.id severity now).incidents.rows) (hid : j.id = i.id) :
    j.status = .opened := by
  obtain ⟨hi, -, hopen⟩ := openIncident_eq_some h
  rcases mem_touchIncident.mp hj with ⟨-, hne⟩ | ⟨k, hk, hki, rfl⟩
  · exact absurd hid hne
  · obtain rfl : k = i := Table.eq_of_key_eq hk hi hki
    exact hopen

theorem alertFiredTx_extends {notify : Bool} (h : alertFiredTx r env db a now notify = .ok db') :
    Extends db db' ∧ ∃ m, m.alertId = a.id ∧
      db'.incidentAlerts.rows = db.incidentAlerts.rows ++ [m] := by
  rcases alertFiredTx_cases h with ⟨severity, incidents, -, -, hins, hjoin⟩ | ⟨i, hsome, hjoin⟩
  · obtain ⟨-, -, hrows, hframe⟩ := joinIncident_leaves hjoin
    refine ⟨(extends_newIncident hins).trans (extends_membership hrows (by rw [hframe]) ?_), _, ?_,
      hrows⟩
    · exact fun i hi hid => opened_newIncident hins hi hid
    · rfl
  · obtain ⟨-, -, hrows, hframe⟩ := joinIncident_leaves hjoin
    refine ⟨(extends_touchIncident ..).trans (extends_membership hrows (by rw [hframe]) ?_), _, ?_,
      hrows⟩
    · exact fun j hj hid => opened_touchIncident hsome hj hid
    · rfl

theorem alertResolvedTx_extends (h : alertResolvedTx env db alertID now = .ok db') :
    Extends db db' := by
  rcases alertResolvedTx_cases h with ⟨-, rfl⟩ | ⟨m, -, -, ⟨-, hclose⟩ | ⟨-, rfl⟩⟩
  · exact .refl _
  · exact ((extends_leaveIncident ..).trans (extends_closeIncident ..)).trans
      (enqueueResolutionTx_frame hclose).extends
  · exact (extends_leaveIncident ..).trans (extends_touchIncident ..)

end Binnacle.Notifications
