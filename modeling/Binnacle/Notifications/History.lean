import Binnacle.Notifications.Structure

/-!
# Histories of the alert and incident tables

Every interleaving of the transactions that write alerts, incidents and
memberships, from the empty database. A transaction that fails is rolled back
and leaves no trace; anything else the application writes is one `elsewhere`
step.

`passed` records the alerts that were handed to `AlertFiredTx` or picked up by
`Reconcile`: the structure promises them an incident.
-/

namespace Binnacle.Notifications

open Relational Runs Alerts Storage

inductive Transaction where
  /-- A triggered alert is inserted and handed to the sink, if one is set. -/
  | fire (sink : Option Repository) (env : Ambient) (o : Observation)
  | observe (o : Observation)
  /-- The firing alert of a key is set resolved and leaves its incident. -/
  | resolve (env : Ambient) (o : Observation)
  | reconcile (r : Repository) (env : Ambient) (now : Time)
  | scheduleReminders (env : Ambient) (now : Time) (interval : Duration)
  | cleanupDeliveries (now : Time)
  | cleanupIncidents (now : Time)
  /-- `Cleanup` of the alert repository. -/
  | cleanupAlerts (now : Time)

def Transaction.run (db : Database) : Transaction → Except SqlError Database
  | .fire sink env o => recordTriggered sink env o db
  | .observe o => .ok (observeAlert db o)
  | .resolve env o => recordResolved (some {}) env o db
  | .reconcile r env now => Notifications.reconcile r env db now
  | .scheduleReminders env now interval => Notifications.scheduleReminders env db now interval
  | .cleanupDeliveries now => .ok (Notifications.cleanupDeliveries db now)
  | .cleanupIncidents now => .ok (Notifications.cleanupIncidents db now)
  | .cleanupAlerts now => .ok (Alerts.cleanup db now)

def Transaction.passes (db : Database) : Transaction → List String
  | .fire (some _) env _ => [env.ids 0]
  | .reconcile _ env _ => (orphans env db).map AlertRow.id
  | _ => []

/-! ## One transaction -/

variable {env : Ambient} {o : Observation} {db db' : Database} {now : Time} {r : Repository}
  {a : AlertRow} {passed : List String}

theorem recordTriggered_steps {sink : Option Repository}
    (h : recordTriggered sink env o db = .ok db') :
    ∃ db₁ db₂ events, insertAlert env db o = .ok db₁ ∧ sinkFired sink env o db₁ = .ok db₂ ∧
      db' = { db₂ with events } := by
  obtain ⟨db₁, h₁, h⟩ := bind_ok.mp h
  obtain ⟨db₂, h₂, h₃⟩ := bind_ok.mp h
  exact ⟨db₁, db₂, _, h₁, h₂, (insertEvent_ok h₃).2.2⟩

theorem recordResolved_steps (h : recordResolved (some r) env o db = .ok db') :
    db' = db ∨ ∃ a db₁ events, firingAlert db o.key = some a ∧
      alertResolvedTx env (resolveAlert db a.id o.now) a.id o.now = .ok db₁ ∧
      db' = { db₁ with events } := by
  unfold recordResolved at h
  split at h
  · cases h
    exact .inl rfl
  · next a ha =>
    obtain ⟨db₁, h₁, h₂⟩ := bind_ok.mp h
    exact .inr ⟨a, db₁, _, ha, h₁, (insertEvent_ok h₂).2.2⟩

theorem observeAlert_rows {a' : AlertRow} (h : a' ∈ (observeAlert db o).alerts.rows) :
    ∃ a ∈ db.alerts.rows, a'.id = a.id ∧ a'.status = a.status ∧ a'.severity = a.severity := by
  obtain ⟨a, ha, rfl⟩ := List.mem_map.mp h
  refine ⟨a, ha, ?_⟩
  split <;> exact ⟨rfl, rfl, rfl⟩

theorem exists_observeAlert (o : Observation) (h : a ∈ db.alerts.rows) :
    ∃ a' ∈ (observeAlert db o).alerts.rows, a'.id = a.id ∧ a'.status = a.status ∧
      a'.severity = a.severity := by
  refine ⟨_, List.mem_map_of_mem h, ?_⟩
  split <;> exact ⟨rfl, rfl, rfl⟩

theorem Structured.observeAlert (h : Structured db) (o : Observation) :
    Structured (observeAlert db o) := by
  refine h.sameMembers rfl rfl (fun a ha => Table.exists_update (by intro a; rfl) ha) fun id s => ?_
  simp only [severities, Set.mem_ofPred_eq, mem_firingMembers]
  constructor
  · rintro ⟨a', ⟨ha', hf, m, hm, hinc, hal⟩, rfl⟩
    obtain ⟨a, ha, hid, hst, hsev⟩ := observeAlert_rows ha'
    exact ⟨a, ⟨ha, hst ▸ hf, m, hm, hinc, hal.trans hid⟩, hsev.symm⟩
  · rintro ⟨a, ⟨ha, hf, m, hm, hinc, hal⟩, rfl⟩
    obtain ⟨a', ha', hid, hst, hsev⟩ := exists_observeAlert o ha
    exact ⟨a', ⟨ha', hst ▸ hf, m, hm, hinc, hal.trans hid.symm⟩, hsev⟩

/-- The state of `Reconcile` in the middle of its loop. -/
structure Adopting (env : Ambient) (db₀ : Database) (rest : List (AlertRow × Nat))
    (db : Database) : Prop where
  structured : Structured db
  alerts : db.alerts = db₀.alerts
  kept : Extends db₀ db
  orphan : ∀ a ∈ rest, a.1 ∈ orphans env db₀
  adopted : ∀ a ∈ orphans env db₀, grouped db a.id = true ∨ ∃ k, (a, k) ∈ rest
  members : ∀ m ∈ db₀.incidentAlerts.rows, m ∈ db.incidentAlerts.rows

theorem mem_orphans (h : a ∈ orphans env db) :
    a ∈ db.alerts.rows ∧ a.status = .firing := by
  rw [orphans, (List.perm_insertionSort _ _).mem_iff, List.mem_filter, RowOrder.mem_arrange,
    Bool.and_eq_true, decide_eq_true_eq] at h
  exact ⟨h.1, h.2.1⟩

theorem Adopting.step {db₀ : Database} {a : AlertRow × Nat}
    {rest : List (AlertRow × Nat)} (h : Adopting env db₀ (a :: rest) db)
    (hrun : adopt r env now db a = .ok db') : Adopting env db₀ rest db' := by
  obtain ⟨db₁, h₁, h₂⟩ := bind_ok.mp hrun
  cases h₂
  obtain ⟨ha, hfiring⟩ := mem_orphans (h.orphan a List.mem_cons_self)
  have hframe := alertFiredTx_frame h₁
  obtain ⟨hext, m, hm, hrows⟩ := alertFiredTx_extends h₁
  have hmore : ∀ e ∈ db.incidentAlerts.rows, e ∈ db₁.incidentAlerts.rows := by
    intro e he
    rw [hrows]
    exact List.mem_append_left _ he
  refine ⟨?_, ?_, ?_, fun b hb => h.orphan b (List.mem_cons_of_mem _ hb), ?_,
    fun e he => hmore e (h.members e he)⟩
  · refine (h.structured.alertFiredTx (h.alerts ▸ ha) rfl hfiring rfl h₁).updateIncidents _ _ ?_
    exact fun i => ⟨rfl, rfl, rfl⟩
  · show db₁.alerts = db₀.alerts
    rw [hframe]
    exact h.alerts
  · refine (h.kept.trans hext).trans (extends_updateIncidents _ _ ?_)
    exact fun i => ⟨Nat.le_refl _, fun h => h⟩
  · intro b hb
    rcases h.adopted b hb with hg | ⟨k, hk⟩
    · obtain ⟨e, he, heq⟩ := List.any_eq_true.mp hg
      exact .inl (List.any_eq_true.mpr ⟨e, hmore e he, heq⟩)
    · rcases List.mem_cons.mp hk with rfl | hk
      · refine .inl (List.any_eq_true.mpr ⟨m, ?_, decide_eq_true hm⟩)
        show m ∈ db₁.incidentAlerts.rows
        rw [hrows]
        simp
      · exact .inr ⟨k, hk⟩

theorem reconcile_adopts (h : Structured db)
    (hrun : reconcile r env db now = .ok db') : Adopting env db [] db' := by
  refine foldlM_ok_inv (Adopting env db) (fun a l s s' hI hs => hI.step hs) hrun ?_
  refine ⟨h, rfl, .refl db, fun a ha => List.fst_mem_of_mem_zipIdx ha, fun a ha => .inr ?_,
    fun m hm => hm⟩
  obtain ⟨k, hk, rfl⟩ := List.mem_iff_getElem.mp ha
  exact ⟨k, List.mem_zipIdx_iff_getElem?.mpr (List.getElem?_eq_getElem hk)⟩

structure Reminds (db db' : Database) : Prop where
  structured : Structured db → Structured db'
  kept : Extends db db'
  alerts : db'.alerts = db.alerts
  members : db'.incidentAlerts = db.incidentAlerts

theorem Reminds.trans {a b c : Database} (hab : Reminds a b) (hbc : Reminds b c) : Reminds a c where
  structured h := hbc.structured (hab.structured h)
  kept := hab.kept.trans hbc.kept
  alerts := hbc.alerts.trans hab.alerts
  members := hbc.members.trans hab.members

theorem postponeReminder_reminds (db : Database) (incidentID : String) (next : Time) :
    Reminds db (postponeReminder db incidentID next) where
  structured h := h.updateIncidents _ _ fun _ => ⟨rfl, rfl, rfl⟩
  kept := extends_updateIncidents _ _ fun _ => ⟨Nat.le_refl _, fun h => h⟩
  alerts := rfl
  members := rfl

theorem DeliveriesOnly.reminds (h : DeliveriesOnly db db') : Reminds db db' where
  structured := h.structured
  kept := h.extends
  alerts := by rw [h]
  members := by rw [h]

theorem scheduleReminders_reminds {interval : Duration}
    (h : scheduleReminders env db now interval = .ok db') : Reminds db db' := by
  refine foldlM_ok_rel (R := Reminds) (fun db => ⟨fun h => h, .refl db, rfl, rfl⟩) Reminds.trans
    (fun i s s' hs => ?_) h
  exact (postponeReminder_reminds ..).trans (enqueueIncidentTx_frame hs).reminds

theorem forgets_eq_false {i : IncidentRow} (hi : i ∈ db.incidents.rows)
    (h : forgotten now i = false) : forgets db now i.id = false := by
  refine List.any_eq_false.mpr fun j hj => ?_
  simp only [Bool.and_eq_true, decide_eq_true_eq, not_and]
  intro hforgotten hid
  rw [Table.eq_of_key_eq hj hi hid, h] at hforgotten
  cases hforgotten

theorem Structured.cleanupIncidents (h : Structured db) (now : Time) :
    Structured (cleanupIncidents db now) := by
  refine h.same ?_ ?_ ?_ ?_ ?_
  · exact fun m hm => ⟨m, (Table.mem_delete.mp hm).1, rfl⟩
  · intro m hm
    obtain ⟨hm, hkeep⟩ := Table.mem_delete.mp hm
    obtain ⟨i, hi, hid⟩ := h.incident m hm
    refine ⟨i, Table.mem_delete.mpr ⟨hi, ?_⟩, hid⟩
    by_contra hforgotten
    refine List.any_eq_false.mp hkeep i hi ?_
    simp [hid, Bool.not_eq_false _ ▸ hforgotten]
  · exact fun m hm => h.alert m (Table.mem_delete.mp hm).1
  · exact fun i hi => ⟨i, (Table.mem_delete.mp hi).1, rfl, rfl, rfl, rfl⟩
  · intro i hi s
    obtain ⟨hi, hkeep⟩ := Table.mem_delete.mp hi
    have hstay := forgets_eq_false hi hkeep
    simp only [severities, Set.mem_ofPred_eq, mem_firingMembers]
    constructor
    · rintro ⟨a, ⟨ha, hf, m, hm, hinc, hal⟩, rfl⟩
      exact ⟨a, ⟨ha, hf, m, (Table.mem_delete.mp hm).1, hinc, hal⟩, rfl⟩
    · rintro ⟨a, ⟨ha, hf, m, hm, hinc, hal⟩, rfl⟩
      exact ⟨a, ⟨ha, hf, m, Table.mem_delete.mpr ⟨hm, hinc ▸ hstay⟩, hinc, hal⟩, rfl⟩

/-- The alerts that `Cleanup` of the alert repository deletes. -/
def stale (now : Time) (a : AlertRow) : Bool :=
  a.status = .resolved && a.resolvedAt.any (fun at_ => at_ < unix (now - 365 * 24 * hour))

theorem mem_cleanup_alerts :
    a ∈ (Alerts.cleanup db now).alerts.rows ↔ a ∈ db.alerts.rows ∧ stale now a = false :=
  Table.mem_delete

theorem mem_cleanup_members {m : IncidentAlertRow} :
    m ∈ (Alerts.cleanup db now).incidentAlerts.rows ↔ m ∈ db.incidentAlerts.rows ∧
      ∀ a ∈ db.alerts.rows, a.id = m.alertId → stale now a = false := by
  have hdelete : (Alerts.cleanup db now).incidentAlerts = db.incidentAlerts.delete
      (fun m => db.alerts.rows.any fun a => stale now a && a.id = m.alertId) := rfl
  rw [hdelete, Table.mem_delete, List.any_eq_false]
  refine and_congr_right fun _ => forall₂_congr fun a _ => ?_
  simp only [Bool.and_eq_true, decide_eq_true_eq, not_and, Bool.eq_false_iff, ne_eq]
  exact ⟨fun h hid hstale => h hstale hid, fun h hstale hid => h hid hstale⟩

theorem stale_eq_false (h : a.status = .firing) : stale now a = false := by
  simp [stale, h]

theorem Structured.cleanupAlerts (h : Structured db) (now : Time) :
    Structured (Alerts.cleanup db now) := by
  refine h.same ?_ ?_ ?_ (fun i hi => ⟨i, hi, rfl, rfl, rfl, rfl⟩) ?_
  · exact fun m hm => ⟨m, (mem_cleanup_members.mp hm).1, rfl⟩
  · exact fun m hm => h.incident m (mem_cleanup_members.mp hm).1
  · intro m hm
    obtain ⟨hm, hkeep⟩ := mem_cleanup_members.mp hm
    obtain ⟨a, ha, hid⟩ := h.alert m hm
    exact ⟨a, mem_cleanup_alerts.mpr ⟨ha, hkeep a ha hid⟩, hid⟩
  · intro i _ s
    simp only [severities, Set.mem_ofPred_eq, mem_firingMembers, mem_cleanup_alerts,
      mem_cleanup_members]
    constructor
    · rintro ⟨a, ⟨⟨ha, -⟩, hf, m, ⟨hm, -⟩, hinc, hal⟩, rfl⟩
      exact ⟨a, ⟨ha, hf, m, hm, hinc, hal⟩, rfl⟩
    · rintro ⟨a, ⟨ha, hf, m, hm, hinc, hal⟩, rfl⟩
      -- the only alert of this membership is `a`, which fires
      refine ⟨a, ⟨⟨ha, stale_eq_false hf⟩, hf, m, ⟨hm, fun b hb hid => ?_⟩, hinc, hal⟩, rfl⟩
      rw [Table.eq_of_key_eq hb ha (hid.trans hal)]
      exact stale_eq_false hf

theorem Transaction.structured (t : Transaction) (h : Structured db) (hrun : t.run db = .ok db') :
    Structured db' := by
  cases t with
  | fire sink env o =>
    obtain ⟨db₁, db₂, events, h₁, h₂, rfl⟩ := recordTriggered_steps hrun
    obtain ⟨hs, x, hx, hid, hfiring, hsev⟩ := h.insertAlert h₁
    cases sink with
    | none =>
      cases h₂
      exact hs.congr rfl rfl rfl
    | some r => exact (hs.alertFiredTx hx hid hfiring hsev h₂).congr rfl rfl rfl
  | observe o =>
    cases hrun
    exact h.observeAlert o
  | resolve env o =>
    rcases recordResolved_steps hrun with rfl | ⟨a, db₁, events, -, h₁, rfl⟩
    · exact h
    · exact (h.alertResolvedTx h₁).congr rfl rfl rfl
  | reconcile r env now => exact (reconcile_adopts h hrun).structured
  | scheduleReminders env now interval => exact (scheduleReminders_reminds hrun).structured h
  | cleanupDeliveries now =>
    cases hrun
    exact h.congr rfl rfl rfl
  | cleanupIncidents now =>
    cases hrun
    exact h.cleanupIncidents now
  | cleanupAlerts now =>
    cases hrun
    exact h.cleanupAlerts now

structure Settles (db db' : Database) : Prop where
  status : ∀ i ∈ db.incidents.rows, i.status = .resolved →
    ∀ i' ∈ db'.incidents.rows, i'.id = i.id → i'.status = .resolved
  members : ∀ i ∈ db.incidents.rows, i.status = .resolved →
    ∀ m' ∈ db'.incidentAlerts.rows, m'.incidentId = i.id →
      ∃ m ∈ db.incidentAlerts.rows, m.key = m'.key

theorem Extends.settles (h : Extends db db') : Settles db db' where
  status i hi hres i' hi' hid := by
    obtain ⟨j, hj, hjd, -, hjs⟩ := h.incident i hi
    rw [Table.eq_of_key_eq hi' hj (hid.trans hjd.symm)]
    exact hjs hres
  members i hi hres m' hm' hid := by
    rcases h.member m' hm' with hold | hopen
    · exact hold
    · have := hopen i hi hid.symm
      rw [hres] at this
      cases this

theorem settles_of_subset (hincidents : ∀ i ∈ db'.incidents.rows, i ∈ db.incidents.rows)
    (hmembers : ∀ m ∈ db'.incidentAlerts.rows, m ∈ db.incidentAlerts.rows) : Settles db db' where
  status i hi hres i' hi' hid := by
    rw [Table.eq_of_key_eq (hincidents i' hi') hi hid]
    exact hres
  members _ _ _ m' hm' _ := ⟨m', hmembers m' hm', rfl⟩

theorem insertAlert_extends (h : insertAlert env db o = .ok db') : Extends db db' := by
  obtain ⟨-, -, -, -, hframe⟩ := insertAlert_ok h
  exact .of_eq (by rw [hframe]) (by rw [hframe])

theorem Transaction.settles (t : Transaction) (h : Structured db) (hrun : t.run db = .ok db') :
    Settles db db' := by
  cases t with
  | fire sink env o =>
    obtain ⟨db₁, db₂, events, h₁, h₂, rfl⟩ := recordTriggered_steps hrun
    have hevent : Extends db₂ { db₂ with events } := .of_eq rfl rfl
    cases sink with
    | none =>
      cases h₂
      exact ((insertAlert_extends h₁).trans hevent).settles
    | some r =>
      exact (((insertAlert_extends h₁).trans (alertFiredTx_extends h₂).1).trans hevent).settles
  | observe o =>
    cases hrun
    apply Extends.settles
    exact .of_eq rfl rfl
  | resolve env o =>
    rcases recordResolved_steps hrun with rfl | ⟨a, db₁, events, -, h₁, rfl⟩
    · exact (Extends.refl _).settles
    · have hset : Extends db (resolveAlert db a.id o.now) := .of_eq rfl rfl
      have hevent : Extends db₁ { db₁ with events } := .of_eq rfl rfl
      exact ((hset.trans (alertResolvedTx_extends h₁)).trans hevent).settles
  | reconcile r env now => exact (reconcile_adopts h hrun).kept.settles
  | scheduleReminders env now interval => exact (scheduleReminders_reminds hrun).kept.settles
  | cleanupDeliveries now =>
    cases hrun
    apply Extends.settles
    exact .of_eq rfl rfl
  | cleanupIncidents now =>
    cases hrun
    exact settles_of_subset (fun i hi => (Table.mem_delete.mp hi).1)
      (fun m hm => (Table.mem_delete.mp hm).1)
  | cleanupAlerts now =>
    cases hrun
    exact settles_of_subset (fun i hi => hi) (fun m hm => (mem_cleanup_members.mp hm).1)

/-! ## Alerts handed to the incidents stay there -/

def Placed (db : Database) (passed : List String) : Prop :=
  ∀ a ∈ db.alerts.rows, a.status = .firing → a.id ∈ passed → grouped db a.id = true

theorem grouped_iff {alertID : String} :
    grouped db alertID = true ↔ ∃ m ∈ db.incidentAlerts.rows, m.alertId = alertID := by
  simp [grouped]

theorem Placed.grow {more : List String} (h : Placed db passed)
    (hmembers : ∀ m ∈ db.incidentAlerts.rows, m ∈ db'.incidentAlerts.rows)
    (hnew : ∀ a ∈ db'.alerts.rows, a ∈ db.alerts.rows ∧ a.id ∉ more ∨
      (a.id ∈ more ++ passed → grouped db' a.id = true)) : Placed db' (more ++ passed) := by
  intro a ha hfiring hpassed
  rcases hnew a ha with ⟨hold, hmore⟩ | hgrouped
  · have hp : a.id ∈ passed := (List.mem_append.mp hpassed).resolve_left hmore
    obtain ⟨m, hm, hid⟩ := grouped_iff.mp (h a hold hfiring hp)
    exact grouped_iff.mpr ⟨m, hmembers m hm, hid⟩
  · exact hgrouped hpassed

theorem Placed.keep (h : Placed db passed)
    (hkeep : ∀ a' ∈ db'.alerts.rows, a'.status = .firing → ∃ a ∈ db.alerts.rows,
      a.id = a'.id ∧ a.status = .firing ∧
        ((∃ m ∈ db.incidentAlerts.rows, m.alertId = a.id) →
          ∃ m ∈ db'.incidentAlerts.rows, m.alertId = a.id)) : Placed db' passed := by
  intro a' ha' hfiring hpassed
  obtain ⟨a, ha, hid, hf, hm⟩ := hkeep a' ha' hfiring
  rw [← hid] at hpassed ⊢
  exact grouped_iff.mpr (hm (grouped_iff.mp (h a ha hf hpassed)))

/-- The draw of an alert that is not handed over is not the id of one that was. -/
def Transaction.Enabled (passed : List String) : Transaction → Prop
  | .fire none env _ => env.ids 0 ∉ passed
  | _ => True

theorem alertResolvedTx_members {alertID : String}
    (h : alertResolvedTx env db alertID now = .ok db') :
    db'.incidentAlerts = db.incidentAlerts ∨
      db'.incidentAlerts = (leaveIncident db alertID now).incidentAlerts := by
  rcases alertResolvedTx_cases h with ⟨-, rfl⟩ | ⟨m, -, -, ⟨-, hclose⟩ | ⟨-, rfl⟩⟩
  · exact .inl rfl
  · refine .inr ?_
    rw [enqueueResolutionTx_frame hclose]
    rfl
  · exact .inr rfl

theorem Transaction.placed (t : Transaction) (hs : Structured db)
    (h : Placed db passed) (hen : t.Enabled passed) (hrun : t.run db = .ok db') :
    Placed db' (t.passes db ++ passed) := by
  cases t with
  | fire sink env o =>
    obtain ⟨db₁, db₂, events, h₁, h₂, rfl⟩ := recordTriggered_steps hrun
    obtain ⟨level, -, -, hrows, hframe⟩ := insertAlert_ok h₁
    have hmembers : db₁.incidentAlerts = db.incidentAlerts := by rw [hframe]
    cases sink with
    | none =>
      cases h₂
      refine h.grow (fun m hm => hmembers ▸ hm) fun a ha => ?_
      rcases mem_snoc hrows ha with hold | rfl
      · exact .inl ⟨hold, List.not_mem_nil⟩
      · exact .inr fun hp => absurd hp hen
    | some r =>
      obtain ⟨-, m, hm, hrows₂⟩ := alertFiredTx_extends h₂
      have halerts : db₂.alerts = db₁.alerts := by rw [alertFiredTx_frame h₂]
      have hgrouped : grouped { db₂ with events } (env.ids 0) = true :=
        grouped_iff.mpr ⟨m, by rw [hrows₂]; simp, hm⟩
      refine h.grow (fun e he => ?_) fun a ha => ?_
      · show e ∈ db₂.incidentAlerts.rows
        rw [hrows₂, hmembers]
        exact List.mem_append_left _ he
      · replace ha : a ∈ db₂.alerts.rows := ha
        rw [halerts] at ha
        by_cases hid : a.id = env.ids 0
        · exact .inr fun _ => hid ▸ hgrouped
        · rcases mem_snoc hrows ha with hold | rfl
          · exact .inl ⟨hold, by simpa [Transaction.passes] using hid⟩
          · exact absurd rfl hid
  | observe o =>
    cases hrun
    refine h.keep fun a' ha' hf => ?_
    obtain ⟨a, ha, hid, hst, -⟩ := observeAlert_rows ha'
    exact ⟨a, ha, hid.symm, hst ▸ hf, fun hm => hm⟩
  | resolve env o =>
    rcases recordResolved_steps hrun with rfl | ⟨a, db₁, events, -, h₁, rfl⟩
    · exact h
    have hframe := alertResolvedTx_frame h₁
    refine h.keep fun a' ha' hf => ?_
    have ha : a' ∈ (resolveAlert db a.id o.now).alerts.rows := by
      replace ha' : a' ∈ db₁.alerts.rows := ha'
      rw [hframe] at ha'
      exact ha'
    obtain ⟨⟨ha, -⟩, -⟩ := mem_resolveAlert.mp ⟨ha, hf⟩
    refine ⟨a', ha, rfl, hf, fun hm => ?_⟩
    show ∃ m ∈ db₁.incidentAlerts.rows, m.alertId = a'.id
    rcases alertResolvedTx_members h₁ with hsame | hleft
    · rw [hsame]
      exact hm
    · rw [hleft]
      exact (exists_leaveIncident fun _ x => x = a'.id).mpr hm
  | reconcile r env now =>
    have hA := reconcile_adopts hs hrun
    refine h.grow hA.members fun a ha => ?_
    rw [hA.alerts] at ha
    by_cases horphan : a.id ∈ (orphans env db).map AlertRow.id
    · refine .inr fun _ => ?_
      obtain ⟨b, hb, hid⟩ := List.mem_map.mp horphan
      rcases hA.adopted b hb with hg | ⟨k, hk⟩
      · exact hid ▸ hg
      · cases hk
    · exact .inl ⟨ha, horphan⟩
  | scheduleReminders env now interval =>
    have hR := scheduleReminders_reminds hrun
    refine h.keep fun a' ha' hf => ⟨a', hR.alerts ▸ ha', rfl, hf, fun hm => ?_⟩
    rw [hR.members]
    exact hm
  | cleanupDeliveries now =>
    cases hrun
    exact h
  | cleanupIncidents now =>
    cases hrun
    refine h.keep fun a ha hf => ⟨a, ha, rfl, hf, ?_⟩
    rintro ⟨m, hm, hid⟩
    obtain ⟨i, hi, hinc⟩ := hs.incident m hm
    have hopen : i.status = .opened := by
      refine hs.openFor i hi (List.ne_nil_of_mem (mem_firingMembers.mpr ⟨ha, hf, m, hm, ?_, hid⟩))
      exact hinc.symm
    have hstay : forgets db now m.incidentId = false := by
      rw [← hinc]
      exact forgets_eq_false hi (by simp [forgotten, hopen])
    exact ⟨m, Table.mem_delete.mpr ⟨hm, hstay⟩, hid⟩
  | cleanupAlerts now =>
    cases hrun
    refine h.keep fun a ha hf => ?_
    obtain ⟨ha, -⟩ := mem_cleanup_alerts.mp ha
    refine ⟨a, ha, rfl, hf, ?_⟩
    rintro ⟨m, hm, hid⟩
    refine ⟨m, mem_cleanup_members.mpr ⟨hm, fun b hb hbid => ?_⟩, hid⟩
    rw [Table.eq_of_key_eq hb ha (hbid.trans hid)]
    exact stale_eq_false hf

/-! ## Whole histories -/

structure History where
  db : Database
  passed : List String

inductive Action where
  | transact (t : Transaction)
  | elsewhere (db : Database)

def History.act (h : History) : Action → History
  | .transact t =>
    match t.run h.db with
    | .ok db => { db, passed := t.passes h.db ++ h.passed }
    | .error _ => h
  | .elsewhere db => { h with db }

theorem History.act_transact (h : History) (t : Transaction) :
    (∃ db, t.run h.db = .ok db ∧
      h.act (.transact t) = { db, passed := t.passes h.db ++ h.passed }) ∨
    h.act (.transact t) = h := by
  cases hrun : t.run h.db with
  | ok db =>
    refine .inl ⟨db, rfl, ?_⟩
    show (match t.run h.db with | .ok db => _ | .error _ => h) = _
    rw [hrun]
  | error e =>
    refine .inr ?_
    show (match t.run h.db with | .ok db => _ | .error _ => h) = _
    rw [hrun]

/-- `elsewhere` leaves alerts, incidents and memberships alone. -/
def Action.Enabled (h : History) : Action → Prop
  | .transact t => t.Enabled h.passed
  | .elsewhere db => db.alerts = h.db.alerts ∧ db.incidents = h.db.incidents ∧
      db.incidentAlerts = h.db.incidentAlerts

def incidentHistories : System History Action :=
  .ofStep { db := Database.empty, passed := [] } History.act Action.Enabled

structure History.Sound (h : History) : Prop where
  structured : Structured h.db
  placed : Placed h.db h.passed

variable {h : History}

theorem History.Sound.act (hs : h.Sound) {a : Action} (hen : a.Enabled h) :
    (h.act a).Sound := by
  cases a with
  | transact t =>
    rcases h.act_transact t with ⟨db, hrun, hact⟩ | hact
    · rw [hact]
      exact ⟨t.structured hs.structured hrun, t.placed hs.structured hs.placed hen hrun⟩
    · rw [hact]
      exact hs
  | elsewhere db =>
    obtain ⟨halerts, hincidents, hmembers⟩ := hen
    refine ⟨hs.structured.congr halerts hmembers hincidents, hs.placed.keep fun a ha hf => ?_⟩
    refine ⟨a, halerts ▸ ha, rfl, hf, fun hm => ?_⟩
    show ∃ m ∈ db.incidentAlerts.rows, m.alertId = a.id
    rw [hmembers]
    exact hm

theorem sound_of_reachable (hr : incidentHistories.Reachable h) : h.Sound := by
  refine hr.invariant History.Sound
    ⟨structured_of_empty rfl rfl, fun a ha => absurd ha List.not_mem_nil⟩ ?_
  rintro h a h' hs ⟨hen, rfl⟩
  exact hs.act hen

theorem History.settles (hs : h.Sound) {a : Action} (hen : a.Enabled h) :
    Settles h.db (h.act a).db := by
  cases a with
  | transact t =>
    rcases h.act_transact t with ⟨db, hrun, hact⟩ | hact
    · rw [hact]
      exact t.settles hs.structured hrun
    · rw [hact]
      exact (Extends.refl h.db).settles
  | elsewhere db => exact (Extends.of_eq hen.2.1 hen.2.2).settles

def BelongsTo (db : Database) (alertID : String) (i : IncidentRow) : Prop :=
  i ∈ db.incidents.rows ∧ ∃ m ∈ db.incidentAlerts.rows, m.alertId = alertID ∧ m.incidentId = i.id

structure IncidentStructure (h : History) : Prop where
  /-- A firing alert that was handed over belongs to one incident, which is open. -/
  belongs : ∀ a ∈ h.db.alerts.rows, a.status = .firing → a.id ∈ h.passed →
    ∃ i, BelongsTo h.db a.id i ∧ i.status = .opened ∧ ∀ j, BelongsTo h.db a.id j → j = i
  /-- An open incident has firing members, and the greatest of their severities. -/
  severity : ∀ i ∈ h.db.incidents.rows, i.status = .opened → firingMembers h.db i.id ≠ [] ∧
    IsGreatest {s | ∃ a ∈ firingMembers h.db i.id, a.severity = s} i.severity
  oneOpen : ∀ i ∈ h.db.incidents.rows, ∀ j ∈ h.db.incidents.rows, i.status = .opened →
    j.status = .opened → i.groupKey = j.groupKey → i = j

theorem History.Sound.incidentStructure (hs : h.Sound) : IncidentStructure h where
  belongs a ha hf hp := by
    obtain ⟨m, hm, hid⟩ := grouped_iff.mp (hs.placed a ha hf hp)
    obtain ⟨i, hi, hinc⟩ := hs.structured.incident m hm
    have hmember : a ∈ firingMembers h.db i.id :=
      mem_firingMembers.mpr ⟨ha, hf, m, hm, hinc.symm, hid⟩
    refine ⟨i, ⟨hi, m, hm, hid, hinc.symm⟩,
      hs.structured.openFor i hi (List.ne_nil_of_mem hmember), ?_⟩
    rintro j ⟨hj, e, he, heid, heinc⟩
    have hem : e = m := hs.structured.unique e he m hm (heid.trans hid.symm)
    exact Table.eq_of_key_eq hj hi (heinc.symm.trans ((congrArg _ hem).trans hinc.symm))
  severity i hi ho := ⟨hs.structured.firing hi ho, hs.structured.severity i hi ho⟩
  oneOpen := hs.structured.oneOpen

/-- In every history the incidents are structured, a resolved incident stays
resolved without new members, and neither cleanup removes an open incident or
a firing alert. -/
theorem incident_structure {h : History} (hr : incidentHistories.Reachable h) :
    IncidentStructure h ∧
    (∀ a : Action, a.Enabled h → Settles h.db (h.act a).db) ∧
    ∀ now, (∀ i ∈ h.db.incidents.rows, i.status = .opened →
        i ∈ (cleanup h.db now).incidents.rows ∧ i ∈ (Alerts.cleanup h.db now).incidents.rows) ∧
      ∀ a ∈ h.db.alerts.rows, a.status = .firing →
        a ∈ (cleanup h.db now).alerts.rows ∧ a ∈ (Alerts.cleanup h.db now).alerts.rows := by
  have hs := sound_of_reachable hr
  refine ⟨hs.incidentStructure, fun a hen => History.settles hs hen, fun now => ⟨?_, ?_⟩⟩
  · intro i hi ho
    exact ⟨Table.mem_delete.mpr ⟨hi, by simp [forgotten, ho]⟩, hi⟩
  · intro a ha hf
    exact ⟨ha, mem_cleanup_alerts.mpr ⟨ha, stale_eq_false hf⟩⟩

def cpuHigh (at_ : Int) : Observation where
  rule := builtinRule "builtin-host-cpu-warning" familyHostCPU "Host CPU warning" .warning
  targetType := "host"
  target := "server"
  value := 95
  failing := true
  recovered := false
  now := at_ * second

def draws (letter : Char) : Ambient where
  ids n := String.ofList (letter :: List.replicate n 'f')
  wallClock := 0
  order := .stored

def equipped : Database :=
  { Database.empty with
    alertRules := ⟨[ruleRow (cpuHigh 0).rule .warning true 0 0 0], by decide⟩
    channels := ⟨[ChannelRow.mk "ops" true .warning true none], by decide⟩ }

def announced : History :=
  History.act ⟨equipped, []⟩ (.transact (.fire (some {}) (draws 'a') (cpuHigh 0)))

theorem reachable_announced : incidentHistories.Reachable announced := by
  have hequipped : incidentHistories.Reachable ⟨equipped, []⟩ :=
    System.Reachable.init.next (a := .elsewhere equipped) ⟨⟨rfl, rfl, rfl⟩, rfl⟩
  refine hequipped.next (a := .transact (.fire (some {}) (draws 'a') (cpuHigh 0))) ⟨?_, rfl⟩
  trivial

/-- The alert that fires there has its incident. -/
theorem incident_structure_announced :
    announced.passed = ["a"] ∧ announced.db.alerts.rows.length = 1 ∧ IncidentStructure announced :=
  ⟨by decide +kernel, by decide +kernel, (incident_structure reachable_announced).1⟩

end Binnacle.Notifications
