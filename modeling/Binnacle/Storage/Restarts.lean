import Binnacle.Metrics.Engine
import Binnacle.Storage.Resources

/-!
# Events over several process runs

One database, and over it one process after the other, each with an engine of
its own. `Installation` also records which events each run has stored.

- `Durable`: every stored event has a row of its own that tells its type, time,
  container and message;
- `events_durable_iff`: all along a sequence of runs it holds exactly when no
  batch contains an event with a number that an earlier run has stored.
-/

namespace Binnacle.Storage

open Relational Runs Metrics

/-- The database, the process over it, and what the runs so far have stored. -/
structure Installation where
  m : Manager
  engine : Engine
  captured : List PersistenceBatch
  run : Nat
  numbered : List Event
  persisted : List (Nat × Event)

/-- What happens over the database. -/
inductive Activity where
  | start (maxEvents : Int)
  | publish (wallClock : Time) (snapshot : Snapshot) (events : List Event)
  | publishFilesystems (obs : List FilesystemObservation)
  | capture
  | upsertHost (id identity name : String)
  | upsertResource (r : Resource) (now : Time)
  | write (batch : PersistenceBatch)

def installed : Installation where
  m := { db := Database.empty }
  engine := newEngine 128
  captured := []
  run := 0
  numbered := []
  persisted := []

/-- One activity. A new process knows nothing but the database. -/
def act (w : Installation) : Activity → Installation
  | .start maxEvents =>
    { w with
      m := { db := w.m.db }
      engine := newEngine maxEvents
      captured := []
      run := w.run + 1
      numbered := [] }
  | .publish wallClock snapshot events =>
    { w with
      engine := w.engine.publish wallClock snapshot events
      numbered := w.numbered ++ (assign (w.engine.nextMessage + 1) events).1 }
  | .publishFilesystems obs => { w with engine := w.engine.publishFilesystems obs }
  | .capture => { w with captured := w.captured ++ [w.engine.persistenceBatch] }
  | .upsertHost id identity name =>
    { w with m := w.m.attempt (upsertHost w.m.db id identity name) }
  | .upsertResource r now => { w with m := w.m.attempt (upsertResource w.m.db r now) }
  | .write batch =>
    match writeBatch w.m batch with
    | .ok m => { w with m, persisted := w.persisted ++ batch.events.map fun e => (w.run, e) }
    | .error _ => w

variable {w : Installation} {batch : PersistenceBatch}

theorem act_write_ok {m : Manager} (h : writeBatch w.m batch = .ok m) :
    act w (.write batch)
      = { w with m, persisted := w.persisted ++ batch.events.map fun e => (w.run, e) } := by
  simp only [act, h]

theorem act_write_error {err : SqlError} (h : writeBatch w.m batch = .error err) :
    act w (.write batch) = w := by
  simp only [act, h]

/-- Events are published without an id, and a batch that is written was taken
from this run's engine. -/
def Activity.Enabled (w : Installation) : Activity → Prop
  | .publish _ _ events => ∀ event ∈ events, event.id = 0
  | .write batch => batch ∈ w.captured
  | _ => True

instance (w : Installation) (a : Activity) : Decidable (a.Enabled w) := by
  cases a with
  | publish _ _ events => exact inferInstanceAs (Decidable (∀ event ∈ events, event.id = 0))
  | write batch => exact inferInstanceAs (Decidable (batch ∈ w.captured))
  | _ => exact isTrue trivial

def Tells (row : EventRow) (e : Event) : Prop :=
  row.type = e.type ∧ row.ts = unixMilli e.at_ ∧
    row.containerInstanceId = nullable e.containerInstance ∧ row.summary = e.message

def Durable (w : Installation) : Prop :=
  ∃ place : Nat × Event → EventRow,
    (∀ p ∈ w.persisted, place p ∈ w.m.db.events.rows ∧ Tells (place p) p.2) ∧
    ∀ p ∈ w.persisted, ∀ q ∈ w.persisted, place p = place q → p = q

theorem eventRow_tells (e : Event) : Tells (eventRow e) e := ⟨rfl, rfl, rfl, rfl⟩

/-! ## What all runs keep -/

/-- Numbers identify the events of one run, and the table holds rows of stored
events only, at least one for each number. -/
structure Traced (w : Installation) : Prop where
  numbers : w.engine.Numbers w.numbered
  captured : ∀ batch ∈ w.captured, ∀ e ∈ batch.events, e ∈ w.numbered
  past : ∀ p ∈ w.persisted, p.1 ≤ w.run
  current : ∀ p ∈ w.persisted, p.1 = w.run → p.2 ∈ w.numbered
  oneRun : ∀ p ∈ w.persisted, ∀ q ∈ w.persisted, p.1 = q.1 → p.2.id = q.2.id → p = q
  rows : ∀ row ∈ w.m.db.events.rows, ∃ p ∈ w.persisted, row = eventRow p.2
  stored : ∀ p ∈ w.persisted, w.m.db.events.has (Nat.repr p.2.id) = true

theorem traced_installed : Traced installed where
  numbers := numbers_newEngine 128
  captured _ h := nomatch h
  past _ h := nomatch h
  current _ h := nomatch h
  oneRun _ h := nomatch h
  rows _ h := nomatch h
  stored _ h := nomatch h

theorem mem_committed {p : Nat × Event}
    (hp : p ∈ w.persisted ++ batch.events.map fun e => (w.run, e)) :
    p ∈ w.persisted ∨ p.1 = w.run ∧ p.2 ∈ batch.events := by
  refine (List.mem_append.mp hp).imp_right fun hp => ?_
  obtain ⟨e, he, rfl⟩ := List.mem_map.mp hp
  exact ⟨rfl, he⟩

theorem Traced.write (h : Traced w) (hcap : batch ∈ w.captured) :
    Traced (act w (.write batch)) := by
  cases hw : writeBatch w.m batch with
  | error err =>
    rw [act_write_error hw]
    exact h
  | ok m =>
    rw [act_write_ok hw]
    have hevents : m.db.events = recordEvents w.m.db.events batch.events := writeBatch_events hw
    have hcurrent : ∀ p ∈ w.persisted ++ batch.events.map (fun e => (w.run, e)),
        p.1 = w.run → p.2 ∈ w.numbered := by
      intro p hp hrun
      rcases mem_committed hp with hp | ⟨-, he⟩
      · exact h.current p hp hrun
      · exact h.captured batch hcap p.2 he
    refine ⟨h.numbers, h.captured, ?_, hcurrent, ?_, ?_, ?_⟩
    · intro p hp
      rcases mem_committed hp with hp | ⟨hrun, -⟩
      · exact h.past p hp
      · exact le_of_eq hrun
    · intro p hp q hq hpq hid
      by_cases hrun : p.1 = w.run
      · have he := h.numbers.eq_of_id (hcurrent p hp hrun) (hcurrent q hq (hpq ▸ hrun)) hid
        exact Prod.ext hpq he
      · -- an earlier run: neither pair is new
        rcases mem_committed hp with hp | ⟨hp, -⟩
        · rcases mem_committed hq with hq | ⟨hq, -⟩
          · exact h.oneRun p hp q hq hpq hid
          · exact absurd (hpq.trans hq) hrun
        · exact absurd hp hrun
    · intro row hrow
      rw [hevents] at hrow
      rcases Table.mem_foldl_insertOrIgnore hrow with hrow | ⟨e, he, rfl⟩
      · obtain ⟨p, hp, rfl⟩ := h.rows row hrow
        exact ⟨p, List.mem_append_left _ hp, rfl⟩
      · exact ⟨(w.run, e), List.mem_append_right _ (List.mem_map_of_mem he), rfl⟩
    · intro p hp
      rw [hevents]
      refine Table.has_foldl_insertOrIgnore.mpr ?_
      rcases mem_committed hp with hp | ⟨-, he⟩
      · exact .inl (h.stored p hp)
      · exact .inr ⟨p.2, he, rfl⟩

theorem Traced.attempt (h : Traced w) {result : Except SqlError Database}
    (hres : ∀ db', result = .ok db' → db'.events = w.m.db.events) :
    Traced { w with m := w.m.attempt result } := by
  have hevents : (w.m.attempt result).db.events = w.m.db.events :=
    Manager.attempt_keeps (I := fun db => db.events = w.m.db.events) rfl hres
  refine ⟨h.numbers, h.captured, h.past, h.current, h.oneRun, ?_, ?_⟩
  · simp only [hevents]
    exact h.rows
  · simp only [hevents]
    exact h.stored

theorem Traced.of_act (h : Traced w) {a : Activity} (ha : a.Enabled w) : Traced (act w a) := by
  cases a with
  | start maxEvents =>
    -- the pairs of the run that ends become pairs of an earlier run
    refine ⟨numbers_newEngine maxEvents, fun b hb => (nomatch hb),
      fun p hp => Nat.le_succ_of_le (h.past p hp), fun p hp hrun => ?_, h.oneRun, h.rows, h.stored⟩
    have hle : p.1 ≤ w.run := h.past p hp
    have hrun : p.1 = w.run + 1 := hrun
    omega
  | publish wallClock snapshot events =>
    refine ⟨h.numbers.publish wallClock snapshot ha, fun batch hb e he => ?_, h.past,
      fun p hp hrun => ?_, h.oneRun, h.rows, h.stored⟩
    · exact List.mem_append_left _ (h.captured batch hb e he)
    · exact List.mem_append_left _ (h.current p hp hrun)
  | publishFilesystems obs =>
    exact ⟨⟨h.numbers.increasing, h.numbers.positive, h.numbers.bounded, h.numbers.window⟩,
      h.captured, h.past, h.current, h.oneRun, h.rows, h.stored⟩
  | capture =>
    refine ⟨h.numbers, fun b hb e he => ?_, h.past, h.current, h.oneRun, h.rows, h.stored⟩
    rcases mem_snoc rfl hb with hb | rfl
    · exact h.captured b hb e he
    · exact h.numbers.mem_of_window he
  | upsertHost id identity name =>
    exact h.attempt fun db' hdb => by rw [upsertHost_frame hdb]
  | upsertResource r now =>
    exact h.attempt fun db' hdb => by rw [upsertResource_frame hdb]
  | write batch => exact h.write ha

/-! ## When stored events are durable -/

theorem repr_injective {n m : Nat} (h : n.repr = m.repr) : n = m := by
  have hdigits : Nat.toDigits 10 n = Nat.toDigits 10 m := by
    rw [Nat.repr_eq_ofList_toDigits, Nat.repr_eq_ofList_toDigits] at h
    exact String.ofList_injective h
  rw [← Nat.ofDigitChars_ten_toDigits (n := n), hdigits, Nat.ofDigitChars_ten_toDigits]

theorem durable_iff (h : Traced w) :
    Durable w ↔ ∀ p ∈ w.persisted, ∀ q ∈ w.persisted, p.2.id = q.2.id → p = q := by
  constructor
  · rintro ⟨place, hplace, hinj⟩ p hp q hq hid
    -- the table has one row for each number, and each event needs one of its own
    have hnamed : ∀ row ∈ w.m.db.events.rows,
        ∃ p ∈ w.persisted, Nat.repr p.2.id = row.id := by
      intro row hrow
      obtain ⟨p, hp, rfl⟩ := h.rows row hrow
      exact ⟨p, hp, rfl⟩
    exact Table.name_inj_of_own_rows hnamed (fun p hp => (hplace p hp).1) hinj p hp q hq
      (congrArg Nat.repr hid)
  · intro hinj
    refine ⟨fun p => eventRow p.2, fun p hp => ⟨?_, eventRow_tells p.2⟩, fun p hp q hq heq => ?_⟩
    · obtain ⟨row, hrow, hid⟩ := Table.has_iff.mp (h.stored p hp)
      obtain ⟨q, hq, rfl⟩ := h.rows row hrow
      have hpq : q = p := hinj q hq p hp (repr_injective hid)
      rw [← hpq]
      exact hrow
    · exact hinj p hp q hq (repr_injective (congrArg EventRow.id heq))

/-- What a step must not do: commit an event under a number that an earlier run
has stored. -/
def Activity.Unclashing (w : Installation) (a : Activity) : Prop :=
  ∀ batch m, a = .write batch → writeBatch w.m batch = .ok m →
    ∀ e ∈ batch.events, ∀ p ∈ w.persisted, p.1 ≠ w.run → p.2.id ≠ e.id

theorem durable_act_iff (h : Traced w) (hd : Durable w) {a : Activity} (ha : a.Enabled w) :
    Durable (act w a) ↔ a.Unclashing w := by
  have hinj := (durable_iff h).mp hd
  rw [durable_iff (h.of_act ha)]
  by_cases hwrite : ∃ batch m, a = .write batch ∧ writeBatch w.m batch = .ok m
  · obtain ⟨batch, m, rfl, hw⟩ := hwrite
    have htraced : Traced (act w (.write batch)) := h.of_act ha
    rw [act_write_ok hw] at htraced ⊢
    constructor
    · intro hall batch' m' hb hw' e he p hp hrun hid
      cases hb
      have hnew : (w.run, e) ∈ w.persisted ++ batch.events.map (fun e => (w.run, e)) :=
        List.mem_append_right _ (List.mem_map_of_mem he)
      have heq := hall p (List.mem_append_left _ hp) (w.run, e) hnew hid
      exact hrun (congrArg Prod.fst heq)
    · intro hun p hp q hq hid
      have hclash := hun batch m rfl hw
      by_cases hpq : p.1 = q.1
      · exact htraced.oneRun p hp q hq hpq hid
      · -- different runs: at most one of the two is new, and it does not clash
        rcases mem_committed hp with hp | ⟨hpr, he⟩ <;>
          rcases mem_committed hq with hq | ⟨hqr, he'⟩
        · exact hinj p hp q hq hid
        · exact absurd hid (hclash q.2 he' p hp (hqr ▸ hpq))
        · exact absurd hid.symm (hclash p.2 he q hq (hpr ▸ Ne.symm hpq))
        · exact absurd (hpr.trans hqr.symm) hpq
  · have hsame : (act w a).persisted = w.persisted := by
      cases a with
      | write batch =>
        cases hw : writeBatch w.m batch with
        | ok m => exact absurd ⟨batch, m, rfl, hw⟩ hwrite
        | error err => rw [act_write_error hw]
      | _ => rfl
    rw [hsame]
    exact iff_of_true hinj fun batch m hb hw => absurd ⟨batch, m, hb, hw⟩ hwrite

/-- All along any sequence of process runs, every event of a committed batch has
a row of its own exactly when no committed batch contains an event with a number
that an earlier run has stored. -/
theorem events_durable_iff {as : List Activity}
    (has : ∀ pre a, pre ++ [a] <+: as → a.Enabled (pre.foldl act installed)) :
    (∀ pre, pre <+: as → Durable (pre.foldl act installed)) ↔
      ∀ pre batch m, pre ++ [.write batch] <+: as →
        writeBatch (pre.foldl act installed).m batch = .ok m → ∀ e ∈ batch.events,
        ∀ p ∈ (pre.foldl act installed).persisted, p.1 ≠ (pre.foldl act installed).run →
          p.2.id ≠ e.id := by
  have hdurable : Durable installed :=
    (durable_iff traced_installed).mpr nofun
  refine (forall_prefix_iff (P := Durable) (I := Traced) (C := fun w a => a.Unclashing w)
    (fun w a hI hP hQ => durable_act_iff hI hP hQ) (fun w a hI hQ => hI.of_act hQ) has
    traced_installed hdurable).trans ?_
  constructor
  · intro h pre batch m hpre hw
    exact h pre (.write batch) hpre batch m rfl hw
  · rintro h pre a hpre batch m rfl hw
    exact h pre batch m hpre hw

/-! ### Two runs -/

/-- The batch of a new engine that has published `idle` snapshots, and then one
with an event. -/
def batchAfter (idle : Nat) (event : Event) : PersistenceBatch :=
  (((fun e : Engine => e.publish 0 { at_ := second } [])^[idle] (newEngine 128)).publish 0
    { at_ := second } [event]).persistenceBatch

/-- A run that publishes `idle` snapshots, then an event, and stores the batch. -/
def runStoring (idle : Nat) (event : Event) : List Activity :=
  List.replicate idle (.publish 0 { at_ := second } []) ++
    [.publish 0 { at_ := second } [event], .capture, .write (batchAfter idle event)]

def started : Event := { at_ := second, type := "container_start", containerInstance := "web" }

def oomKilled : Event := { at_ := 2 * second, type := "container_oom", containerInstance := "db" }

def Activity.written : Activity → List Event
  | .write batch => batch.events
  | _ => []

/-- If the second run has published more before its first event, both events are
stored. -/
theorem events_durable_after_idle :
    let as := runStoring 0 started ++ .start 128 :: runStoring 2 oomKilled
    2 = (as.foldl act installed).persisted.length ∧
      ∀ pre, pre <+: as → Durable (pre.foldl act installed) := by
  refine ⟨by decide +kernel, (events_durable_iff (forall_snoc_of_get (by decide +kernel))).mpr ?_⟩
  intro pre batch m hpre hw
  have hclash :
      ∀ pre a, pre ++ [a] <+: runStoring 0 started ++ .start 128 :: runStoring 2 oomKilled →
      ∀ e ∈ a.written, ∀ p ∈ (pre.foldl act installed).persisted,
        p.1 ≠ (pre.foldl act installed).run → p.2.id ≠ e.id :=
    forall_snoc_of_get (by decide +kernel)
  exact hclash pre (.write batch) hpre

/-- Both runs publish one snapshot and one event. Both events get the number 2, and
the row of the second run's is ignored. -/
theorem restart_suppresses_event :
    let as := runStoring 0 started ++ .start 128 :: runStoring 0 oomKilled
    (∀ pre a, pre ++ [a] <+: as → a.Enabled (pre.foldl act installed)) ∧
      (as.foldl act installed).persisted =
        [(0, { started with id := 2 }), (1, { oomKilled with id := 2 })] ∧
      (as.foldl act installed).m.db.events.rows = [eventRow { started with id := 2 }] ∧
      ¬Durable (as.foldl act installed) := by
  intro as
  have hpersisted : (as.foldl act installed).persisted =
      [(0, { started with id := 2 }), (1, { oomKilled with id := 2 })] := by decide +kernel
  have hrows : (as.foldl act installed).m.db.events.rows
      = [eventRow { started with id := 2 }] := by decide +kernel
  refine ⟨forall_snoc_of_get (by decide +kernel), hpersisted, hrows, ?_⟩
  rintro ⟨place, hplace, -⟩
  obtain ⟨hmem, htells⟩ := hplace (1, { oomKilled with id := 2 }) (by simp [hpersisted])
  rw [hrows, List.mem_singleton] at hmem
  have htype := htells.1
  rw [hmem] at htype
  exact absurd htype (by decide)

end Binnacle.Storage
