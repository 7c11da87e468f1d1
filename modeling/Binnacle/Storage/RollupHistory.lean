import Binnacle.Storage.Resources
import Binnacle.Storage.Retention
import Binnacle.Storage.Rollups

/-!
# Rollups and retention, interleaved

`RollupOnce` and `applyRetention` run in goroutines of their own beside the
writer, and each of their statements commits by itself, so a run is any
interleaving of batches, rollup statements and retention deletes
(`Statement`). `Recorded` adds to the manager what was ever written to the raw
tables.

- `applyRetention_run`: an undisturbed `applyRetention` is a sequence of such
  deletes, as `rollupOnce_run` is of rollup statements;
- `rollup_survives_retention_iff`: a rollup row computed from all samples of its
  bucket stays right exactly as long as no rollup statement finds the bucket
  partly deleted.
-/

namespace Binnacle.Storage

open Relational Runs Metrics

/-- The manager, and every raw sample written so far: the last one for each
primary key. -/
structure Recorded where
  m : Manager
  hostWritten : Table HostSample.key
  resourceWritten : Table ResourceSample.key

/-- What commits at once. -/
inductive Statement where
  | upsertHost (id identity name : String)
  | upsertResource (r : Resource) (now : Time)
  | writeBatch (batch : PersistenceBatch)
  | rollupHost (tier : Tier) (now : Time)
  | rollupResource (tier : Tier) (now : Time)
  | deleteExpired (order : RowOrder) (limit : Nat) (cutoff : Int) (table : RetentionTable)

def Recorded.onDb (w : Recorded) (f : Database → Database) : Recorded :=
  { w with m := { w.m with db := f w.m.db } }

def execute (w : Recorded) : Statement → Recorded
  | .upsertHost id identity name =>
    { w with m := w.m.attempt (upsertHost w.m.db id identity name) }
  | .upsertResource r now => { w with m := w.m.attempt (upsertResource w.m.db r now) }
  | .writeBatch b =>
    match writeBatch w.m b with
    | .ok m =>
      { m
        hostWritten := Series.store w.hostWritten (hostSamplesOf b)
        resourceWritten := Series.store w.resourceWritten (resourceSamplesOf b) }
    | .error _ => w
  | .rollupHost tier now => w.onDb (rollupHost tier now)
  | .rollupResource tier now => w.onDb (rollupResource tier now)
  | .deleteExpired order limit cutoff table => w.onDb (deleteExpired order limit cutoff table)

/-- Timestamps are not negative. -/
def Statement.Enabled (_ : Recorded) : Statement → Prop
  | .writeBatch b => 0 ≤ b.snapshot.at_
  | _ => True

def recordings : System Recorded Statement :=
  .ofStep ⟨{ db := Database.empty }, .empty, .empty⟩ execute Statement.Enabled

variable {w : Recorded}

theorem recordings_execute (h : recordings.Reachable w) (st : Statement)
    (hst : st.Enabled w) : recordings.Reachable (execute w st) :=
  h.next ⟨hst, rfl⟩

/-! ## The calls as runs of statements -/

/-- The statements of a `RollupOnce`. -/
def rollupStatements (now : Time) : List Statement :=
  [Tier.oneMinute, .fifteenMinute, .oneHour].flatMap fun tier =>
    [.rollupHost tier now, .rollupResource tier now]

theorem rollupOnce_run (w : Recorded) (now : Time) :
    (rollupStatements now).foldl execute w = w.onDb (rollupOnce now) := by
  simp only [rollupStatements, rollupOnce, List.flatMap_cons, List.flatMap_nil, List.cons_append,
    List.nil_append, List.foldl_cons, List.foldl_nil, execute, Recorded.onDb]

theorem deleteExpired_run (order : RowOrder) (limit : Nat) (cutoff : Int) (table : RetentionTable)
    (n : Nat) (w : Recorded) :
    (List.replicate n (.deleteExpired order limit cutoff table)).foldl execute w
      = w.onDb (deleteExpired order limit cutoff table)^[n] := by
  induction n generalizing w with
  | zero => rfl
  | succ n ih =>
    rw [List.replicate_succ, List.foldl_cons, ih]
    rfl

/-- A retention delete with the row limit of an `applyRetention`. -/
def Statement.IsDelete (order : RowOrder) (limit : Nat) (st : Statement) : Prop :=
  ∃ cutoff table, st = .deleteExpired order limit cutoff table

/-- An `applyRetention` that nothing interrupts is a run of deletes. -/
theorem applyRetention_run (order : RowOrder) (r : RetentionCutoffs) (aggressive : Bool)
    (now : Time) (w : Recorded) :
    ∃ sts : List Statement, (∀ st ∈ sts, st.IsDelete order (retentionLimit aggressive)) ∧
      sts.foldl execute w = w.onDb (applyRetention order r aggressive now) := by
  have hlimit : 0 < retentionLimit aggressive := by cases aggressive <;> decide
  unfold applyRetention
  by_cases hr : r.raw = 0
  · exact ⟨[], by simp, by simp [hr, Recorded.onDb]⟩
  · simp only [hr, if_false]
    generalize order.arrange retentionTables = tables
    induction tables generalizing w with
    | nil => exact ⟨[], by simp, rfl⟩
    | cons table tables ih =>
      by_cases hd : r.duration table ≤ 0
      · simpa [hd] using ih w
      · obtain ⟨sts, hsts, hrun⟩ := ih (w.onDb (expireTable order (retentionLimit aggressive)
          (unixMilli (now - r.duration table)) table))
        refine ⟨List.replicate (table.rowCount w.m.db) (.deleteExpired order
          (retentionLimit aggressive) (unixMilli (now - r.duration table)) table) ++ sts, ?_, ?_⟩
        · intro st hst
          rcases List.mem_append.mp hst with hst | hst
          · exact ⟨_, _, List.eq_of_mem_replicate hst⟩
          · exact hsts st hst
        · rw [List.foldl_append, deleteExpired_run]
          simp only [Recorded.onDb, expireTable_iterate order hlimit] at hrun ⊢
          rw [hrun]
          simp [hd]

/-! ## The two families of tables -/

def hostTables (tier : Tier) (w : Recorded) : Series.Tables HostSample.key HostRollup.ts where
  raw := w.m.db.hostSamples
  rolled := w.m.db.hostRollups tier
  written := w.hostWritten

def resourceTables (tier : Tier) (w : Recorded) :
    Series.Tables ResourceSample.key ResourceRollup.key where
  raw := w.m.db.resourceSamples
  rolled := w.m.db.resourceRollups tier
  written := w.resourceWritten

def hostAction (tier : Tier) (w : Recorded) : Statement → Series.Action HostSample HostRollup
  | .writeBatch b => if (writeBatch w.m b).isOk then .write (hostSamplesOf b) else .other
  | .rollupHost t now => if t = tier then .rollup (tier.cutoff now) else .other
  | .deleteExpired order limit cutoff .hostSamples =>
    .expireRaw (w.m.db.hostSamples.victims order limit fun r => r.ts < cutoff)
  | .deleteExpired order limit cutoff (.hostRollups t) =>
    if t = tier then
      .expireRolled ((w.m.db.hostRollups tier).victims order limit fun r => r.ts < cutoff)
    else .other
  | _ => .other

def resourceAction (tier : Tier) (w : Recorded) :
    Statement → Series.Action ResourceSample ResourceRollup
  | .writeBatch b => if (writeBatch w.m b).isOk then .write (resourceSamplesOf b) else .other
  | .rollupResource t now => if t = tier then .rollup (tier.cutoff now) else .other
  | .deleteExpired order limit cutoff .resourceSamples =>
    .expireRaw (w.m.db.resourceSamples.victims order limit fun r => r.ts < cutoff)
  | .deleteExpired order limit cutoff (.resourceRollups t) =>
    if t = tier then
      .expireRolled ((w.m.db.resourceRollups tier).victims order limit fun r => r.ts < cutoff)
    else .other
  | _ => .other

def SameSeries (db db' : Database) : Prop :=
  db'.hostSamples = db.hostSamples ∧ db'.resourceSamples = db.resourceSamples ∧
    db'.hostRollups = db.hostRollups ∧ db'.resourceRollups = db.resourceRollups

theorem sameSeries_upsertHost (m : Manager) (id identity name : String) :
    SameSeries m.db (m.attempt (upsertHost m.db id identity name)).db :=
  Manager.attempt_keeps ⟨rfl, rfl, rfl, rfl⟩ fun _ h => by
    rw [upsertHost_frame h]
    exact ⟨rfl, rfl, rfl, rfl⟩

theorem sameSeries_upsertResource (m : Manager) (r : Resource) (now : Time) :
    SameSeries m.db (m.attempt (upsertResource m.db r now)).db :=
  Manager.attempt_keeps ⟨rfl, rfl, rfl, rfl⟩ fun _ h => by
    rw [upsertResource_frame h]
    exact ⟨rfl, rfl, rfl, rfl⟩

theorem hostTables_execute (tier : Tier) (w : Recorded) (st : Statement) :
    hostTables tier (execute w st)
      = hostSeries.step hostRollupRow tier.bucket (hostTables tier w) (hostAction tier w st) := by
  cases st with
  | upsertHost id identity name =>
    obtain ⟨hraw, -, hrolled, -⟩ := sameSeries_upsertHost w.m id identity name
    simp [execute, hostAction, hostTables, Series.step, hraw, hrolled]
  | upsertResource r now =>
    obtain ⟨hraw, -, hrolled, -⟩ := sameSeries_upsertResource w.m r now
    simp [execute, hostAction, hostTables, Series.step, hraw, hrolled]
  | writeBatch b =>
    cases h : writeBatch w.m b with
    | error e => simp [execute, hostAction, h, Except.isOk, Except.toBool, Series.step]
    | ok m =>
      have hframe := writeBatch_frame h
      simp only [execute, hostAction, h, Except.isOk, Except.toBool, Series.step, hostTables,
        if_true]
      rw [writeBatch_hostSamples h, hframe]
  | rollupHost t now =>
    by_cases ht : t = tier
    · subst ht
      simp [execute, hostAction, hostTables, Series.step, Recorded.onDb, rollupHost]
    · simp [execute, hostAction, hostTables, Series.step, Recorded.onDb, rollupHost, ht,
        Ne.symm ht]
  | rollupResource t now => rfl
  | deleteExpired order limit cutoff table =>
    cases table with
    | hostRollups t =>
      by_cases ht : t = tier
      · subst ht
        simp [execute, hostAction, hostTables, Series.step, Recorded.onDb, deleteExpired,
          RetentionTable.modify, Table.deleteSome]
      · simp [execute, hostAction, hostTables, Series.step, Recorded.onDb, deleteExpired,
          RetentionTable.modify, ht, Ne.symm ht]
    | _ => rfl

theorem resourceTables_execute (tier : Tier) (w : Recorded) (st : Statement) :
    resourceTables tier (execute w st)
      = resourceSeries.step resourceRollupRow tier.bucket (resourceTables tier w)
        (resourceAction tier w st) := by
  cases st with
  | upsertHost id identity name =>
    obtain ⟨-, hraw, -, hrolled⟩ := sameSeries_upsertHost w.m id identity name
    simp [execute, resourceAction, resourceTables, Series.step, hraw, hrolled]
  | upsertResource r now =>
    obtain ⟨-, hraw, -, hrolled⟩ := sameSeries_upsertResource w.m r now
    simp [execute, resourceAction, resourceTables, Series.step, hraw, hrolled]
  | writeBatch b =>
    cases h : writeBatch w.m b with
    | error e => simp [execute, resourceAction, h, Except.isOk, Except.toBool, Series.step]
    | ok m =>
      have hframe := writeBatch_frame h
      simp only [execute, resourceAction, h, Except.isOk, Except.toBool, Series.step,
        resourceTables, if_true]
      rw [writeBatch_resourceSamples h, hframe]
  | rollupHost t now => rfl
  | rollupResource t now =>
    by_cases ht : t = tier
    · subst ht
      simp [execute, resourceAction, resourceTables, Series.step, Recorded.onDb, rollupResource]
    · simp [execute, resourceAction, resourceTables, Series.step, Recorded.onDb, rollupResource,
        ht, Ne.symm ht]
  | deleteExpired order limit cutoff table =>
    cases table with
    | resourceRollups t =>
      by_cases ht : t = tier
      · subst ht
        simp [execute, resourceAction, resourceTables, Series.step, Recorded.onDb, deleteExpired,
          RetentionTable.modify, Table.deleteSome]
      · simp [execute, resourceAction, resourceTables, Series.step, Recorded.onDb, deleteExpired,
          RetentionTable.modify, ht, Ne.symm ht]
    | _ => rfl

/-! ## What every interleaving keeps -/

structure Faithful (w : Recorded) : Prop where
  host : List.Sublist w.m.db.hostSamples.rows w.hostWritten.rows
  resource : List.Sublist w.m.db.resourceSamples.rows w.resourceWritten.rows
  hostTs : ∀ s ∈ w.hostWritten.rows, 0 ≤ s.ts
  resourceTs : ∀ s ∈ w.resourceWritten.rows, 0 ≤ s.ts

variable {b : PersistenceBatch}

theorem hostSamplesOf_nonneg (hb : 0 ≤ b.snapshot.at_) :
    ∀ s ∈ hostSamplesOf b, 0 ≤ s.ts := by
  intro s hs
  unfold hostSamplesOf at hs
  split at hs
  · rw [List.mem_singleton.mp hs]
    exact Int.ediv_nonneg hb (by decide)
  · cases hs

theorem resourceSamplesOf_nonneg (hb : 0 ≤ b.snapshot.at_) :
    ∀ s ∈ resourceSamplesOf b, 0 ≤ s.ts := by
  intro s hs
  unfold resourceSamplesOf at hs
  split at hs
  · obtain ⟨r, -, rfl⟩ := List.mem_map.mp hs
    exact Int.ediv_nonneg hb (by decide)
  · cases hs

variable {st : Statement}

theorem Faithful.of_execute (h : Faithful w) (hst : st.Enabled w) : Faithful (execute w st) where
  host := by
    have := hostSeries.step_sublist hostRollupRow Tier.oneMinute.bucket
      (t := hostTables .oneMinute w) h.host (hostAction .oneMinute w st)
    rw [← hostTables_execute] at this
    exact this
  resource := by
    have := resourceSeries.step_sublist resourceRollupRow Tier.oneMinute.bucket
      (t := resourceTables .oneMinute w) h.resource (resourceAction .oneMinute w st)
    rw [← resourceTables_execute] at this
    exact this
  hostTs s hs := by
    cases st with
    | writeBatch b =>
      simp only [execute] at hs
      split at hs
      · rcases Series.mem_store hs with hs | hs
        · exact h.hostTs s hs
        · exact hostSamplesOf_nonneg hst s hs
      · exact h.hostTs s hs
    | _ => exact h.hostTs s hs
  resourceTs s hs := by
    cases st with
    | writeBatch b =>
      simp only [execute] at hs
      split at hs
      · rcases Series.mem_store hs with hs | hs
        · exact h.resourceTs s hs
        · exact resourceSamplesOf_nonneg hst s hs
      · exact h.resourceTs s hs
    | _ => exact h.resourceTs s hs

theorem faithful_init : Faithful ⟨{ db := Database.empty }, .empty, .empty⟩ where
  host := .slnil
  resource := .slnil
  hostTs _ hs := nomatch hs
  resourceTs _ hs := nomatch hs

theorem faithful_of_reachable (h : recordings.Reachable w) : Faithful w := by
  refine h.invariant Faithful faithful_init ?_
  rintro w st w' hw ⟨hst, rfl⟩
  exact hw.of_execute hst

/-! ## A rollup row along a run -/

inductive Bucket where
  | host (tier : Tier) (start : Int)
  | resource (tier : Tier) (id : String) (start : Int)

namespace Bucket

def tier : Bucket → Tier
  | host tier _ | resource tier _ _ => tier

def start : Bucket → Int
  | host _ start | resource _ _ start => start

def rollup (b : Bucket) (now : Time) : Statement :=
  match b with
  | host tier _ => .rollupHost tier now
  | resource tier _ _ => .rollupResource tier now

def Receives (b : Bucket) (batch : PersistenceBatch) : Prop :=
  match b with
  | host tier start =>
    ∃ s ∈ hostSamplesOf batch, hostSeries.place tier.bucket s = ((), start)
  | resource tier id start =>
    ∃ s ∈ resourceSamplesOf batch, resourceSeries.place tier.bucket s = (id, start)

def Present (b : Bucket) (w : Recorded) : Prop :=
  match b with
  | host tier start => (w.m.db.hostRollups tier).has start = true
  | resource tier id start => (w.m.db.resourceRollups tier).has (id, start) = true

def Complete (b : Bucket) (w : Recorded) : Prop :=
  match b with
  | host tier start =>
    hostSeries.bucket tier.bucket ((), start) w.hostWritten.rows ≠ [] ∧
    ∀ s ∈ hostSeries.bucket tier.bucket ((), start) w.hostWritten.rows,
      s ∈ w.m.db.hostSamples.rows
  | resource tier id start =>
    resourceSeries.bucket tier.bucket (id, start) w.resourceWritten.rows ≠ [] ∧
    ∀ s ∈ resourceSeries.bucket tier.bucket (id, start) w.resourceWritten.rows,
      s ∈ w.m.db.resourceSamples.rows

/-- The rollup row holds minimum, maximum, count and average over all samples
ever written in the bucket. -/
def Right (b : Bucket) (w : Recorded) : Prop :=
  match b with
  | host tier start =>
    (w.m.db.hostRollups tier).find? start = some (hostRollupRow ((), start)
      (hostSeries.stats (hostSeries.bucket tier.bucket ((), start) w.hostWritten.rows)))
  | resource tier id start =>
    (w.m.db.resourceRollups tier).find? (id, start) = some (resourceRollupRow (id, start)
      (resourceSeries.stats
        (resourceSeries.bucket tier.bucket (id, start) w.resourceWritten.rows)))

def Intact (b : Bucket) (w : Recorded) : Prop :=
  match b with
  | host tier start =>
    hostSeries.bucket tier.bucket ((), start) w.m.db.hostSamples.rows = [] ∨
    ∀ s ∈ hostSeries.bucket tier.bucket ((), start) w.hostWritten.rows,
      s ∉ w.m.db.hostSamples.rows → ∀ metric, hostValue metric s = none
  | resource tier id start =>
    resourceSeries.bucket tier.bucket (id, start) w.m.db.resourceSamples.rows = [] ∨
    ∀ s ∈ resourceSeries.bucket tier.bucket (id, start) w.resourceWritten.rows,
      s ∉ w.m.db.resourceSamples.rows → ∀ metric, resourceValue metric s = none

instance (b : Bucket) (w : Recorded) : Decidable (b.Present w) := by
  cases b <;> exact inferInstanceAs (Decidable (_ = true))

instance (b : Bucket) (w : Recorded) : Decidable (b.Complete w) := by
  cases b <;> exact inferInstanceAs (Decidable (_ ∧ _))

instance (b : Bucket) (w : Recorded) : Decidable (b.Right w) := by
  cases b <;> exact inferInstanceAs (Decidable (_ = some _))

theorem right_host {tier : Tier} {start : Int} :
    (host tier start).Right w ↔
      hostSeries.Right hostRollupRow Prod.snd tier.bucket ((), start) (hostTables tier w) :=
  Iff.rfl

theorem right_resource {tier : Tier} {id : String} {start : Int} :
    (resource tier id start).Right w ↔
      resourceSeries.Right resourceRollupRow (fun p => p) tier.bucket (id, start)
        (resourceTables tier w) :=
  Iff.rfl

end Bucket

theorem host_place_of_key {size : Int} {s s' : HostSample} (h : s.key = s'.key) :
    hostSeries.place size s = hostSeries.place size s' := by
  have hts : s.ts = s'.ts := congrArg Prod.snd h
  simp [Series.place, hostSeries, hts]

theorem resource_place_of_key {size : Int} {s s' : ResourceSample} (h : s.key = s'.key) :
    resourceSeries.place size s = resourceSeries.place size s' := by
  have hid : s.resourceId = s'.resourceId := congrArg Prod.fst h
  have hts : s.ts = s'.ts := congrArg Prod.snd h
  simp [Series.place, resourceSeries, hts, hid]

theorem host_at_injective : Function.Injective (Prod.snd : Unit × Int → Int) :=
  fun _ _ h => Prod.ext rfl h

theorem Faithful.host_kept (h : Faithful w) (tier : Tier) (start : Int) :
    hostSeries.Kept tier.bucket ((), start) (hostTables tier w) :=
  ⟨h.host, fun s hs => h.hostTs s (List.mem_of_mem_filter hs)⟩

theorem Faithful.resource_kept (h : Faithful w) (tier : Tier) (id : String)
    (start : Int) : resourceSeries.Kept tier.bucket (id, start) (resourceTables tier w) :=
  ⟨h.resource, fun s hs => h.resourceTs s (List.mem_of_mem_filter hs)⟩

variable {now : Time}

theorem hostAction_rollup {tier : Tier} {k : Int} (w : Recorded)
    (hk : tier.cutoff now = k * tier.bucket) :
    hostAction tier w (.rollupHost tier now) = .rollup (k * tier.bucket) := by
  rw [hostAction, if_pos rfl, hk]

theorem resourceAction_rollup {tier : Tier} {k : Int} (w : Recorded)
    (hk : tier.cutoff now = k * tier.bucket) :
    resourceAction tier w (.rollupResource tier now) = .rollup (k * tier.bucket) := by
  rw [resourceAction, if_pos rfl, hk]

theorem Bucket.right_rollup (hw : Faithful w) {b : Bucket}
    (hclosed : b.start + b.tier.bucket ≤ b.tier.cutoff now) (hb : b.Complete w) :
    b.Right (execute w (b.rollup now)) := by
  have hlt : b.start < b.tier.cutoff now :=
    lt_of_lt_of_le (Int.lt_add_of_pos_right _ b.tier.bucket_pos) hclosed
  cases b with
  | host tier start =>
    obtain ⟨k, hk⟩ := tier.cutoff_aligned now
    rw [right_host, hostTables_execute, rollup, hostAction_rollup w hk]
    refine hostSeries.right_rollup tier.bucket_pos host_at_injective hostRollupRow_ts
      (hw.host_kept tier start) ?_ ?_ ?_
    · exact hb.1
    · exact hb.2
    · exact hk ▸ hlt
  | resource tier id start =>
    obtain ⟨k, hk⟩ := tier.cutoff_aligned now
    rw [right_resource, resourceTables_execute, rollup, resourceAction_rollup w hk]
    refine resourceSeries.right_rollup tier.bucket_pos Function.injective_id
      resourceRollupRow_key (hw.resource_kept tier id start) ?_ ?_ ?_
    · exact hb.1
    · exact hb.2
    · exact hk ▸ hlt

/-! ## When a rollup row stays right -/

theorem hostAction_eq_rollup {tier : Tier} {c : Int} :
    hostAction tier w st = .rollup c ↔ ∃ now, st = .rollupHost tier now ∧ c = tier.cutoff now := by
  constructor
  · intro h
    unfold hostAction at h
    split at h
    · split at h <;> cases h
    · next t now =>
      split at h
      · next ht =>
        cases h
        exact ⟨now, by rw [ht], rfl⟩
      · cases h
    · cases h
    · split at h <;> cases h
    · cases h
  · rintro ⟨now, rfl, rfl⟩
    simp [hostAction]

theorem resourceAction_eq_rollup {tier : Tier} {c : Int} :
    resourceAction tier w st = .rollup c ↔
      ∃ now, st = .rollupResource tier now ∧ c = tier.cutoff now := by
  constructor
  · intro h
    unfold resourceAction at h
    split at h
    · split at h <;> cases h
    · next t now =>
      split at h
      · next ht =>
        cases h
        exact ⟨now, by rw [ht], rfl⟩
      · cases h
    · cases h
    · split at h <;> cases h
    · cases h
  · rintro ⟨now, rfl, rfl⟩
    simp [resourceAction]

/-- A statement that writes no sample of a bucket and leaves its rollup row is
quiet for the host tables. -/
theorem host_quiet {tier : Tier} {start : Int}
    (hst : ∀ batch, st = .writeBatch batch → ¬(Bucket.host tier start).Receives batch)
    (hrow : (Bucket.host tier start).Present (execute w st)) :
    hostSeries.Quiet Prod.snd tier.bucket ((), start) (hostTables tier w)
      (hostAction tier w st) := by
  cases st with
  | writeBatch b =>
    simp only [hostAction]
    split
    · exact fun s hs hp => hst b rfl ⟨s, hs, hp⟩
    · trivial
  | rollupHost t now =>
    simp only [hostAction]
    split
    · exact tier.cutoff_aligned now
    · trivial
  | upsertHost _ _ _ | upsertResource _ _ | rollupResource _ _ => trivial
  | deleteExpired order limit cutoff table =>
    cases table with
    | hostRollups t =>
      simp only [hostAction]
      split
      · next ht =>
        subst ht
        intro r hr hk
        have hhas : ((w.m.db.hostRollups t).deleteSome order limit
            fun r => r.ts < cutoff).has r.ts = true := by
          have hkey : r.ts = start := hk
          simpa [Bucket.Present, execute, Recorded.onDb, deleteExpired, RetentionTable.modify, hkey]
            using hrow
        exact Table.eq_false_of_has_delete hhas hr
      · trivial
    | _ => trivial

theorem resource_quiet {tier : Tier} {id : String} {start : Int}
    (hst : ∀ batch, st = .writeBatch batch → ¬(Bucket.resource tier id start).Receives batch)
    (hrow : (Bucket.resource tier id start).Present (execute w st)) :
    resourceSeries.Quiet (fun p => p) tier.bucket (id, start) (resourceTables tier w)
      (resourceAction tier w st) := by
  cases st with
  | writeBatch b =>
    simp only [resourceAction]
    split
    · exact fun s hs hp => hst b rfl ⟨s, hs, hp⟩
    · trivial
  | rollupResource t now =>
    simp only [resourceAction]
    split
    · exact tier.cutoff_aligned now
    · trivial
  | upsertHost _ _ _ | upsertResource _ _ | rollupHost _ _ => trivial
  | deleteExpired order limit cutoff table =>
    cases table with
    | resourceRollups t =>
      simp only [resourceAction]
      split
      · next ht =>
        subst ht
        intro r hr hk
        have hhas : ((w.m.db.resourceRollups t).deleteSome order limit
            fun r => r.ts < cutoff).has r.key = true := by
          have hkey : r.key = (id, start) := hk
          simpa [Bucket.Present, execute, Recorded.onDb, deleteExpired, RetentionTable.modify, hkey]
            using hrow
        exact Table.eq_false_of_has_delete hhas hr
      · trivial
    | _ => trivial

/-- A rollup row of a closed bucket, computed from all samples written in the
bucket, covers all of them for as long as the row is stored and no sample is
added, exactly when no later rollup statement finds the bucket partly deleted. -/
theorem rollup_survives_retention_iff {w : Recorded} (hw : recordings.Reachable w) (b : Bucket)
    {now : Time} (hclosed : b.start + b.tier.bucket ≤ b.tier.cutoff now) (hb : b.Complete w)
    {ops : List Statement}
    (hquiet : ∀ batch, .writeBatch batch ∈ ops → ¬b.Receives batch)
    (hpresent : ∀ pre, pre <+: ops → b.Present (pre.foldl execute (execute w (b.rollup now)))) :
    (∀ pre, pre <+: ops → b.Right (pre.foldl execute (execute w (b.rollup now)))) ↔
      ∀ pre now', pre ++ [b.rollup now'] <+: ops → b.start < b.tier.cutoff now' →
        b.Intact (pre.foldl execute (execute w (b.rollup now))) := by
  have hfaith := faithful_of_reachable hw
  have hright := Bucket.right_rollup hfaith hclosed hb
  have hfaith' : Faithful (execute w (b.rollup now)) := hfaith.of_execute (by cases b <;> trivial)
  have hstep : ∀ pre st, pre ++ [st] <+: ops →
      (∀ batch, st = .writeBatch batch → ¬b.Receives batch) ∧
      b.Present (execute (pre.foldl execute (execute w (b.rollup now))) st) := by
    intro pre st hpre
    refine ⟨fun batch h => hquiet batch (hpre.subset (by simp [h])), ?_⟩
    simpa using hpresent _ hpre
  generalize execute w (b.rollup now) = w₀ at *
  cases b with
  | host tier start =>
    refine (hostSeries.right_along_iff (fun _ _ => host_place_of_key) tier.bucket_pos
      host_at_injective hostRollupRow_ts hostRollupRow_inj (hostTables_execute tier)
      (hfaith'.host_kept tier start) hright
      fun pre st hpre => host_quiet (hstep pre st hpre).1 (hstep pre st hpre).2).trans ?_
    constructor
    · intro h pre now' hpre hlt
      exact h pre _ hpre _ (hostAction_eq_rollup.mpr ⟨now', rfl, rfl⟩) hlt
    · intro h pre st hpre c hact hlt
      obtain ⟨now', rfl, rfl⟩ := hostAction_eq_rollup.mp hact
      exact h pre now' hpre hlt
  | resource tier id start =>
    refine (resourceSeries.right_along_iff (fun _ _ => resource_place_of_key) tier.bucket_pos
      Function.injective_id resourceRollupRow_key resourceRollupRow_inj
      (resourceTables_execute tier) (hfaith'.resource_kept tier id start) hright
      fun pre st hpre => resource_quiet (hstep pre st hpre).1 (hstep pre st hpre).2).trans ?_
    constructor
    · intro h pre now' hpre hlt
      exact h pre _ hpre _ (resourceAction_eq_rollup.mpr ⟨now', rfl, rfl⟩) hlt
    · intro h pre st hpre c hact hlt
      obtain ⟨now', rfl, rfl⟩ := resourceAction_eq_rollup.mp hact
      exact h pre now' hpre hlt

/-! ### Two samples of one hour -/

def cpuBatch (sequence : Nat) (at_ : Time) (cpu : ℚ) : PersistenceBatch where
  snapshot := { sequence, at_, host := { at_, cpuPercent := some cpu } }
  events := []
  filesystems := []

def early : Statement := .writeBatch (cpuBatch 1 (10 * hour + 5 * minute) 10)

def late : Statement := .writeBatch (cpuBatch 2 (10 * hour + 55 * minute) 90)

def twoSamples : Recorded :=
  [early, late].foldl execute ⟨{ db := Database.empty }, .empty, .empty⟩

theorem twoSamples_reachable : recordings.Reachable twoSamples := by
  have h₁ : (0 : Int) ≤ 10 * hour + 5 * minute := by decide
  have h₂ : (0 : Int) ≤ 10 * hour + 55 * minute := by decide
  exact recordings_execute (recordings_execute System.Reachable.init early h₁) late h₂

def tenOClock : Bucket := .host .oneHour 36000000

def expireHour : List Statement :=
  [.deleteExpired .stored 500 39600000 .hostSamples, .rollupHost .oneHour (23 * hour)]

theorem rollup_survives_whole_deletion :
    tenOClock.Complete twoSamples ∧ ∀ pre, pre <+: expireHour → tenOClock.Right
      (pre.foldl execute (execute twoSamples (tenOClock.rollup (11 * hour + 10 * second)))) := by
  refine ⟨by decide +kernel, ?_⟩
  refine (rollup_survives_retention_iff twoSamples_reachable tenOClock (by decide)
    (by decide +kernel) ?_ ?_).mpr ?_
  · intro batch h
    simp [expireHour] at h
  · intro pre hpre
    rw [← List.mem_inits] at hpre
    revert pre
    decide +kernel
  · intro pre now' hpre hlt
    left
    match pre with
    | [] => simp [expireHour, tenOClock, Bucket.rollup] at hpre
    | [st] =>
      obtain ⟨rfl, -⟩ := List.cons_prefix_cons.mp hpre
      decide +kernel
    | _ :: _ :: _ => simp [expireHour, List.cons_prefix_cons] at hpre

/-- The preset `minimal` (settings.go:131). -/
def minimalRetention : RetentionCutoffs where
  raw := 12 * hour
  oneMinute := 7 * 24 * hour
  fifteenMinute := 90 * 24 * hour
  oneHour := 365 * 24 * hour

/-- The hour is rolled up from both samples at 11:00:10. Retention at 22:30 deletes
the first of them, and the next `RollupOnce` replaces the row by one that only
knows the second, a year before the row itself expires. -/
theorem rollup_forgets_deleted_sample :
    recordings.Reachable twoSamples ∧ tenOClock.Complete twoSamples ∧
    let rolled := twoSamples.onDb (rollupOnce (11 * hour + 10 * second))
    let expired := rolled.onDb
      (applyRetention .stored minimalRetention false (22 * hour + 30 * minute))
    let again := expired.onDb (rollupOnce (22 * hour + 30 * minute + 10 * second))
    tenOClock.Right rolled ∧ tenOClock.Right expired ∧
      tenOClock.Present again ∧ ¬tenOClock.Right again :=
  ⟨twoSamples_reachable, by decide +kernel⟩

end Binnacle.Storage
