import Binnacle.Storage.Deletion

/-!
# A deletion that nobody disturbs

`RunDeletion` alone: from the statement that reads the job to the one that ends
it, nothing else writes. The tables of a job are worked through in order, and
`Swept` says what is left when some of them are still to come.

- `deletion_complete_iff`: a completed job leaves nothing in its scope exactly
  when every row in scope is in a table that it works on;
- `deletion_completes_iff`: a job completes exactly when no health check is on a
  resource that it deletes.
-/

namespace Binnacle.Storage

open Relational Runs

/-! ## Tables do not overlap -/

def DeletionTable.slot : DeletionTable → Slot Store
  | .history table => table.slot
  | .metadata table => table.slot

/-- The `WHERE` clause of a batch. -/
def DeletionTable.selects (scope : Scope) (s : Store) :
    (table : DeletionTable) → table.slot.Row → Bool
  | .history table => fun r => batchSelects scope s table (table.columns r)
  | .metadata table => metadataSelects scope table

theorem HistoryTable.apart {a b : HistoryTable} (h : a ≠ b) : a.slot.Apart b.slot := by
  intro s t
  cases a <;> cases b <;> first
    | rfl
    | exact absurd rfl h
    | exact Function.update_of_ne (fun ht => h (by rw [ht])) ..

theorem MetadataTable.apart {a b : MetadataTable} (h : a ≠ b) : a.slot.Apart b.slot := by
  intro s t
  cases a <;> cases b <;> first
    | rfl
    | exact absurd rfl h

theorem DeletionTable.apart {a b : DeletionTable} (h : a ≠ b) : a.slot.Apart b.slot := by
  cases a with
  | history a =>
    cases b with
    | history b => exact HistoryTable.apart fun hab => h (by rw [hab])
    | metadata b =>
      intro s t
      cases a <;> cases b <;> rfl
  | metadata a =>
    cases b with
    | history b =>
      intro s t
      cases a <;> cases b <;> rfl
    | metadata b => exact MetadataTable.apart fun hab => h (by rw [hab])

theorem DeletionTable.slot_set (table : DeletionTable) (s : Store) (t : Table table.slot.key) :
    (table.slot.set s t).jobs = s.jobs ∧
      (table.slot.set s t).db.healthChecks = s.db.healthChecks := by
  cases table with
  | history table | metadata table => cases table <;> exact ⟨rfl, rfl⟩

/-! ## Batches -/

structure Batch (scope : Scope) (table : DeletionTable) (s s' : Store) (n : Nat) : Prop where
  left : ∃ order, table.slot.get s' =
    (table.slot.get s).deleteSome order 500 (table.selects scope s)
  apart : ∀ other, other ≠ table → other.slot.get s' = other.slot.get s
  jobs : s'.jobs = s.jobs
  healthChecks : s'.db.healthChecks = s.db.healthChecks
  affected : n = table.slot.affected s s'
  checked : ∀ h ∈ s.db.healthChecks.rows, s.db.resources.has h.resourceId = true →
    s'.db.resources.has h.resourceId = true

structure Referenced (s s' : Store) : Prop where
  instances : ∀ c ∈ s'.db.containerInstances.rows, ∀ id, c.resourceId = some id →
    lostResource s s' id = false
  checks : ∀ h ∈ s'.db.healthChecks.rows, lostResource s s' h.resourceId = false
  resources : ∀ r ∈ s'.db.resources.rows, lostHost s s' r.hostId = false
  sessions : ∀ b ∈ s'.bootSessions.rows, lostHost s s' b.hostId = false

def cascade (s s' : Store) : Store :=
  { s' with db := { s'.db with
    gracePeriods := s'.db.gracePeriods.delete fun g => lostResource s s' g.resourceId } }

variable {s t : Store} {scope : Scope} {table : DeletionTable} {todo rest : List DeletionTable}
  {job : DeletionJobRow}

theorem checkReferences_ok_iff {s' s'' : Store} :
    checkReferences s s' = .ok s'' ↔ Referenced s s' ∧ s'' = cascade s s' := by
  have href : Referenced s s' ↔
      (s'.db.containerInstances.rows.any fun c => c.resourceId.any (lostResource s s')) = false ∧
      (s'.db.healthChecks.rows.any fun h => lostResource s s' h.resourceId) = false ∧
      (s'.db.resources.rows.any fun r => lostHost s s' r.hostId) = false ∧
      (s'.bootSessions.rows.any fun b => lostHost s s' b.hostId) = false := by
    simp only [List.any_eq_false, Option.any_eq_true, not_exists, not_and, Bool.not_eq_true]
    exact ⟨fun h => ⟨h.instances, h.checks, h.resources, h.sessions⟩,
      fun ⟨hi, hc, hr, hb⟩ => ⟨hi, hc, hr, hb⟩⟩
  rw [href, and_assoc, and_assoc, and_assoc]
  unfold checkReferences
  constructor
  · intro h
    split_ifs at h with hinstances hchecks hresources hsessions
    cases h
    exact ⟨eq_false_of_ne_true hinstances, eq_false_of_ne_true hchecks,
      eq_false_of_ne_true hresources, eq_false_of_ne_true hsessions, rfl⟩
  · rintro ⟨hinstances, hchecks, hresources, hsessions, rfl⟩
    rw [hinstances, hchecks, hresources, hsessions]
    rfl

theorem DeletionTable.slot_cascade (table : DeletionTable) (s s' : Store) :
    table.slot.get (cascade s s') = table.slot.get s' := by
  cases table with
  | history table | metadata table => cases table <;> rfl

theorem batch_ok {order : RowOrder} {s' : Store} {n : Nat}
    (h : batch order scope s table = .ok (s', n)) : Batch scope table s s' n := by
  cases table with
  | history table =>
    cases h
    have hframe := (DeletionTable.history table).slot_set s
      ((table.slot.get s).deleteSome order 500
        fun r => batchSelects scope s table (table.columns r))
    refine ⟨⟨order, table.slot.get_set ..⟩, ?_, hframe.1, hframe.2, rfl, ?_⟩
    · exact fun other hne => DeletionTable.apart hne.symm s _
    · intro h _ hhas
      have happart := DeletionTable.apart (a := .history table) (b := .metadata .resources)
        (by simp) s ((table.slot.get s).deleteSome order 500
          fun r => batchSelects scope s table (table.columns r))
      show (deleteBatch order scope table s).db.resources.has h.resourceId = true
      rw [show (deleteBatch order scope table s).db.resources = s.db.resources from happart]
      exact hhas
  | metadata table =>
    obtain ⟨s₁, h₁, h₂⟩ := bind_ok.mp h
    cases h₂
    obtain ⟨href, rfl⟩ := checkReferences_ok_iff.mp h₁
    have hframe := (DeletionTable.metadata table).slot_set s
      ((table.slot.get s).deleteSome order 500 (metadataSelects scope table))
    refine ⟨⟨order, ?_⟩, ?_, hframe.1, hframe.2, rfl, ?_⟩
    · rw [DeletionTable.slot_cascade]
      exact table.slot.get_set ..
    · intro other hne
      rw [DeletionTable.slot_cascade]
      exact DeletionTable.apart hne.symm s _
    · intro h hh hhas
      have hkept := href.checks h (hframe.2 ▸ hh)
      unfold lostResource at hkept
      rw [hhas, Bool.true_and] at hkept
      exact Bool.not_eq_eq_eq_not.mp hkept

section Batch

variable {scope : Scope} {table : DeletionTable} {s s' : Store} {n : Nat}

theorem Batch.sublist (h : Batch scope table s s' n) (other : DeletionTable) :
    (other.slot.rows s').Sublist (other.slot.rows s) := by
  unfold Slot.rows
  by_cases hother : other = table
  · subst hother
    obtain ⟨order, hleft⟩ := h.left
    rw [hleft]
    exact List.filter_sublist
  · rw [h.apart other hother]

theorem Batch.sub (h : Batch scope table s s' n) {other : DeletionTable} {r : other.slot.Row}
    (hr : r ∈ other.slot.rows s') : r ∈ other.slot.rows s := (h.sublist other).subset hr

theorem Batch.kept (h : Batch scope table s s' n) {other : DeletionTable} {r : other.slot.Row}
    (hr : r ∈ other.slot.rows s) (hsel : other = table → other.selects scope s r = false) :
    r ∈ other.slot.rows s' := by
  by_cases hother : other = table
  · subst hother
    obtain ⟨order, hleft⟩ := h.left
    unfold Slot.rows
    rw [hleft]
    exact Table.mem_deleteSome_of_not order 500 hr (hsel rfl)
  · unfold Slot.rows at hr ⊢
    rwa [h.apart other hother]

theorem Batch.done (h : Batch scope table s s' n) (hn : n = 0) :
    ∀ r ∈ table.slot.rows s', table.selects scope s r = false := by
  obtain ⟨order, hleft⟩ := h.left
  have haffected : table.slot.affected s
      (table.slot.deleteSome order 500 (table.selects scope s) s) = 0 := by
    rw [← hn, h.affected]
    unfold Slot.affected
    rw [Slot.rows_deleteSome, ← hleft]
    rfl
  have hcount := (Slot.affected_eq_zero_iff (by decide)).mp haffected
  exact fun r hr => Slot.count_eq_zero_iff.mp hcount r (h.sub hr)

theorem Batch.fewer (h : Batch scope table s s' n) (hn : n ≠ 0) :
    (table.slot.rows s').length < (table.slot.rows s).length := by
  have haffected := h.affected
  unfold Slot.affected at haffected
  omega

end Batch

/-! ## The tables of a job -/

def DeletionTable.isHistory : DeletionTable → Bool
  | .history _ => true
  | .metadata _ => false

/-- Once the loops are at a table of metadata, no table of history is left, and
a table that others refer to comes after them. -/
structure Ordered (kind : DeletionKind) (todo : List DeletionTable) : Prop where
  history : todo.head?.all DeletionTable.isHistory = false → ∀ t ∈ todo, t.isHistory = false
  resources : todo.head? = some (.metadata .resources) →
    .metadata .containerInstances ∈ jobTables kind ∧ .metadata .containerInstances ∉ todo
  hosts : todo.head? = some (.metadata .hosts) →
    (.metadata .resources ∈ jobTables kind ∧ .metadata .resources ∉ todo) ∧
      (.metadata .bootSessions ∈ jobTables kind ∧ .metadata .bootSessions ∉ todo)

theorem mem_jobTables_history {kind : DeletionKind} {table : HistoryTable} :
    .history table ∈ jobTables kind ↔ table ∈ deletionTables kind := by
  unfold jobTables
  simp

theorem mem_jobTables_metadata {kind : DeletionKind} {table : MetadataTable} :
    .metadata table ∈ jobTables kind ↔ table ∈ metadataDeletionTables kind := by
  unfold jobTables
  simp

theorem ordered_of_suffix {kind : DeletionKind} (h : todo <:+ jobTables kind) :
    Ordered kind todo := by
  rw [← List.mem_tails] at h
  constructor <;> revert todo <;> cases kind <;> decide

/-- What is left of a store when the tables `todo` are still to come. -/
structure Swept (s : Store) (scope : Scope) (todo : List DeletionTable) (t : Store) : Prop where
  suffix : todo <:+ jobTables scope.kind
  only : ∀ table : DeletionTable, ∀ r ∈ table.slot.rows t, r ∈ table.slot.rows s
  kept : ∀ table : DeletionTable, ∀ r ∈ table.slot.rows s,
    (table ∈ jobTables scope.kind → table.selects scope s r = false) → r ∈ table.slot.rows t
  gone : ∀ table ∈ jobTables scope.kind, table ∉ todo → ∀ r ∈ table.slot.rows t,
    table.selects scope s r = false
  instances : ∀ table ∈ todo, table.isHistory = true →
    t.db.containerInstances = s.db.containerInstances
  checks : t.db.healthChecks = s.db.healthChecks
  named : ∀ h ∈ s.db.healthChecks.rows, s.db.resources.has h.resourceId = true →
    t.db.resources.has h.resourceId = true

theorem swept_start (s : Store) (scope : Scope) : Swept s scope (jobTables scope.kind) s where
  suffix := List.suffix_refl _
  only := fun _ _ hr => hr
  kept := fun _ _ hr _ => hr
  gone := fun _ hin hnot => absurd hin hnot
  instances := fun _ _ _ => rfl
  checks := rfl
  named := fun _ _ hhas => hhas

theorem DeletionTable.slot_jobs (table : DeletionTable) (s : Store) (jobs : Jobs) :
    table.slot.get { s with jobs } = table.slot.get s := by
  cases table with
  | history table | metadata table => cases table <;> rfl

theorem Swept.ofJobs (h : Swept s scope todo t) (jobs : Jobs) :
    Swept s scope todo { t with jobs } := by
  have hrows : ∀ table : DeletionTable, table.slot.rows { t with jobs } = table.slot.rows t := by
    intro table
    unfold Slot.rows
    rw [table.slot_jobs]
  refine ⟨h.suffix, ?_, ?_, ?_, h.instances, h.checks, h.named⟩
  · simpa only [hrows] using h.only
  · simpa only [hrows] using h.kept
  · simpa only [hrows] using h.gone

theorem DeletionTable.selects_congr
    (h : table.isHistory = true → t.db.containerInstances = s.db.containerInstances) :
    table.selects scope t = table.selects scope s := by
  cases table with
  | history table =>
    funext r
    show batchSelects scope t table (table.columns r) = batchSelects scope s table (table.columns r)
    unfold batchSelects containerOf
    rw [h rfl]
  | metadata table => rfl

theorem Swept.batch {t' : Store} {n : Nat} (h : Swept s scope (table :: rest) t)
    (hb : Batch scope table t t' n) : Swept s scope (table :: rest) t' := by
  have hin : table ∈ jobTables scope.kind := h.suffix.subset List.mem_cons_self
  have hsel : table.selects scope t = table.selects scope s :=
    DeletionTable.selects_congr (h.instances table List.mem_cons_self)
  constructor
  case suffix => exact h.suffix
  case only => exact fun other r hr => h.only other r (hb.sub hr)
  case kept =>
    intro other r hr hsel'
    refine hb.kept (h.kept other r hr hsel') ?_
    rintro rfl
    rw [hsel]
    exact hsel' hin
  case gone => exact fun other hother hnot r hr => h.gone other hother hnot r (hb.sub hr)
  case instances =>
    intro other hother hhist
    -- with a table of history to come, this one is of history
    have hne : (.metadata .containerInstances : DeletionTable) ≠ table := by
      rintro rfl
      have hnone := (ordered_of_suffix h.suffix).history rfl other hother
      rw [hnone] at hhist
      cases hhist
    exact (hb.apart _ hne).trans (h.instances other hother hhist)
  case checks => exact hb.healthChecks.trans h.checks
  case named => exact fun c hc hhas => hb.checked c (h.checks ▸ hc) (h.named c hc hhas)

theorem Swept.next (h : Swept s scope (table :: rest) t)
    (hdone : ∀ r ∈ table.slot.rows t, table.selects scope s r = false) : Swept s scope rest t := by
  constructor
  case suffix => exact (List.suffix_cons _ _).trans h.suffix
  case only => exact h.only
  case kept => exact h.kept
  case gone =>
    intro other hother hnot r hr
    by_cases heq : other = table
    · subst heq
      exact hdone r hr
    · refine h.gone other hother ?_ r hr
      rw [List.mem_cons, not_or]
      exact ⟨heq, hnot⟩
  case instances => exact fun other hother => h.instances other (List.mem_cons_of_mem _ hother)
  case checks => exact h.checks
  case named => exact h.named

/-! ## When a batch is refused -/

def doomed (scope : Scope) (r : ResourceRow) : Bool :=
  .resources ∈ metadataDeletionTables scope.kind && metadataSelects scope .resources r

def Blocked (s : Store) (scope : Scope) : Prop :=
  ∃ h ∈ s.db.healthChecks.rows, ∃ r ∈ s.db.resources.rows,
    r.id = h.resourceId ∧ doomed scope r = true

theorem lostResource_iff {order : RowOrder} {id : String}
    (h : lostResource t (MetadataTable.resources.slot.deleteSome order 500
      (metadataSelects scope .resources) t) id = true) :
    ∃ r ∈ t.db.resources.rows, r.id = id ∧ metadataSelects scope .resources r = true := by
  unfold lostResource at h
  rw [Bool.and_eq_true] at h
  obtain ⟨hhas, hlost⟩ := h
  obtain ⟨r, hr, hid⟩ := Table.has_iff.mp hhas
  refine ⟨r, hr, hid, ?_⟩
  by_contra hsel
  have hkept : r ∈ MetadataTable.resources.slot.rows (MetadataTable.resources.slot.deleteSome
      order 500 (metadataSelects scope .resources) t) :=
    Slot.mem_deleteSome_of_not hr (Bool.not_eq_true _ ▸ hsel)
  have hstill : (MetadataTable.resources.slot.deleteSome order 500
      (metadataSelects scope .resources) t).db.resources.has id = true :=
    Table.has_iff.mpr ⟨r, hkept, hid⟩
  rw [hstill] at hlost
  cases hlost

theorem lostResource_of_eq {t' : Store} (h : t'.db.resources = t.db.resources) (id : String) :
    lostResource t t' id = false := by
  unfold lostResource
  rw [h, Bool.and_not_self]

theorem lostHost_of_eq {t' : Store} (h : t'.db.hosts = t.db.hosts) (id : String) :
    lostHost t t' id = false := by
  unfold lostHost
  rw [h, Bool.and_not_self]

theorem Swept.instances_gone (h : Swept s scope (.metadata .resources :: rest) t)
    {c : ContainerInstanceRow} (hc : c ∈ t.db.containerInstances.rows) {r : ResourceRow}
    (hsel : metadataSelects scope .resources r = true) : c.resourceId ≠ some r.id := by
  obtain ⟨hin, hnot⟩ := (ordered_of_suffix h.suffix).resources rfl
  have hgone : metadataSelects scope .containerInstances c = false := h.gone _ hin hnot c hc
  simp only [metadataSelects, Bool.or_eq_false_iff, decide_eq_false_iff_not, not_not] at hgone
  simp only [metadataSelects, Bool.or_eq_true, decide_eq_true_eq, Bool.and_eq_true] at hsel
  obtain ⟨hid, -⟩ := hsel.resolve_left fun hne => hne hgone.1
  rw [hid]
  exact hgone.2

/-- A batch is refused only because of a health check. -/
theorem blocked_of_error (h : Swept s scope (table :: rest) t) {order : RowOrder} {e : SqlError}
    (herr : Storage.batch order scope t table = .error e) : Blocked s scope := by
  have hin : table ∈ jobTables scope.kind := h.suffix.subset List.mem_cons_self
  cases table with
  | history table => cases herr
  | metadata table =>
    by_contra hblocked
    have href : Referenced t (table.slot.deleteSome order 500 (metadataSelects scope table) t) := by
      cases table with
      | containerInstances | bootSessions =>
        exact ⟨fun _ _ id _ => lostResource_of_eq rfl id, fun c _ => lostResource_of_eq rfl _,
          fun r _ => lostHost_of_eq rfl _, fun b _ => lostHost_of_eq rfl _⟩
      | resources =>
        refine ⟨?_, ?_, fun r _ => lostHost_of_eq rfl _, fun b _ => lostHost_of_eq rfl _⟩
        · intro c hc id hid
          by_contra hlost
          obtain ⟨r, -, hrid, hsel⟩ := lostResource_iff (Bool.not_eq_false _ ▸ hlost)
          exact h.instances_gone hc hsel (hrid ▸ hid)
        · intro c hc
          by_contra hlost
          obtain ⟨r, hr, hrid, hsel⟩ := lostResource_iff (Bool.not_eq_false _ ▸ hlost)
          refine hblocked ⟨c, h.checks ▸ hc, r, h.only (.metadata .resources) r hr, hrid, ?_⟩
          unfold doomed
          rw [hsel, Bool.and_true, decide_eq_true_eq]
          exact mem_jobTables_metadata.mp hin
      | hosts =>
        obtain ⟨⟨hrin, hrnot⟩, hbin, hbnot⟩ := (ordered_of_suffix h.suffix).hosts rfl
        -- all of history is deleted here: no resource and no boot session is left
        have hall : scope.kind = .all := by
          have hmem := mem_jobTables_metadata.mp hin
          revert hmem
          cases scope.kind <;> decide
        refine ⟨fun _ _ id _ => lostResource_of_eq rfl id, fun c _ => lostResource_of_eq rfl _,
          fun r hr => ?_, fun b hb => ?_⟩
        · have hgone : metadataSelects scope .resources r = false := h.gone _ hrin hrnot r hr
          simp [metadataSelects, hall] at hgone
        · have hgone : metadataSelects scope .bootSessions b = false := h.gone _ hbin hbnot b hb
          cases hgone
    have hok : Storage.batch order scope t (.metadata table) =
        .ok (cascade t (table.slot.deleteSome order 500 (metadataSelects scope table) t), _) :=
      bind_ok.mpr ⟨_, checkReferences_ok_iff.mpr ⟨href, rfl⟩, rfl⟩
    rw [hok] at herr
    cases herr

/-! ## One call of `RunDeletion` -/

/-- The worker at the start of `RunDeletion`. -/
def runDeletion (s : Store) (id : String) : Deleter := { store := s, phase := .picked id }

/-- The next statement of the call, until it returns. -/
def Deleter.turn (w : Deleter) (t : RowOrder × Time) : Deleter :=
  if w.phase = .idle then w else w.work t.1 t.2

def JobIs (id : String) (state : JobState) (s : Store) : Prop :=
  (∃ j ∈ s.jobs.table.rows, j.id = id) ∧ ∀ j ∈ s.jobs.table.rows, j.id = id → j.state = state

/-- What holds at each place of a call that nobody disturbs. -/
def Undisturbed (s : Store) (job : DeletionJobRow) (w : Deleter) : Prop :=
  match w.phase with
  | .picked id => id = job.id ∧ w.store = s
  | .loaded id scope => id = job.id ∧ scope = job.scope ∧ w.store = s
  | .checking id scope table rest _ | .sweeping id scope table rest _ =>
    id = job.id ∧ scope = job.scope ∧ JobIs job.id .running w.store ∧
      Swept s job.scope (table :: rest) w.store
  | .counting id scope table rest _ n =>
    id = job.id ∧ scope = job.scope ∧ JobIs job.id .running w.store ∧
      Swept s job.scope (table :: rest) w.store ∧
      (n = 0 → ∀ r ∈ table.slot.rows w.store, table.selects job.scope s r = false)
  | .finishing id _ => id = job.id ∧ JobIs job.id .running w.store ∧ Swept s job.scope [] w.store
  | .failing id _ => id = job.id ∧ JobIs job.id .running w.store ∧ Blocked s job.scope
  | .stopping _ => False
  | .idle => (JobIs job.id .completed w.store ∧ Swept s job.scope [] w.store) ∨
      (JobIs job.id .failed w.store ∧ Blocked s job.scope)

theorem jobIs_settle {id : String} (h : JobIs id .running s) {state : JobState}
    (f : DeletionJobRow → DeletionJobRow) (hf : ∀ j, (f j).id = j.id)
    (hstate : ∀ j, j.state = .running → (f j).state = state) :
    ∃ jobs, s.settle (s.updateJob id f hf) = { s with jobs } ∧ JobIs id state { s with jobs } := by
  obtain ⟨⟨j, hj, hid⟩, hall⟩ := h
  obtain ⟨jobs, hsettle, htable⟩ := @Store.settle_updateJob s id f hf
    fun j hj hid _ => by rw [hall j hj hid]; rfl
  refine ⟨jobs, hsettle, ?_, fun k hk hkid => ?_⟩
  · obtain ⟨j', hj', hid'⟩ := exists_of_update htable hj
    exact ⟨j', hj', hid'.trans hid⟩
  · replace hk : k ∈ jobs.table.rows := hk
    rw [htable] at hk
    rcases (Table.mem_update_key hf).mp hk with ⟨-, hne⟩ | ⟨j, hj, hjid, rfl⟩
    · exact absurd hkid hne
    · exact hstate j (hall j hj hjid)

theorem undisturbed_enter (hjob : JobIs job.id .running t) (h : Swept s job.scope todo t)
    (deleted : Nat) (batches : String → Nat) :
    Undisturbed s job ⟨t, .enter job.id job.scope deleted todo, batches⟩ := by
  cases todo with
  | nil => exact ⟨rfl, hjob, h⟩
  | cons table rest => exact ⟨rfl, rfl, hjob, h⟩

section Queued

variable (hjob : job ∈ s.jobs.table.rows) (hqueued : job.state = .queued)

include hjob hqueued

theorem jobIs_start (now : Time) :
    ∃ jobs, s.updateJob job.id (startJob now) (fun _ => rfl) = .ok jobs ∧
      JobIs job.id .running { s with jobs } := by
  have hsame : ∀ j ∈ s.jobs.table.rows, j.id = job.id → j.state.active = true := by
    intro j hj hid
    rw [Table.eq_of_key_eq hj hjob hid, hqueued]
    rfl
  obtain ⟨jobs, hok, htable⟩ := @Jobs.update_of_inactive s.jobs (fun j => j.id = job.id)
    (startJob now) (fun _ => rfl) fun j hj hid _ => hsame j hj (of_decide_eq_true hid)
  refine ⟨jobs, hok, exists_of_update htable hjob, fun j hj hid => ?_⟩
  exact state_of_update htable (fun _ => rfl) hj hid

theorem findQueued :
    s.jobs.table.rows.find? (fun j => j.id = job.id && j.state = .queued) = some job := by
  cases hfind : s.jobs.table.rows.find? fun j => j.id = job.id && j.state = .queued with
  | none =>
    have hnone := List.find?_eq_none.mp hfind job hjob
    simp [hqueued] at hnone
  | some j =>
    have hj := List.mem_of_find?_eq_some hfind
    have hp := List.find?_some hfind
    simp only [Bool.and_eq_true, decide_eq_true_eq] at hp
    rw [Table.eq_of_key_eq hj hjob hp.1]

theorem undisturbed_turn {w : Deleter} (h : Undisturbed s job w) (t : RowOrder × Time) :
    Undisturbed s job (w.turn t) := by
  obtain ⟨store, phase, batches⟩ := w
  unfold Deleter.turn
  split
  · exact h
  unfold Deleter.work
  cases phase with
  | idle => contradiction
  | picked id =>
    obtain ⟨rfl, rfl⟩ := h
    have hfind := findQueued hjob hqueued
    simp only [hfind]
    exact ⟨rfl, rfl, rfl⟩
  | loaded id scope =>
    obtain ⟨rfl, rfl, rfl⟩ := h
    obtain ⟨jobs, hok, hrunning⟩ := jobIs_start hjob hqueued t.2
    simp only [hok]
    exact undisturbed_enter hrunning ((swept_start store job.scope).ofJobs jobs) 0 batches
  | checking id scope table rest deleted =>
    obtain ⟨rfl, rfl, hrunning, hswept⟩ := h
    dsimp only at hrunning
    obtain ⟨⟨j, hj, hid⟩, hall⟩ := hrunning
    have hfind := Table.find?_eq_some_iff.mpr ⟨hj, hid⟩
    simp only [hfind, hall j hj hid]
    exact ⟨rfl, rfl, ⟨⟨j, hj, hid⟩, hall⟩, hswept⟩
  | stopping id => exact h.elim
  | sweeping id scope table rest deleted =>
    obtain ⟨rfl, rfl, hrunning, hswept⟩ := h
    dsimp only at hrunning hswept ⊢
    split
    · next store' n hbatch =>
      have hb := batch_ok hbatch
      have hswept' := hswept.batch hb
      refine ⟨rfl, rfl, ?_, hswept', fun hn r hr => ?_⟩
      · unfold JobIs
        rw [hb.jobs]
        exact hrunning
      · rw [← DeletionTable.selects_congr (hswept.instances table List.mem_cons_self)]
        exact hb.done hn r hr
    · next e hbatch => exact ⟨rfl, hrunning, blocked_of_error hswept hbatch⟩
  | failing id error =>
    obtain ⟨rfl, hrunning, hblocked⟩ := h
    obtain ⟨jobs, hsettle, hfailed⟩ :=
      jobIs_settle hrunning (failJob error t.2) (fun _ => rfl) fun _ _ => rfl
    dsimp only at hsettle hfailed ⊢
    rw [hsettle]
    exact .inr ⟨hfailed, hblocked⟩
  | counting id scope table rest deleted n =>
    obtain ⟨rfl, rfl, hrunning, hswept, hdone⟩ := h
    obtain ⟨jobs, hsettle, hrunning'⟩ :=
      jobIs_settle hrunning (noteProgress deleted table) (fun _ => rfl) fun _ h => h
    dsimp only at hsettle hrunning' hswept hdone ⊢
    rw [hsettle]
    have hswept' := hswept.ofJobs jobs
    split
    · next hn =>
      refine undisturbed_enter hrunning' (hswept'.next fun r hr => hdone hn r ?_) deleted batches
      unfold Slot.rows at hr ⊢
      rwa [table.slot_jobs] at hr
    · exact ⟨rfl, rfl, hrunning', hswept'⟩
  | finishing id deleted =>
    obtain ⟨rfl, hrunning, hswept⟩ := h
    obtain ⟨jobs, hsettle, hcompleted⟩ :=
      jobIs_settle hrunning (completeJob deleted t.2) (fun _ => rfl) fun _ _ => rfl
    dsimp only at hsettle hcompleted hswept ⊢
    rw [hsettle]
    exact .inl ⟨hcompleted, hswept.ofJobs jobs⟩

theorem undisturbed_run (turns : Nat → RowOrder × Time) (n : Nat) :
    Undisturbed s job (follow Deleter.turn turns (runDeletion s job.id) n) := by
  have hstart : Undisturbed s job (runDeletion s job.id) := ⟨rfl, rfl⟩
  exact follow_invariant (I := Undisturbed s job) (fun _ t h => undisturbed_turn hjob hqueued h t)
    turns hstart n

end Queued

/-! ## What a completed job leaves -/

def inTime (scope : Scope) (ts : Int) : Bool :=
  if scope.kind = .before then ts < scope.before else ts ≤ scope.fence

/-- The row is about the resource: it says so, or it is about one of the
resource's containers and names no resource itself. -/
def belongs (s : Store) (resource : String) (r : HistoryRow) : Bool :=
  r.resourceId = some resource || (r.resourceId = none && containerOf s resource r)

def InScope (s : Store) (scope : Scope) (r : HistoryRow) : Prop :=
  inTime scope r.ts = true ∧ (scope.kind.ofResource = true → belongs s scope.resource r = true)

/-- The tables of the job hold every row in its scope: there are no samples of
filesystems and network interfaces in time, and for a resource no event names
only one of its containers. -/
def Covered (s : Store) (scope : Scope) : Prop :=
  if scope.kind.ofResource then
    ∀ e ∈ s.db.events.rows, inTime scope e.ts = true → e.resourceId = none →
      containerOf s scope.resource (HistoryTable.events.columns e) = false
  else
    (∀ f ∈ s.db.filesystemSamples.rows, inTime scope f.ts = false) ∧
      ∀ i ∈ s.networkSamples.rows, inTime scope i.ts = false

theorem batchSelects_of_time (h : scope.kind.ofResource = false) (s : Store) (table : HistoryTable)
    (r : HistoryRow) : batchSelects scope s table r = inTime scope r.ts := by
  unfold batchSelects inTime
  rw [h, Bool.false_and, Bool.false_and, Bool.not_false, Bool.true_or, Bool.and_true]
  split
  · next hfalse => cases hfalse
  · split <;> rfl

theorem not_before_of_resource (h : scope.kind.ofResource = true) : scope.kind ≠ .before := by
  intro hkind
  rw [hkind] at h
  cases h

/-- A job that is about one resource deletes what names it, and the samples of
its containers. -/
theorem batchSelects_of_resource (h : scope.kind.ofResource = true) {table : HistoryTable}
    {r : HistoryRow} (hin : table ∈ deletionTables scope.kind) :
    batchSelects scope s table r = true ↔ inTime scope r.ts = true ∧
      if table = .instanceSamples then containerOf s scope.resource r = true
      else r.resourceId = some scope.resource := by
  have hscoped : ∀ kind : DeletionKind, kind.ofResource = true → ∀ t ∈ deletionTables kind,
      t ≠ .instanceSamples → resourceScopedTable t = true := by
    intro kind
    cases kind <;> decide
  unfold batchSelects inTime
  rw [if_neg (not_before_of_resource h), h, Bool.true_and, Bool.true_and]
  by_cases hinst : table = .instanceSamples
  · rw [if_pos (decide_eq_true hinst), if_pos hinst, Bool.and_eq_true]
  · rw [if_neg (by simpa using hinst), if_neg hinst, hscoped _ h table hin hinst]
    simp

/-- Every row in scope is selected, unless it is one that `Covered` excludes. -/
theorem selected_of_inScope (hcov : Covered s scope) {table : HistoryTable} {r : table.slot.Row}
    (hr : r ∈ table.slot.rows s) (h : InScope s scope (table.columns r)) :
    table ∈ deletionTables scope.kind ∧
      batchSelects scope s table (table.columns r) = true := by
  obtain ⟨htime, hbelongs⟩ := h
  unfold Covered at hcov
  cases hkind : scope.kind.ofResource with
  | false =>
    rw [hkind, if_neg Bool.false_ne_true] at hcov
    rw [batchSelects_of_time hkind]
    refine ⟨?_, htime⟩
    have hmem : ∀ kind : DeletionKind, kind.ofResource = false → ∀ t : HistoryTable,
        t ≠ .filesystemSamples → t ≠ .networkSamples → t ∈ deletionTables kind := by
      intro kind hkind t
      cases kind with
      | resource | archivedResource => cases hkind
      | before | all =>
        rcases t with _ | (_ | _ | _) | _ | _ | _ | (_ | _ | _) | _ | _ | _ <;> decide
    refine hmem _ hkind table ?_ ?_
    · rintro rfl
      exact Bool.false_ne_true ((hcov.1 r hr).symm.trans htime)
    · rintro rfl
      exact Bool.false_ne_true ((hcov.2 r hr).symm.trans htime)
  | true =>
    rw [hkind, if_pos rfl] at hcov
    have hb := hbelongs hkind
    unfold belongs at hb
    rw [Bool.or_eq_true, decide_eq_true_eq, Bool.and_eq_true, decide_eq_true_eq] at hb
    -- a row that names neither resource nor container belongs to none
    have hnone : ¬ (none = some scope.resource ∨ (none : Option String) = none ∧
        containerOf s scope.resource { ts := (table.columns r).ts } = true) := by
      rintro (hsome | ⟨-, hcontainer⟩)
      · cases hsome
      · obtain ⟨c, -, hc⟩ := List.any_eq_true.mp hcontainer
        simp at hc
    have hin : ∀ t ∈ deletionTables .resource, t ∈ deletionTables scope.kind := by
      revert hkind
      cases scope.kind <;> decide
    have hselected : table ∈ deletionTables .resource →
        (if table = .instanceSamples then containerOf s scope.resource (table.columns r) = true
          else (table.columns r).resourceId = some scope.resource) →
        table ∈ deletionTables scope.kind ∧
          batchSelects scope s table (table.columns r) = true := fun hmem hrow =>
      ⟨hin table hmem, (batchSelects_of_resource hkind (hin table hmem)).mpr ⟨htime, hrow⟩⟩
    cases table with
    | hostSamples | hostRollups | collectorStateEvents | filesystemSamples | networkSamples =>
      exact absurd hb hnone
    | instanceSamples =>
      refine hselected (by decide) ?_
      rw [if_pos rfl]
      exact (hb.resolve_left nofun).2
    | resourceSamples =>
      refine hselected (by decide) ?_
      rw [if_neg (by decide)]
      exact hb.resolve_right fun hcontainer => by cases hcontainer.1
    | resourceRollups tier =>
      refine hselected (by cases tier <;> decide) ?_
      rw [if_neg (by simp)]
      exact hb.resolve_right fun hcontainer => by cases hcontainer.1
    | events =>
      refine hselected (by decide) ?_
      rw [if_neg (by decide)]
      refine hb.resolve_right fun hcontainer => ?_
      exact Bool.false_ne_true ((hcov r hr htime hcontainer.1).symm.trans hcontainer.2)

/-- After a call that completed its job, nothing is left in the job's scope
exactly if the tables of the job held everything in it. -/
theorem deletion_complete_iff {s : Store} {job : DeletionJobRow} (hjob : job ∈ s.jobs.table.rows)
    (hqueued : job.state = .queued) (turns : Nat → RowOrder × Time) {n : Nat} {w : Deleter}
    (hw : follow Deleter.turn turns (runDeletion s job.id) n = w) (hidle : w.phase = .idle)
    (hdone : ∃ j ∈ w.store.jobs.table.rows, j.id = job.id ∧ j.state = .completed) :
    (∀ table : HistoryTable, ∀ r ∈ table.slot.rows w.store,
      ¬ InScope s job.scope (table.columns r)) ↔ Covered s job.scope := by
  have hend := undisturbed_run hjob hqueued turns n
  rw [hw] at hend
  unfold Undisturbed at hend
  rw [hidle] at hend
  obtain ⟨-, hswept⟩ : JobIs job.id .completed w.store ∧ Swept s job.scope [] w.store := by
    refine hend.resolve_right fun hfailed => ?_
    obtain ⟨j, hj, hid, hcompleted⟩ := hdone
    rw [hfailed.1.2 j hj hid] at hcompleted
    cases hcompleted
  constructor
  · intro hnone
    unfold Covered
    split
    · next hkind =>
      intro e he htime hres
      by_contra hcontainer
      rw [Bool.not_eq_false] at hcontainer
      -- the event names no resource, so no batch selects it
      have hkept : e ∈ HistoryTable.events.slot.rows w.store := by
        refine hswept.kept (.history .events) e he fun hin => ?_
        by_contra hsel
        have hsel' := (batchSelects_of_resource hkind (mem_jobTables_history.mp hin)).mp
          (Bool.not_eq_false _ ▸ hsel)
        rw [if_neg (by decide)] at hsel'
        exact Option.some_ne_none _ (hsel'.2.symm.trans hres)
      refine hnone .events e hkept ⟨htime, fun _ => ?_⟩
      unfold belongs
      rw [hcontainer, show (HistoryTable.events.columns e).resourceId = none from hres]
      rfl
    · next hkind =>
      have hother : ∀ table : HistoryTable, table ∉ deletionTables job.scope.kind →
          ∀ r ∈ table.slot.rows s, inTime job.scope (table.columns r).ts = false := by
        intro table hnot r hr
        by_contra htime
        have hkept := hswept.kept (.history table) r hr fun hin =>
          absurd (mem_jobTables_history.mp hin) hnot
        exact hnone table r hkept ⟨Bool.not_eq_false _ ▸ htime, fun h => absurd h hkind⟩
      have hkinds : ∀ kind, .filesystemSamples ∉ deletionTables kind ∧
          .networkSamples ∉ deletionTables kind := by
        intro kind
        cases kind <;> decide
      exact ⟨hother .filesystemSamples (hkinds _).1, hother .networkSamples (hkinds _).2⟩
  · intro hcov table r hr hscope
    obtain ⟨hin, hsel⟩ := selected_of_inScope hcov (hswept.only (.history table) r hr) hscope
    have hgone : batchSelects job.scope s table (table.columns r) = false :=
      hswept.gone (.history table) (mem_jobTables_history.mpr hin) List.not_mem_nil r hr
    rw [hgone] at hsel
    cases hsel

/-! ## One second of history -/

def everything : DeletionPreviewRow where
  idHash := "token"
  kind := .all
  resourceId := none
  beforeTs := none
  fenceTs := 1000
  confirmation := "RESET ALL HISTORY"
  expiresAt := 601000
  usedAt := none

def recorded : Database :=
  { Database.empty with
    events := ⟨[{ id := "1", ts := 500, type := "oom", severity := "critical"
                  summary := "Container ran out of memory", source := "docker"
                  createdAt := 500 }], by decide⟩ }

def rootSample : FilesystemSample where
  ts := 500
  hostId := "host"
  mountKey := "root"
  mountPoint := "/"
  fsType := "ext4"
  totalBytes := none
  usedBytes := none
  availableBytes := none
  usedPct := none
  inodesTotal := none
  inodesUsed := none
  inodesUsedPct := none

def previewed (db : Database) : Store :=
  { Store.new db with previews := ⟨[everything], by decide⟩ }

def confirmed (db : Database) : Store :=
  match createDeletion id second "token" "RESET ALL HISTORY" "admin" "del_1" (previewed db) with
  | .ok s => s
  | .error _ => previewed db

/-- A hundred statements of the job. -/
def worked (s : Store) : Deleter :=
  follow Deleter.turn (fun _ => (.stored, 2 * second)) (runDeletion s "del_1") 100

def resetJob (total : Nat) : DeletionJobRow := newJob everything "del_1" "admin" second total

/-- Everything is deleted, and nothing is left in scope. -/
theorem deletion_complete_recorded :
    (worked (confirmed recorded)).phase = .idle ∧
    ∀ table : HistoryTable, ∀ r ∈ table.slot.rows (worked (confirmed recorded)).store,
      ¬ InScope (confirmed recorded) (resetJob 1).scope (table.columns r) := by
  have hidle : (worked (confirmed recorded)).phase = .idle := by decide +kernel
  have hjob : resetJob 1 ∈ (confirmed recorded).jobs.table.rows := by decide +kernel
  have hdone : ∃ j ∈ (worked (confirmed recorded)).store.jobs.table.rows,
      j.id = (resetJob 1).id ∧ j.state = .completed := by decide +kernel
  have hw : follow Deleter.turn (fun _ => (.stored, 2 * second))
      (runDeletion (confirmed recorded) (resetJob 1).id) 100 = worked (confirmed recorded) := rfl
  refine ⟨hidle, (deletion_complete_iff hjob rfl _ hw hidle hdone).mpr ⟨?_, ?_⟩⟩
  · exact fun f hf => absurd hf List.not_mem_nil
  · exact fun i hi => absurd hi List.not_mem_nil

/-- The job completes, and the sample of the filesystem is still there. -/
theorem filesystem_sample_survives :
    (worked (confirmed { recorded with filesystemSamples := ⟨[rootSample], by decide⟩ })).phase
      = .idle ∧
    (worked (confirmed { recorded with
      filesystemSamples := ⟨[rootSample], by decide⟩ })).store.jobs.table.rows.map
        (fun j => (j.kind, j.fenceTs, j.state)) = [(.all, 1000, .completed)] ∧
    (worked (confirmed { recorded with
      filesystemSamples := ⟨[rootSample], by decide⟩ })).store.db.filesystemSamples.rows
        = [rootSample] := by
  decide +kernel

/-! ## A call returns -/

def workload (s : Store) (todo : List DeletionTable) : Nat :=
  (todo.map fun table => 3 * (table.slot.rows s).length + 4).sum

def Deleter.fuel (w : Deleter) : Nat :=
  match w.phase with
  | .idle => 0
  | .picked id =>
    match w.store.jobs.table.rows.find? fun j => j.id = id && j.state = .queued with
    | some j => workload w.store (jobTables j.kind) + 3
    | none => 1
  | .loaded _ scope => workload w.store (jobTables scope.kind) + 2
  | .checking _ _ table rest _ => workload w.store (table :: rest) + 1
  | .sweeping _ _ table rest _ => workload w.store (table :: rest)
  | .counting _ _ table rest _ n =>
    if n = 0 then workload w.store rest + 2 else workload w.store (table :: rest) + 2
  | .stopping _ | .failing _ _ | .finishing _ _ => 1

theorem workload_cons (s : Store) (table : DeletionTable) (rest : List DeletionTable) :
    workload s (table :: rest) = 3 * (table.slot.rows s).length + 4 + workload s rest := rfl

theorem workload_jobs (s : Store) (jobs : Jobs) (todo : List DeletionTable) :
    workload { s with jobs } todo = workload s todo := by
  unfold workload Slot.rows
  simp only [DeletionTable.slot_jobs]

theorem fuel_enter (s : Store) (id : String) (scope : Scope) (deleted : Nat)
    (todo : List DeletionTable) (batches : String → Nat) :
    (⟨s, .enter id scope deleted todo, batches⟩ : Deleter).fuel = workload s todo + 1 := by
  cases todo with
  | nil => rfl
  | cons table rest => rfl

theorem Store.settle_frame (s : Store) (result : Except SqlError Jobs) :
    ∃ jobs, s.settle result = { s with jobs } := by
  unfold Store.settle
  split
  · exact ⟨_, rfl⟩
  · exact ⟨s.jobs, rfl⟩

theorem Batch.workload_le {s' : Store} {n : Nat} (h : Batch scope table s s' n)
    (todo : List DeletionTable) : workload s' todo ≤ workload s todo := by
  induction todo with
  | nil => exact Nat.le_refl _
  | cons other rest ih =>
    have hle := (h.sublist other).length_le
    rw [workload_cons, workload_cons]
    omega

theorem fuel_pos {w : Deleter} (h : w.phase ≠ .idle) : 0 < w.fuel := by
  unfold Deleter.fuel
  split
  · contradiction
  · split <;> exact Nat.succ_pos _
  · exact Nat.succ_pos _
  · exact Nat.succ_pos _
  · rw [workload_cons]
    omega
  · split <;> exact Nat.succ_pos _
  all_goals exact Nat.one_pos

theorem Works.fuel {order : RowOrder} {now : Time} {w w' : Deleter} (h : Works order now w w')
    (hbusy : w.phase ≠ .idle) : w'.fuel < w.fuel := by
  cases h with
  | rest => exact fuel_pos hbusy
  | pick => contradiction
  | load hfind =>
    unfold Deleter.fuel
    dsimp only
    rw [hfind]
    exact Nat.lt_succ_self _
  | start =>
    rw [fuel_enter, workload_jobs]
    exact Nat.lt_succ_self _
  | halt =>
    show 1 < workload _ _ + 1
    rw [workload_cons]
    omega
  | goOn => exact Nat.lt_succ_self _
  | @sweep _ _ _ _ _ rest _ _ _ hbatch =>
    have hb := batch_ok hbatch
    have hrest := hb.workload_le rest
    unfold Deleter.fuel
    dsimp only
    rw [workload_cons, workload_cons]
    split
    · omega
    · next hn =>
      have hfewer := hb.fewer hn
      omega
  | fail =>
    show 1 < workload _ _
    rw [workload_cons]
    omega
  | @count store _ id _ table _ deleted n =>
    obtain ⟨jobs, hframe⟩ := store.settle_frame
      (store.updateJob id (noteProgress deleted table) (fun _ => rfl))
    rw [hframe]
    by_cases hn : n = 0
    · rw [if_pos hn, fuel_enter, workload_jobs]
      show _ < if n = 0 then _ else _
      rw [if_pos hn]
      exact Nat.lt_succ_self _
    · rw [if_neg hn]
      show workload _ _ + 1 < if n = 0 then _ else _
      rw [if_neg hn, workload_jobs]
      exact Nat.lt_succ_self _
  | stop | giveUp | finish => exact Nat.one_pos

theorem fuel_turn {w : Deleter} (h : w.phase ≠ .idle) (t : RowOrder × Time) :
    (w.turn t).fuel < w.fuel := by
  unfold Deleter.turn
  rw [if_neg h]
  exact (w.works t.1 t.2).fuel h

theorem deletion_returns (s : Store) (id : String) (turns : Nat → RowOrder × Time) :
    ∃ n, (follow Deleter.turn turns (runDeletion s id) n).phase = .idle := by
  obtain ⟨n, hidle, -⟩ := exists_halt (I := fun _ => True) (H := fun w => w.phase = .idle)
    Deleter.fuel (fun w t _ h => ⟨trivial, fuel_turn h t⟩) turns trivial
  exact ⟨n, hidle⟩

theorem createDeletion_ok {hash : String → String} {now : Time}
    {token confirmation actor id : String} {s' : Store}
    (h : createDeletion hash now token confirmation actor id s = .ok s') :
    s'.db = s.db ∧ ∃ job ∈ s'.jobs.table.rows, job.id = id ∧ job.state = .queued := by
  obtain ⟨p, -, -, -, jobs, rfl, -, hrows⟩ := createDeletion_cases h
  refine ⟨rfl, newJob p id actor now (deletionCount p.scope s), ?_, rfl, rfl⟩
  rw [hrows]
  exact List.mem_append_right _ List.mem_cons_self

/-- An accepted job completes exactly if no health check is on a resource that
it deletes. -/
theorem deletion_completes_iff {hash : String → String} {now : Time}
    {token confirmation actor id : String} {s s' : Store}
    (hcreate : createDeletion hash now token confirmation actor id s = .ok s')
    {job : DeletionJobRow} (hjob : job ∈ s'.jobs.table.rows) (hid : job.id = id)
    (turns : Nat → RowOrder × Time) :
    (∃ n, (follow Deleter.turn turns (runDeletion s' id) n).phase = .idle ∧
      ∃ j ∈ (follow Deleter.turn turns (runDeletion s' id) n).store.jobs.table.rows,
        j.id = id ∧ j.state = .completed) ↔
    ∀ h ∈ s.db.healthChecks.rows, ∀ r ∈ s.db.resources.rows, r.id = h.resourceId →
      doomed job.scope r = false := by
  obtain ⟨hdb, job', hjob', hid', hqueued⟩ := createDeletion_ok hcreate
  rw [← Table.eq_of_key_eq hjob hjob' (hid.trans hid'.symm)] at hqueued
  subst hid
  rw [← hdb]
  constructor
  · rintro ⟨n, hidle, j, hj, hjid, hcompleted⟩ h hh r hr hrid
    have hend := undisturbed_run hjob hqueued turns n
    unfold Undisturbed at hend
    rw [hidle] at hend
    rcases hend with ⟨-, hswept⟩ | ⟨hfailed, -⟩
    · by_contra hdoomed
      rw [Bool.not_eq_false] at hdoomed
      unfold doomed at hdoomed
      rw [Bool.and_eq_true, decide_eq_true_eq] at hdoomed
      -- the check keeps its resource, and the batches left no such resource
      have hhas := hswept.named h hh (Table.has_iff.mpr ⟨r, hr, hrid⟩)
      obtain ⟨r', hr', hrid'⟩ := Table.has_iff.mp hhas
      have hold := hswept.only (.metadata .resources) r' hr'
      have hgone := hswept.gone (.metadata .resources) (mem_jobTables_metadata.mpr hdoomed.1)
        List.not_mem_nil r' hr'
      rw [Table.eq_of_key_eq hold hr (hrid'.trans hrid.symm)] at hgone
      exact Bool.false_ne_true (hgone.symm.trans hdoomed.2)
    · rw [hfailed.2 j hj hjid] at hcompleted
      cases hcompleted
  · intro hfree
    obtain ⟨n, hidle⟩ := deletion_returns s' job.id turns
    have hend := undisturbed_run hjob hqueued turns n
    unfold Undisturbed at hend
    rw [hidle] at hend
    rcases hend with ⟨⟨⟨j, hj, hjid⟩, hall⟩, -⟩ | ⟨-, h, hh, r, hr, hrid, hdoomed⟩
    · exact ⟨n, hidle, j, hj, hjid, hall j hj hjid⟩
    · rw [hfree h hh r hr hrid] at hdoomed
      cases hdoomed

/-- The job of the recorded event completes. -/
theorem deletion_completes_recorded :
    ∃ n, (follow Deleter.turn (fun _ => (.stored, 2 * second))
        (runDeletion (confirmed recorded) "del_1") n).phase = .idle ∧
      ∃ j ∈ (follow Deleter.turn (fun _ => (.stored, 2 * second))
        (runDeletion (confirmed recorded) "del_1") n).store.jobs.table.rows,
        j.id = "del_1" ∧ j.state = .completed := by
  have hcreate : createDeletion id second "token" "RESET ALL HISTORY" "admin" "del_1"
      (previewed recorded) = .ok (confirmed recorded) := by rfl
  have hjob : resetJob 1 ∈ (confirmed recorded).jobs.table.rows := by decide +kernel
  refine (deletion_completes_iff hcreate hjob rfl _).mpr ?_
  exact fun h hh => absurd hh List.not_mem_nil

def checkedResource : Database :=
  { recorded with
    hosts := ⟨[{ id := "host", identityHash := "", name := "server" }], by decide⟩
    resources := ⟨[{ id := "res_web", hostId := "host", stableKey := "web", sourceKind := "docker"
                     name := "web", context := "", projectName := none, environmentName := none
                     category := "application", status := "running", archivedAt := none
                     firstSeenAt := 0, lastSeenAt := 0 }], by decide⟩
    healthChecks := ⟨[{ id := "chk_web", resourceId := "res_web", intervalSeconds := 60
                        required := true, enabled := true }], by decide⟩ }

/-- The deletion is accepted; it deletes the event and then fails at the resource. -/
theorem deletion_fails_at_check :
    (createDeletion id second "token" "RESET ALL HISTORY" "admin" "del_1"
      (previewed checkedResource)).isOk = true ∧
    (worked (confirmed checkedResource)).phase = .idle ∧
    (worked (confirmed checkedResource)).store.jobs.table.rows.map
      (fun j => (j.id, j.state, j.errorMessage))
      = [("del_1", .failed, some (.foreignKey "health_checks.resource_id"))] ∧
    (confirmed checkedResource).db.events.rows.length = 1 ∧
    (worked (confirmed checkedResource)).store.db.events.rows = [] := by
  decide +kernel

end Binnacle.Storage
