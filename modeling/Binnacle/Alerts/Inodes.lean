import Binnacle.Alerts.Lifecycle
import Binnacle.Alerts.Pass
import Binnacle.Collector.Filesystems

/-!
# Inodes from the collector to the alert

A collection observes how many inodes a filesystem has and how many are used. The rules for inodes
read the stored share, `inodes_used_pct`, and nothing on the way computes it: not the collector,
not the engine, not `WriteBatch`.

- `Shareless`: what every run keeps, neither an observation nor a sample has the share;
- `inodes_watched_iff`: the samples of a collection have their share exactly if no filesystem
  reports inodes, and passes never observe an inode rule.
-/

namespace Binnacle.Alerts

open Relational Runs Storage Metrics Notifications Collector.Host

structure DiskPipeline where
  engine : Engine
  m : Manager

inductive DiskStep where
  | collect (c : Collection)
  | write
  | pass (input : PassInput)
  | engine (e : Engine)
  | edit (db : Database)

def diskStep (sink : Option Repository) (p : DiskPipeline) : DiskStep → DiskPipeline
  | .collect c => { p with engine := c.publish p.engine }
  | .write =>
    match writeBatch p.m p.engine.persistenceBatch with
    | .ok m => { p with m }
    | .error _ => p
  | .pass input => { p with m := { p.m with db := (evaluatePass sink input p.m.db).state } }
  | .engine e => { p with engine := e }
  | .edit db => { p with m := { p.m with db } }

/-- Filesystems are published by collections and stored by `WriteBatch` only; samples may be
deleted. -/
def DiskStep.Enabled (p : DiskPipeline) : DiskStep → Prop
  | .engine e => e.filesystems = p.engine.filesystems
  | .edit db => ∀ f ∈ db.filesystemSamples.rows, f ∈ p.m.db.filesystemSamples.rows
  | _ => True

/-- Runs of the sampler, the writer and the evaluator over a fresh database. -/
def diskPipelines (sink : Option Repository) (maxEvents : Int) : System DiskPipeline DiskStep :=
  .ofStep { engine := newEngine maxEvents, m := { db := Database.empty } } (diskStep sink)
    DiskStep.Enabled

/-! ## The share is never there -/

structure Shareless (p : DiskPipeline) : Prop where
  observations : ∀ f ∈ p.engine.filesystems, f.inodesUsedPercent = none
  samples : ∀ f ∈ p.m.db.filesystemSamples.rows, f.inodesUsedPct = none

section Shareless

variable {sink : Option Repository} {p : DiskPipeline}

theorem filesystems_publish (c : Collection) (e : Engine) :
    (c.publish e).filesystems = e.filesystems ∨
      (c.publish e).filesystems = c.collectFilesystems := by
  unfold Collection.publish
  split
  · exact .inl rfl
  · exact .inr rfl

theorem Shareless.collect (h : Shareless p) (c : Collection) :
    Shareless { p with engine := c.publish p.engine } where
  observations f hf := by
    rcases filesystems_publish c p.engine with hold | hnew
    · exact h.observations f (hold ▸ hf)
    · exact inodesUsedPercent_collected (hnew ▸ hf)
  samples := h.samples

theorem Shareless.write (h : Shareless p) {m : Manager}
    (hok : writeBatch p.m p.engine.persistenceBatch = .ok m) : Shareless { p with m } where
  observations := h.observations
  samples f hf := by
    have hstored : f ∈ (Series.store p.m.db.filesystemSamples
        (p.engine.filesystems.map filesystemSample)).rows := writeBatch_filesystemSamples hok ▸ hf
    rcases Series.mem_store hstored with hold | hnew
    · exact h.samples f hold
    · obtain ⟨o, ho, rfl⟩ := List.mem_map.mp hnew
      exact h.observations o ho

theorem filesystemSamples_evaluatePass (sink : Option Repository) (input : PassInput)
    (db : Database) :
    (evaluatePass sink input db).state.filesystemSamples = db.filesystemSamples := by
  refine evaluatePass_keeps (I := fun s => s.filesystemSamples = db.filesystemSamples) rfl ?_ ?_ ?_
  · intro s s' o families hs _ hok
    rw [evaluate_frame hok]
    exact hs
  · exact fun s hs => hs
  · exact fun s gracePeriods hs => hs

theorem Shareless.step (h : Shareless p) {step : DiskStep} (hstep : step.Enabled p) :
    Shareless (diskStep sink p step) := by
  cases step with
  | collect c => exact h.collect c
  | write =>
    simp only [diskStep]
    cases hok : writeBatch p.m p.engine.persistenceBatch with
    | ok m => exact h.write hok
    | error e => exact h
  | pass input =>
    refine ⟨h.observations, ?_⟩
    show ∀ f ∈ (evaluatePass sink input p.m.db).state.filesystemSamples.rows, f.inodesUsedPct = none
    rw [filesystemSamples_evaluatePass]
    exact h.samples
  | engine e =>
    refine ⟨?_, h.samples⟩
    show ∀ f ∈ e.filesystems, f.inodesUsedPercent = none
    rw [show e.filesystems = p.engine.filesystems from hstep]
    exact h.observations
  | edit db => exact ⟨h.observations, fun f hf => h.samples f (hstep f hf)⟩

theorem shareless_of_reachable {maxEvents : Int} (hp : (diskPipelines sink maxEvents).Reachable p) :
    Shareless p := by
  refine hp.invariant Shareless ⟨?_, ?_⟩ ?_
  · intro f hf
    cases hf
  · intro f hf
    cases hf
  · rintro p step p' h ⟨hstep, rfl⟩
    exact h.step hstep

end Shareless

/-! ## Inode rules observe nothing -/

def inodeFamilies : List String := [familyInodeWarning, familyInodeCritical]

section Passes

variable {sink : Option Repository} {rules : List Rule} {input : PassInput}

theorem evaluateFilesystem_inode {f : FilesystemSample} {rule : Rule} (hf : f.inodesUsedPct = none)
    (hfamily : rule.family ∈ inodeFamilies) :
    evaluateFilesystem sink rules input f rule = .done := by
  have hvalue : filesystemValue rule f = none := by
    have hspace : ∀ family ∈ inodeFamilies,
        family ∉ [familyFilesystemWarning, familyFilesystemCritical] := by decide
    rw [filesystemValue, if_neg (hspace _ hfamily)]
    exact (if_pos hfamily).trans hf
  unfold evaluateFilesystem
  rw [hvalue]
  split
  · split <;> rfl
  · rfl

theorem inode_unobserved {db : Database}
    (h : ∀ f ∈ db.filesystemSamples.rows, f.inodesUsedPct = none) {x : Database × Observation}
    (hx : x ∈ (evaluatePass sink input db).tried) : x.2.rule.family ∉ inodeFamilies := by
  let I : Database → Prop := fun s => s.filesystemSamples = db.filesystemSamples
  let A : Database → Observation → Prop := fun _ o => o.rule.family ∉ inodeFamilies
  have hclosed := Session.closed_tries (ε := PassError) I A
  have hevaluate : ∀ o : Observation, o.rule.family ∉ inodeFamilies →
      Session.Tries I A (evaluateTx sink input.draws o) := by
    intro o ho
    refine Session.tries_transact (fun s s' hs hok => ?_) fun _ _ => ho
    have hframe := evaluate_frame (mapError_ok.mp hok)
    show s'.filesystemSamples = db.filesystemSamples
    rw [hframe]
    exact hs
  have hstage : ∀ families, (∀ family ∈ families, family ∉ inodeFamilies) →
      ObservationsHave sink (Alerts.rules input.order db) input (Session.Tries I A) families :=
    fun families hdisjoint o ho => hevaluate o (hdisjoint _ ho.under.1.1)
  -- of the filesystems stage only the rules for space make observations
  have hfilesystems : Session.Tries I A
      (evaluateFilesystems sink (Alerts.rules input.order db) input) := by
    refine Session.tries_read fun s hs => hclosed.forEach fun f hf =>
      hclosed.forEach fun rule hrule => ?_
    have hmem : f ∈ s.filesystemSamples.rows :=
      (List.mem_filter.mp (input.order.mem_arrange.mp hf)).1
    by_cases hfamily : rule.family ∈ inodeFamilies
    · rw [evaluateFilesystem_inode (h f (hs ▸ hmem)) hfamily]
      exact hclosed.done
    · refine (atMostOne_evaluateFilesystem sink _ input hrule f).closed hclosed
        (fun _ he => he.elim) ?_
      rintro o ⟨rfl, -⟩
      exact hevaluate o hfamily
  have hpass : Session.Tries I A
      (Session.andThen (untilChecks sink (Alerts.rules input.order db) input)
        (evaluateChecks sink (Alerts.rules input.order db) input)) := by
    refine hclosed.andThen ?_ (closed_checks hclosed (hstage _ (by decide)))
    refine hclosed.andThen (Session.tries_execute fun s s' hs hok => ?_) <|
      hclosed.andThen (closed_hostRules hclosed (hstage _ (by decide)) fun _ _ _ _ =>
        Session.tries_fail _) <|
      hclosed.andThen hfilesystems <|
      hclosed.andThen (closed_events hclosed (hstage _ (by decide))) <|
      hclosed.andThen (closed_persistence hclosed (hstage _ (by decide))) <|
      closed_deployments hclosed fun _ _ _ => Session.tries_execute fun s s' hs hok => ?_
    · cases hok
      exact hs
    · obtain ⟨gracePeriods, rfl⟩ := storeGracePeriod_ok hok
      exact hs
  exact (hpass db rfl).2 x hx

end Passes

/-! ## The claim on collections -/

def InodesStored (c : Collection) (db : Database) : Prop :=
  ∀ m ∈ c.mounts, ∀ fs, c.statfs m.target = some fs → fs.files ≠ 0 →
    ∃ row ∈ db.filesystemSamples.rows, row.mountKey = m.key ∧ row.ts = unixMilli c.now ∧
      row.inodesUsedPct =
        some ((fs.files - fs.ffree).toInt64.toInt * 100 / fs.files.toInt64.toInt)

/-- Inode exhaustion goes unnoticed. After any collection whose batch is written, the samples have
the share of the inodes exactly if no filesystem that was asked reports inodes, and no pass
observes a rule for inodes, whatever the filesystems reported. -/
theorem inodes_watched_iff {sink : Option Repository} {maxEvents : Int} {p : DiskPipeline}
    (hp : (diskPipelines sink maxEvents).Reachable p) (c : Collection) {m : Manager}
    (hwrite : writeBatch p.m (c.publish p.engine).persistenceBatch = .ok m) :
    (InodesStored c m.db ↔
        ∀ mount ∈ c.mounts, ∀ fs, c.statfs mount.target = some fs → fs.files = 0) ∧
      ∀ input, ∀ x ∈ (evaluatePass sink input m.db).tried, x.2.rule.family ∉ inodeFamilies := by
  have hshareless := ((shareless_of_reachable hp).collect c).write hwrite
  refine ⟨⟨fun hstored mount hmount fs hfs => ?_, fun hnone mount hmount fs hfs hfiles => ?_⟩,
    fun input x hx => inode_unobserved hshareless.samples hx⟩
  · by_contra hfiles
    obtain ⟨row, hrow, -, -, hshare⟩ := hstored mount hmount fs hfs hfiles
    rw [hshareless.samples row hrow] at hshare
    cases hshare
  · exact absurd (hnone mount hmount fs hfs) hfiles

/-! ### A filesystem without free inodes -/

def rootAt (seconds : Int) : Collection where
  now := seconds * second
  lines := some [["/dev/sda1", "/", "ext4", "rw"], ["proc", "/proc", "proc", "rw"]]
  dataDir := "/data"
  statfs target := if target = "/" then some ⟨100, 4096, 90, 90, 1000, 1⟩ else none

def rootStored : Manager :=
  { db := writeFilesystems Database.empty (rootAt 0).collectFilesystems }

/-- The share of the inodes of `/` is not stored. -/
theorem inodes_watched_iff_root : ¬ InodesStored (rootAt 0) rootStored.db := by
  have hinit : (diskPipelines (some {}) 128).Reachable
      { engine := newEngine 128, m := { db := Database.empty } } := System.Reachable.init
  have hwrite : writeBatch { db := Database.empty }
      ((rootAt 0).publish (newEngine 128)).persistenceBatch = .ok rootStored := rfl
  intro hstored
  have hnone := (inodes_watched_iff hinit (rootAt 0) hwrite).1.mp hstored
  exact absurd (hnone ⟨"/dev/sda1", "/", "ext4"⟩ (by decide) _ rfl) (by decide)

def rootSteps (seconds : Int) : List DiskStep :=
  [.collect (rootAt seconds), .write, .pass (passAt seconds)]

def rootRun : List DiskStep :=
  .edit seeded.db :: (rootSteps 0 ++ rootSteps 300 ++ rootSteps 600)

theorem reachable_rootRun : (diskPipelines (some {}) 128).Reachable
    (rootRun.foldl (diskStep (some {}))
      { engine := newEngine 128, m := { db := Database.empty } }) := by
  refine Along.reachable ?_ System.Reachable.init
  refine ⟨fun f hf => ?_, trivial, trivial, trivial, trivial, trivial, trivial, trivial, trivial,
    trivial, trivial⟩
  cases hf

/-- At each collection 99.9 % of the inodes are used, more than either rule allows. The samples
have the numbers, not their share, and no alert fires. -/
theorem inode_exhaustion_unnoticed :
    (diskPipelines (some {}) 128).Reachable (rootRun.foldl (diskStep (some {}))
      { engine := newEngine 128, m := { db := Database.empty } }) ∧
    ((rootRun.foldl (diskStep (some {}))
        { engine := newEngine 128, m := { db := Database.empty } }).m.db.filesystemSamples.rows.map
      fun f => (f.ts, f.inodesTotal, f.inodesUsed, f.inodesUsedPct)) =
        [(0, some 1000, some 999, none), (300000, some 1000, some 999, none),
          (600000, some 1000, some 999, none)] ∧
    (rootRun.foldl (diskStep (some {}))
      { engine := newEngine 128, m := { db := Database.empty } }).m.db.alerts.rows = [] :=
  ⟨reachable_rootRun, by decide +kernel, by decide +kernel⟩

end Binnacle.Alerts
