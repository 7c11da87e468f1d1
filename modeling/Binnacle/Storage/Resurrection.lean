import Binnacle.Metrics.Engine
import Binnacle.Storage.Cancellation
import Binnacle.Storage.Persistence

/-!
# Writes after a deletion

The engine, the persistence pipeline and the deletion worker over one store. A
batch carries the snapshot and the whole event ring of the engine from the moment
it was taken, so a write can come long after what it writes.

- `Later`: everything in flight is later than a fence;
- `cleared_step`: it stays so while nothing older is published;
- `deleted_history_stays_deleted`: then no write brings deleted history back;
- `deleted_history_returns`: a batch that waits in the queue does.
-/

namespace Binnacle.Storage

open Relational Runs Concurrent Metrics

/-! ## The system -/

variable {limit : Nat}

structure Recorder (limit : Nat) where
  engine : Engine
  pipeline : Persistence limit
  worker : Deleter
  prevCollectors : String → Option CollectorState := fun _ => none

/-- A first process over an empty database. -/
def Recorder.start (limit : Nat) : Recorder limit where
  engine := newEngine 128
  pipeline := .start limit
  worker := .init

/-- The manager that `WriteBatch` is called on. -/
def Recorder.manager (p : Recorder limit) : Manager :=
  { db := p.worker.store.db, prevCollectors := p.prevCollectors }

inductive RecorderMove where
  | publish (wallClock : Time) (snapshot : Snapshot) (events : List Event)
  | publishFilesystems (obs : List FilesystemObservation)
  | tick
  | produce (pause : Bool)
  | take
  /-- `WriteBatch`; a fault of the storage rolls it back. -/
  | write (fault : Option WriteError)
  | wake
  | abandon
  | cancel
  | deletion (m : DeletionMove)

/-- The writer calls `WriteBatch`. -/
def Recorder.write (p : Recorder limit) (fault : Option WriteError) : Recorder limit :=
  match p.pipeline.writer, fault with
  | .writing _ _, some err => { p with pipeline := p.pipeline.attempt (.error err) }
  | .writing batch _, none =>
    match writeBatch p.manager batch with
    | .ok m => { p with
        pipeline := p.pipeline.attempt (.ok ())
        worker := { p.worker with store := { p.worker.store with db := m.db } }
        prevCollectors := m.prevCollectors }
    | .error _ => { p with pipeline := p.pipeline.attempt (.error constraintFailed) }
  | _, _ => p

def Recorder.step (p : Recorder limit) : RecorderMove → Recorder limit
  | .publish wallClock snapshot events =>
    { p with engine := p.engine.publish wallClock snapshot events }
  | .publishFilesystems obs => { p with engine := p.engine.publishFilesystems obs }
  | .tick => { p with pipeline := p.pipeline.tick p.engine.persistenceBatch }
  | .produce pause => { p with pipeline := p.pipeline.produce pause }
  | .take => { p with pipeline := p.pipeline.take }
  | .write fault => p.write fault
  | .wake => { p with pipeline := p.pipeline.wake }
  | .abandon => { p with pipeline := p.pipeline.abandon }
  | .cancel => { p with pipeline := { p.pipeline with cancelled := true } }
  -- a new process has a new engine and a new pipeline
  | .deletion (.restart now) =>
    { engine := newEngine 128, pipeline := .start limit, worker := p.worker.step (.restart now) }
  | .deletion m => { p with worker := p.worker.step m }

def Recorder.jobs (p : Recorder limit) : List DeletionJobRow := p.worker.store.jobs.table.rows

def Recorder.db (p : Recorder limit) : Database := p.worker.store.db

/-! ## Everything in flight is later than a fence -/

def LaterBatch (fence : Int) (b : PersistenceBatch) : Prop :=
  (0 < b.snapshot.sequence → fence < unixMilli b.snapshot.at_) ∧
    ∀ e ∈ b.events, fence < unixMilli e.at_

instance (fence : Int) (b : PersistenceBatch) : Decidable (LaterBatch fence b) :=
  inferInstanceAs (Decidable (_ ∧ _))

def Recorder.Later (fence : Int) (p : Recorder limit) : Prop :=
  LaterBatch fence p.engine.persistenceBatch ∧ ∀ b ∈ p.pipeline.batches, LaterBatch fence b

instance (fence : Int) (p : Recorder limit) : Decidable (p.Later fence) :=
  inferInstanceAs (Decidable (_ ∧ _))

def DeletionJobRow.doneAll (j : DeletionJobRow) : Bool := j.kind = .all && j.state = .completed

/-- When a deletion of everything completes, all that is in flight is later than its
fence, and so is all that is published from then on. -/
def Sound (p : Recorder limit) : RecorderMove → Prop
  | .publish wallClock snapshot events => ∀ j ∈ p.jobs, j.doneAll = true →
      j.fenceTs < unixMilli (stamp 1 wallClock snapshot).at_ ∧
        ∀ e ∈ events, j.fenceTs < unixMilli e.at_
  | .deletion (.work _ _) =>
    match p.worker.phase with
    | .finishing id _ => ∀ j ∈ p.jobs, j.id = id → j.kind = .all → p.Later j.fenceTs
    | _ => True
  | _ => True

theorem laterBatch_publish {fence : Int} {engine : Engine} {wallClock : Time}
    {snapshot : Snapshot} {events : List Event} (h : LaterBatch fence engine.persistenceBatch)
    (hsnapshot : fence < unixMilli (stamp 1 wallClock snapshot).at_)
    (hevents : ∀ e ∈ events, fence < unixMilli e.at_) :
    LaterBatch fence (engine.publish wallClock snapshot events).persistenceBatch := by
  refine ⟨fun _ => hsnapshot, fun e he => ?_⟩
  replace he : e ∈ (engine.publish wallClock snapshot events).events := he
  rcases mem_publish_events he with hold | ⟨e', he', id, rfl⟩
  · exact h.2 e hold
  · exact hevents e' he'

def Cleared (p : Recorder limit) : Prop := ∀ j ∈ p.jobs, j.doneAll = true → p.Later j.fenceTs

variable {p : Recorder limit}

theorem Cleared.of_batches (h : Cleared p) {pipeline : Persistence limit}
    (hsub : ∀ b ∈ pipeline.batches, b ∈ p.pipeline.batches) : Cleared { p with pipeline } := by
  intro j hj hdone
  obtain ⟨hengine, hbatches⟩ := h j hj hdone
  exact ⟨hengine, fun b hb => hbatches b (hsub b hb)⟩

theorem write_jobs (p : Recorder limit) (fault : Option WriteError) :
    (p.write fault).jobs = p.jobs := by
  unfold Recorder.write
  split
  · rfl
  · split <;> rfl
  · rfl

theorem cleared_write (h : Cleared p) (fault : Option WriteError) : Cleared (p.write fault) := by
  have hpipeline : (p.write fault).engine = p.engine ∧
      ∀ b ∈ (p.write fault).pipeline.batches, b ∈ p.pipeline.batches := by
    unfold Recorder.write
    split
    · exact ⟨rfl, fun b hb => mem_batches_attempt hb⟩
    · split <;> exact ⟨rfl, fun b hb => mem_batches_attempt hb⟩
    · exact ⟨rfl, fun b hb => hb⟩
  intro j hj hdone
  rw [write_jobs] at hj
  obtain ⟨hengine, hbatches⟩ := h j hj hdone
  refine ⟨?_, fun b hb => hbatches b (hpipeline.2 b hb)⟩
  rw [hpipeline.1]
  exact hengine

/-- A job that is done after a step of the deletions was done before, or completes
in this step. -/
theorem doneAll_step {w : Deleter} {m : DeletionMove} {j' : DeletionJobRow}
    (hj' : j' ∈ (w.step m).store.jobs.table.rows) (hdone : j'.doneAll = true) :
    ∃ j ∈ w.store.jobs.table.rows, j.fenceTs = j'.fenceTs ∧
      (j.doneAll = true ∨ j.kind = .all ∧
        ∃ order now deleted, m = .work order now ∧ w.phase = .finishing j.id deleted) := by
  simp only [DeletionJobRow.doneAll, Bool.and_eq_true, decide_eq_true_eq] at hdone ⊢
  obtain ⟨hkind, hstate⟩ := hdone
  rcases stems_step hj' with ⟨j, hj, hid, hscope, htrans⟩ | ⟨hqueued, -⟩
  · have hfence : j.fenceTs = j'.fenceTs := congrArg Scope.fence hscope
    have hkind' : j.kind = .all := (congrArg Scope.kind hscope).trans hkind
    refine ⟨j, hj, hfence, ?_⟩
    rw [hstate, ← hid] at htrans
    generalize hold : j.state = state at htrans
    cases htrans with
    | same => exact .inl ⟨hkind', rfl⟩
    | complete order now deleted _ hm hphase =>
      exact .inr ⟨hkind', order, now, deleted, hm, hphase⟩
  · rw [hstate] at hqueued
    cases hqueued

theorem cleared_deletion (h : Cleared p) {m : DeletionMove} (hsound : Sound p (.deletion m)) :
    Cleared { p with worker := p.worker.step m } := by
  intro j' hj' hdone
  obtain ⟨j, hj, hfence, hold | ⟨hkind, order, now, deleted, rfl, hphase⟩⟩ := doneAll_step hj' hdone
  · rw [← hfence]
    exact h j hj hold
  · simp only [Sound, hphase] at hsound
    rw [← hfence]
    exact hsound j hj rfl hkind

theorem later_start (fence : Int) (worker : Deleter) :
    Recorder.Later fence
      { engine := newEngine 128, pipeline := Persistence.start limit, worker } := by
  refine ⟨⟨fun hpos => absurd hpos (Nat.lt_irrefl 0), fun e he => ?_⟩, fun b hb => ?_⟩
  · cases he
  · cases hb

theorem cleared_step (h : Cleared p) {m : RecorderMove} (hsound : Sound p m) :
    Cleared (p.step m) := by
  cases m with
  | publish wallClock snapshot events =>
    intro j hj hdone
    obtain ⟨hengine, hbatches⟩ := h j hj hdone
    obtain ⟨hsnapshot, hevents⟩ := hsound j hj hdone
    exact ⟨laterBatch_publish hengine hsnapshot hevents, hbatches⟩
  | publishFilesystems obs => exact fun j hj hdone => h j hj hdone
  | tick =>
    intro j hj hdone
    obtain ⟨hengine, hbatches⟩ := h j hj hdone
    refine ⟨hengine, fun b hb => ?_⟩
    rcases mem_batches_tick hb with hb | rfl
    · exact hbatches b hb
    · exact hengine
  | produce pause => exact h.of_batches fun b hb => mem_batches_produce hb
  | take => exact h.of_batches fun b hb => mem_batches_take hb
  | write fault => exact cleared_write h fault
  | wake => exact h.of_batches fun b hb => mem_batches_wake hb
  | abandon => exact h.of_batches fun b hb => mem_batches_abandon hb
  | cancel => exact h.of_batches fun b hb => hb
  | deletion m =>
    cases m with
    | restart now => exact fun j _ _ => later_start j.fenceTs _
    | _ => exact cleared_deletion h hsound

/-! ## What a write brings back -/

structure NoneReturns (fence : Int) (db db' : Database) : Prop where
  hostSamples : ∀ r ∈ db'.hostSamples.rows, r.ts ≤ fence → r ∈ db.hostSamples.rows
  resourceSamples : ∀ r ∈ db'.resourceSamples.rows, r.ts ≤ fence → r ∈ db.resourceSamples.rows
  events : ∀ r ∈ db'.events.rows, r.ts ≤ fence → r ∈ db.events.rows

theorem noneReturns_writeBatch {fence : Int} {m m' : Manager} {b : PersistenceBatch}
    (hlater : LaterBatch fence b) (h : writeBatch m b = .ok m') :
    NoneReturns fence m.db m'.db := by
  refine ⟨fun r hr hts => ?_, fun r hr hts => ?_, fun r hr hts => ?_⟩
  · rw [writeBatch_hostSamples h] at hr
    rcases Series.mem_store hr with hold | hnew
    · exact hold
    · unfold hostSamplesOf at hnew
      split at hnew
      · next hpos =>
        obtain rfl := List.mem_singleton.mp hnew
        exact absurd hts (Int.not_le.mpr (hlater.1 hpos))
      · cases hnew
  · rw [writeBatch_resourceSamples h] at hr
    rcases Series.mem_store hr with hold | hnew
    · exact hold
    · unfold resourceSamplesOf at hnew
      split at hnew
      · next hpos =>
        obtain ⟨resource, -, rfl⟩ := List.mem_map.mp hnew
        exact absurd hts (Int.not_le.mpr (hlater.1 hpos))
      · cases hnew
  · rw [writeBatch_events h] at hr
    rcases Table.mem_foldl_insertOrIgnore hr with hold | ⟨e, he, rfl⟩
    · exact hold
    · exact absurd hts (Int.not_le.mpr (hlater.2 e he))

theorem noneReturns_write {fence : Int} (hlater : p.Later fence) (fault : Option WriteError) :
    NoneReturns fence p.db (p.write fault).db := by
  have hsame : NoneReturns fence p.db p.db := ⟨fun _ h _ => h, fun _ h _ => h, fun _ h _ => h⟩
  unfold Recorder.write
  split
  · exact hsame
  · next batch attempt hwriting =>
    have hbatch : batch ∈ p.pipeline.batches := by
      rw [Persistence.mem_batches, hwriting]
      exact .inr (.inr List.mem_cons_self)
    split
    · next m hok => exact noneReturns_writeBatch (hlater.2 batch hbatch) hok
    · exact hsame
  · exact hsame

/-- In a run in which everything in flight is later than the fence of a deletion of
everything when it completes, and everything published from then on is, no write
brings back what the deletion covered. -/
theorem deleted_history_stays_deleted (limit : Nat) (moves : List RecorderMove)
    (hmoves : Along Recorder.step Sound (Recorder.start limit) moves) {pre : List RecorderMove}
    {fault : Option WriteError} (hpre : pre ++ [.write fault] <+: moves) {j : DeletionJobRow}
    (hj : j ∈ (pre.foldl Recorder.step (Recorder.start limit)).jobs) (hkind : j.kind = .all)
    (hstate : j.state = .completed) :
    NoneReturns j.fenceTs (pre.foldl Recorder.step (Recorder.start limit)).db
      ((pre ++ [RecorderMove.write fault]).foldl Recorder.step (Recorder.start limit)).db := by
  have hstart : Cleared (Recorder.start limit) := fun j hj _ => (by cases hj)
  have hcleared : Cleared (pre.foldl Recorder.step (Recorder.start limit)) :=
    (hmoves.at_snoc hpre).1.invariant (I := Cleared) (fun _ _ h hs => cleared_step h hs) hstart
  have hdone : j.doneAll = true := by simp [DeletionJobRow.doneAll, hkind, hstate]
  rw [List.foldl_append]
  exact noneReturns_write (hcleared j hj hdone) fault

/-! ## One event, deleted and written again -/

instance (p : Recorder limit) (m : RecorderMove) : Decidable (Sound p m) := by
  unfold Sound
  split
  · infer_instance
  · split <;> infer_instance
  · infer_instance

def oomAt (t : Time) : Event :=
  { at_ := t, type := "oom", message := "Container ran out of memory" }

def queuedAt (t : Time) : List RecorderMove :=
  [.publish t { at_ := t } [oomAt t], .tick, .produce false, .produce false]

def requestedAt (t : Time) : List RecorderMove :=
  [.deletion (.preview id (fun _ => "") .stored t "token" { kind := .all }),
    .deletion (.create id t "token" "RESET ALL HISTORY" "admin" "del_1")]

def deletedAt (t : Time) : List RecorderMove :=
  List.replicate 60 (.deletion (.work .stored t))

def writtenNext : List RecorderMove := [.take, .write none]

def recorderAfter (moves : List RecorderMove) : Recorder (queueCapacity 60) :=
  moves.foldl Recorder.step (Recorder.start (queueCapacity 60))

def Recorder.summary (p : Recorder limit) : List (Int × JobState) × List Int × List Int :=
  (p.jobs.map fun j => (j.fenceTs, j.state), p.db.hostSamples.rows.map (·.ts),
    p.db.events.rows.map (·.ts))

/-- A batch of second 2 waits while everything up to second 1 is deleted, and is
written then. -/
def lateBatch : List RecorderMove :=
  requestedAt second ++ queuedAt (2 * second) ++ deletedAt (3 * second) ++ [.take]

/-- It brings back nothing. -/
theorem deleted_history_stays_deleted_recorded :
    (recorderAfter lateBatch).summary = ([(1000, .completed)], [], []) ∧
    (recorderAfter (lateBatch ++ [.write none])).summary
      = ([(1000, .completed)], [2000], [2000]) ∧
    ∃ j ∈ (recorderAfter lateBatch).jobs, NoneReturns j.fenceTs (recorderAfter lateBatch).db
      (recorderAfter (lateBatch ++ [.write none])).db := by
  have hsound : Along Recorder.step Sound (Recorder.start (queueCapacity 60))
      (lateBatch ++ [.write none]) := by decide +kernel
  have hjob : ∃ j ∈ (recorderAfter lateBatch).jobs, j.kind = .all ∧ j.state = .completed := by
    decide +kernel
  refine ⟨by decide +kernel, by decide +kernel, ?_⟩
  obtain ⟨j, hj, hkind, hstate⟩ := hjob
  exact ⟨j, hj, deleted_history_stays_deleted (queueCapacity 60) _ hsound (List.prefix_refl _) hj
    hkind hstate⟩

/-- One batch of second 2 is stored and another one waits in the queue while
everything up to second 3 is deleted. -/
def earlyBatch : List RecorderMove :=
  queuedAt (2 * second) ++ writtenNext ++ [.tick, .produce false, .produce false]
    ++ requestedAt (3 * second) ++ deletedAt (4 * second)

/-- Then it is written, and the sample and the event are back. -/
theorem deleted_history_returns :
    (recorderAfter (queuedAt (2 * second) ++ writtenNext)).summary = ([], [2000], [2000]) ∧
    (recorderAfter earlyBatch).summary = ([(3000, .completed)], [], []) ∧
    (recorderAfter (earlyBatch ++ writtenNext)).summary
      = ([(3000, .completed)], [2000], [2000]) := by
  decide +kernel

end Binnacle.Storage
