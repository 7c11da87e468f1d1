import Binnacle.Metrics.Engine
import Binnacle.Storage.Budget
import Binnacle.Storage.History
import Binnacle.Storage.Persistence

/-!
# Gaps that persistence leaves

The engine, the pipeline and the budget over one database. A pause or a full
queue discards batches, which leaves a gap in the history; a pause also records
an event, but of a type that `classifyGap` does not look for.

- `gap_blamed_iff`: when a gap is blamed on persistence;
- `discarded_gap_missing`: a pause and an overflow, both labelled as missing data.
-/

namespace Binnacle.Storage

open Relational Runs Metrics

variable {limit : Nat}

structure Station (limit : Nat) where
  engine : Engine := newEngine 128
  pipeline : Persistence limit := .start limit
  m : Manager := { db := Database.empty }

inductive StationMove where
  | publish (wallClock : Time) (snapshot : Snapshot) (events : List Event)
  | publishFilesystems (obs : List FilesystemObservation)
  | tick
  | produce
  | take
  /-- `WriteBatch`; a fault of the storage rolls it back. -/
  | write (fault : Option WriteError)
  | wake
  | abandon
  | cancel
  | setBudgetTarget (bytes : Int)
  | setRetention (r : RetentionCutoffs)
  | evaluate (input : BudgetInput)

/-- The writer calls `WriteBatch`. -/
def Station.write (w : Station limit) (fault : Option WriteError) : Station limit :=
  match w.pipeline.writer, fault with
  | .writing _ _, some err => { w with pipeline := w.pipeline.attempt (.error err) }
  | .writing batch _, none =>
    match writeBatch w.m batch with
    | .ok m => { w with pipeline := w.pipeline.attempt (.ok ()), m }
    | .error _ => { w with pipeline := w.pipeline.attempt (.error constraintFailed) }
  | _, _ => w

def Station.step (w : Station limit) : StationMove → Station limit
  | .publish wallClock snapshot events =>
    { w with engine := w.engine.publish wallClock snapshot events }
  | .publishFilesystems obs => { w with engine := w.engine.publishFilesystems obs }
  | .tick => { w with pipeline := w.pipeline.tick w.engine.persistenceBatch }
  | .produce => { w with pipeline := w.pipeline.produce w.m.emergencyPause }
  | .take => { w with pipeline := w.pipeline.take }
  | .write fault => w.write fault
  | .wake => { w with pipeline := w.pipeline.wake }
  | .abandon => { w with pipeline := w.pipeline.abandon }
  | .cancel => { w with pipeline := { w.pipeline with cancelled := true } }
  | .setBudgetTarget bytes => { w with m := setBudgetTarget w.m bytes }
  | .setRetention r => { w with m := setRetention w.m r }
  | .evaluate input => { w with m := evaluateBudgetAndRetention w.m input }

/-! ## Events of the two types -/

/-- The move publishes no event of a type that `classifyGap` looks for. Neither the
sampler nor the host collector does. -/
def StationMove.Ordinary : StationMove → Prop
  | .publish _ _ events => ∀ e ∈ events, persistenceEvent e.type = false
  | _ => True

structure Silent (w : Station limit) : Prop where
  engine : ∀ e ∈ w.engine.events, persistenceEvent e.type = false
  batches : ∀ b ∈ w.pipeline.batches, ∀ e ∈ b.events, persistenceEvent e.type = false
  recorded : ∀ e ∈ w.m.db.events.rows, persistenceEvent e.type = false

variable {w : Station limit}

theorem Silent.of_batches (h : Silent w) {pipeline : Persistence limit}
    (hsub : ∀ b ∈ pipeline.batches, b ∈ w.pipeline.batches) : Silent { w with pipeline } :=
  ⟨h.engine, fun b hb => h.batches b (hsub b hb), h.recorded⟩

theorem silent_write (h : Silent w) (fault : Option WriteError) : Silent (w.write fault) := by
  unfold Station.write
  split
  · exact h.of_batches fun b hb => mem_batches_attempt hb
  · next batch attempt hwriting =>
    split
    · next m hok =>
      refine ⟨h.engine, fun b hb => h.batches b (mem_batches_attempt hb), fun row hrow => ?_⟩
      replace hrow : row ∈ m.db.events.rows := hrow
      rw [writeBatch_events hok] at hrow
      rcases Table.mem_foldl_insertOrIgnore hrow with hold | ⟨e, he, rfl⟩
      · exact h.recorded row hold
      · have hbatch : batch ∈ w.pipeline.batches := by
          rw [Persistence.mem_batches, hwriting]
          exact .inr (.inr List.mem_cons_self)
        exact h.batches batch hbatch e he
    · exact h.of_batches fun b hb => mem_batches_attempt hb
  · exact h

theorem silent_evaluate (h : Silent w) (input : BudgetInput) :
    Silent { w with m := evaluateBudgetAndRetention w.m input } := by
  refine ⟨h.engine, h.batches, fun row hrow => ?_⟩
  rcases mem_evaluateBudget_events hrow with hold | rfl
  · exact h.recorded row hold
  · rw [(pauseEventOf_spec w.m input).2]
    split
    · exact (by decide : persistenceEvent "persistence_emergency" = false)
    · exact (by decide : persistenceEvent "persistence_resumed" = false)

theorem silent_step (h : Silent w) {m : StationMove} (hm : m.Ordinary) : Silent (w.step m) := by
  cases m with
  | publish wallClock snapshot events =>
    refine ⟨fun e he => ?_, h.batches, h.recorded⟩
    rcases mem_publish_events he with hold | ⟨e', he', id, rfl⟩
    · exact h.engine e hold
    · exact hm e' he'
  | publishFilesystems obs => exact ⟨h.engine, h.batches, h.recorded⟩
  | tick =>
    refine ⟨h.engine, fun b hb => ?_, h.recorded⟩
    rcases mem_batches_tick hb with hb | rfl
    · exact h.batches b hb
    · exact h.engine
  | produce => exact h.of_batches fun b hb => mem_batches_produce hb
  | take => exact h.of_batches fun b hb => mem_batches_take hb
  | write fault => exact silent_write h fault
  | wake => exact h.of_batches fun b hb => mem_batches_wake hb
  | abandon => exact h.of_batches fun b hb => mem_batches_abandon hb
  | cancel => exact h.of_batches fun b hb => hb
  | setBudgetTarget bytes | setRetention r => exact ⟨h.engine, h.batches, h.recorded⟩
  | evaluate input => exact silent_evaluate h input

theorem silent_run {moves : List StationMove} (hmoves : ∀ m ∈ moves, m.Ordinary) :
    Silent (moves.foldl Station.step ({} : Station limit)) := by
  have halong : Along Station.step (fun _ m => m.Ordinary) ({} : Station limit) moves :=
    Along.of_mem (fun m hm _ => hmoves m hm) _
  refine halong.invariant (I := Silent) (fun _ _ h hm => silent_step h hm) ⟨?_, ?_, ?_⟩
  · exact fun e he => (by cases he)
  · exact fun b hb => (by cases hb)
  · exact fun e he => (by cases he)

/-- After every run a gap is blamed on persistence exactly if an event of one of the two
types lies in it; without a publication of such an event no gap is. -/
theorem gap_blamed_iff (limit : Nat) (moves : List StationMove) {order : RowOrder}
    {q : MetricQuery} {r : MetricsResponse}
    (hquery : queryMetrics order (moves.foldl Station.step ({} : Station limit)).m.db q = .ok r)
    {gap : Gap} (hgap : gap ∈ r.gaps) :
    (gap.reason = .persistenceFailure ↔
      Evidence (moves.foldl Station.step ({} : Station limit)).m.db gap.from_ gap.to_) ∧
    ((∀ m ∈ moves, m.Ordinary) → gap.reason ≠ .persistenceFailure) := by
  have hlabel := gap_labelled hquery hgap
  refine ⟨hlabel, fun hmoves hreason => ?_⟩
  obtain ⟨e, he, htype, -⟩ := hlabel.mp hreason
  rw [(silent_run hmoves).recorded e he] at htype
  cases htype

/-! ## A pause and an overflow -/

def sampledAt (t : Time) : List StationMove :=
  [.publish t { at_ := t, host := { cpuPercent := some 10 }
                collectors := [("host", { name := "host", state := .healthy })] } [], .tick]

def storedAt (t : Time) : List StationMove :=
  sampledAt t ++ [.produce, .produce, .take, .write none]

/-- The batch is discarded because of a pause. -/
def pausedAt (t : Time) : List StationMove := sampledAt t ++ [.produce, .produce]

def displacedAt (t : Time) : List StationMove :=
  sampledAt t ++ [.produce, .produce, .produce, .produce, .produce]

def usedAt (used : Int) (t : Time) : StationMove :=
  .evaluate { used, runRetention := false, eventAt := t, now := t, order := .stored }

def pausedRun : List StationMove :=
  .setBudgetTarget 1000 :: storedAt (10 * second) ++ [usedAt 990 (15 * second)]
    ++ pausedAt (20 * second) ++ pausedAt (30 * second) ++ pausedAt (40 * second)
    ++ pausedAt (50 * second) ++ [usedAt 100 (55 * second)] ++ storedAt (60 * second)

def overflowRun : List StationMove :=
  storedAt (10 * second) ++ sampledAt (20 * second) ++ [.produce, .produce]
    ++ displacedAt (30 * second) ++ displacedAt (40 * second) ++ displacedAt (50 * second)
    ++ [.take, .write none]

def firstMinute : MetricQuery where
  scope := "host"
  metrics := [.cpu]
  from_ := 10 * second
  to_ := 70 * second

def gapsAfter (limit : Nat) (moves : List StationMove) : Option (List Gap) :=
  match queryMetrics .stored (moves.foldl Station.step ({} : Station limit)).m.db firstMinute with
  | .ok r => some r.gaps
  | .error _ => none

def reportedRun : List StationMove :=
  storedAt (10 * second)
    ++ [.publish (30 * second) {} [{ at_ := 30 * second, type := "persistence_gap" }]]
    ++ storedAt (60 * second)

/-- The gap is blamed on persistence, because of the event. -/
theorem gap_blamed_reported :
    gapsAfter 60 reportedRun
      = some [{ from_ := 20 * second, to_ := 60 * second, reason := .persistenceFailure }] ∧
    Evidence (reportedRun.foldl Station.step ({} : Station 60)).m.db (20 * second)
      (60 * second) := by
  have hgaps : gapsAfter 60 reportedRun
      = some [{ from_ := 20 * second, to_ := 60 * second, reason := .persistenceFailure }] := by
    decide +kernel
  refine ⟨hgaps, ?_⟩
  unfold gapsAfter at hgaps
  split at hgaps
  · next r hquery =>
    have hmem : { from_ := 20 * second, to_ := 60 * second, reason := .persistenceFailure }
        ∈ r.gaps := by
      rw [Option.some.inj hgaps]
      exact List.mem_singleton_self _
    exact (gap_blamed_iff 60 reportedRun hquery hmem).1.mp rfl
  · cases hgaps

/-- Four batches are discarded by a pause, and three by a queue that is full. Collection
is healthy throughout, and the gap is labelled as missing data. -/
theorem discarded_gap_missing :
    (pausedRun.foldl Station.step ({} : Station 60)).pipeline.dropped = 4 ∧
    (pausedRun.foldl Station.step ({} : Station 60)).m.db.events.rows.map (fun e => (e.ts, e.type))
      = [(15000, "persistence_emergency")] ∧
    gapsAfter 60 pausedRun
      = some [{ from_ := 20 * second, to_ := 60 * second, reason := .missing }] ∧
    (overflowRun.foldl Station.step ({} : Station 1)).pipeline.dropped = 3 ∧
    gapsAfter 1 overflowRun
      = some [{ from_ := 20 * second, to_ := 50 * second, reason := .missing }] := by
  decide +kernel

end Binnacle.Storage
