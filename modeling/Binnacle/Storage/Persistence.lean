import Binnacle.Channel
import Binnacle.Metrics.Types
import Binnacle.Runs
import Mathlib.Data.List.Infix

/-!
# The persistence pipeline

`Persistence.Start` runs a producer, which takes a batch from the engine at every
tick, and a writer, with a bounded channel between them. A step is one operation
on the channel, a counter or the store, so that the two interleave as the
goroutines do. `produced` and `written` are not in the source: they count what
the counters of the source are compared with.

- `unaccounted_step`: every step but one that gives up a write keeps the books;
- `batches_accounted_iff`: the books balance exactly outside of `enqueue` and
  while no write was given up.
-/

namespace Binnacle.Storage

open Concurrent Runs Metrics

/-! ## Retry -/

/-- The error of a write: its text as `strings.ToLower` gives it, and whether it is
`context.DeadlineExceeded`. -/
structure WriteError where
  lower : String
  deadlineExceeded : Bool := false

/-- `strings.Contains`. -/
def contains (s sub : String) : Bool := decide (sub.toList <:+: s.toList)

/-- `Transient` (retry.go:29-32). -/
def transient (err : WriteError) : Bool :=
  contains err.lower "busy" || contains err.lower "locked" || err.deadlineExceeded

/-- The error of a violated constraint, which is not transient. -/
def constraintFailed : WriteError := { lower := "constraint failed" }

/-- The attempts of `Retry` (retry.go:13). -/
def maxAttempts : Nat := 5

/-! ## The pipeline -/

/-- The capacity of the queue (persistence.go:36-38). -/
def queueCapacity (queueLimit : Int) : Nat := if queueLimit < 1 then 60 else queueLimit.toNat

/-- Where the producer is in `enqueue`, with the batches it holds. -/
inductive Producer where
  /-- Waiting for the ticker. -/
  | resting
  /-- About to ask for an emergency pause (persistence.go:47). -/
  | captured (batch : PersistenceBatch)
  /-- About to count the batch that a pause drops (persistence.go:49). -/
  | pausing (batch : PersistenceBatch)
  /-- About to send (persistence.go:54). -/
  | offering (batch : PersistenceBatch)
  /-- The queue was full; about to drop its oldest batch (persistence.go:59). -/
  | evicting (batch : PersistenceBatch)
  /-- About to count the oldest batch (persistence.go:60). -/
  | evicted (oldest batch : PersistenceBatch)
  /-- About to send again (persistence.go:65). -/
  | reoffering (batch : PersistenceBatch)
  /-- About to count the newest batch (persistence.go:68). -/
  | refusing (batch : PersistenceBatch)

inductive Writer where
  /-- Waiting for a batch (persistence.go:93). -/
  | waiting
  /-- About to call `WriteBatch`, for the `attempt`-th time from 0 (retry.go:14). -/
  | writing (batch : PersistenceBatch) (attempt : Nat)
  /-- Waiting for the next attempt (retry.go:21). -/
  | backingOff (batch : PersistenceBatch) (attempt : Nat)

/-- `Persistence` (persistence.go:15-26) with its two goroutines. -/
structure Persistence (limit : Nat) where
  queue : Channel PersistenceBatch limit
  dropped : Nat := 0
  queueDepth : Nat := 0
  paused : Bool := false
  producer : Producer := .resting
  writer : Writer := .waiting
  cancelled : Bool := false
  produced : Nat := 0
  written : Nat := 0

variable {limit : Nat} {p : Persistence limit} {b : PersistenceBatch}

/-- `NewPersistence` and `Start`. -/
def Persistence.start (limit : Nat) : Persistence limit where
  queue := .make

/-- The ticker fires: `enqueue` takes a batch, and is done with one that was never
published (persistence.go:43-46). -/
def Persistence.tick (p : Persistence limit) (batch : PersistenceBatch) : Persistence limit :=
  match p.producer with
  | .resting =>
    if batch.snapshot.sequence = 0 then p
    else { p with producer := .captured batch, produced := p.produced + 1 }
  | _ => p

/-- The next operation of `enqueue` (persistence.go:47-70); `pause` is the answer of
`EmergencyPause`. -/
def Persistence.produce (p : Persistence limit) (pause : Bool) : Persistence limit :=
  match p.producer with
  | .resting => p
  | .captured batch =>
    if pause then { p with paused := true, producer := .pausing batch }
    else { p with paused := false, producer := .offering batch }
  | .pausing _ => { p with dropped := p.dropped + 1, producer := .resting }
  | .offering batch =>
    match p.queue.trySend batch with
    | some queue => { p with queue, queueDepth := queue.buffer.length, producer := .resting }
    | none => { p with producer := .evicting batch }
  | .evicting batch =>
    match p.queue.receive with
    | some (oldest, queue) => { p with queue, producer := .evicted oldest batch }
    | none => { p with queueDepth := p.queue.buffer.length, producer := .reoffering batch }
  | .evicted _ batch =>
    { p with
      dropped := p.dropped + 1
      queueDepth := p.queue.buffer.length
      producer := .reoffering batch }
  | .reoffering batch =>
    match p.queue.trySend batch with
    | some queue => { p with queue, queueDepth := queue.buffer.length, producer := .resting }
    | none => { p with producer := .refusing batch }
  | .refusing _ => { p with dropped := p.dropped + 1, producer := .resting }

/-- The writer takes a batch (persistence.go:93-94). -/
def Persistence.take (p : Persistence limit) : Persistence limit :=
  match p.writer, p.queue.receive with
  | .waiting, some (batch, queue) =>
    { p with queue, queueDepth := queue.buffer.length, writer := .writing batch 0 }
  | _, _ => p

/-- `WriteBatch` returns (retry.go:14-19); its error is discarded (persistence.go:96). -/
def Persistence.attempt (p : Persistence limit) (result : Except WriteError Unit) :
    Persistence limit :=
  match p.writer with
  | .writing batch attempt =>
    match result with
    | .ok () => { p with writer := .waiting, written := p.written + 1 }
    | .error err =>
      if transient err then { p with writer := .backingOff batch attempt }
      else { p with writer := .waiting }
  | _ => p

/-- The delay is over (retry.go:22); after the last attempt `Retry` returns its error. -/
def Persistence.wake (p : Persistence limit) : Persistence limit :=
  match p.writer with
  | .backingOff batch attempt =>
    if attempt + 1 < maxAttempts then { p with writer := .writing batch (attempt + 1) }
    else { p with writer := .waiting }
  | _ => p

/-- The context is cancelled while `Retry` waits (retry.go:23-24). -/
def Persistence.abandon (p : Persistence limit) : Persistence limit :=
  match p.writer with
  | .backingOff _ _ => if p.cancelled then { p with writer := .waiting } else p
  | _ => p

/-- What can happen next. -/
inductive PersistenceMove where
  | tick (batch : PersistenceBatch)
  | produce (pause : Bool)
  | take
  | attempt (result : Except WriteError Unit)
  | wake
  | abandon
  /-- `Stop` cancels the context. -/
  | cancel

def Persistence.step (p : Persistence limit) : PersistenceMove → Persistence limit
  | .tick batch => p.tick batch
  | .produce pause => p.produce pause
  | .take => p.take
  | .attempt result => p.attempt result
  | .wake => p.wake
  | .abandon => p.abandon
  | .cancel => { p with cancelled := true }

/-! ## Where a batch is -/

def Producer.held : Producer → List PersistenceBatch
  | .resting => []
  | .captured batch | .pausing batch | .offering batch | .evicting batch | .reoffering batch
  | .refusing batch => [batch]
  | .evicted oldest batch => [oldest, batch]

def Writer.held : Writer → List PersistenceBatch
  | .waiting => []
  | .writing batch _ | .backingOff batch _ => [batch]

def Persistence.Accounted (p : Persistence limit) : Prop :=
  p.produced = p.written + p.queue.buffer.length + p.writer.held.length + p.dropped

instance (p : Persistence limit) : Decidable p.Accounted :=
  inferInstanceAs (Decidable (p.produced = _))

/-- The step lets go of a batch that was not written: `WriteBatch` failed for a
reason that does not pass, or at the last attempt, or the process stops. -/
def GivesUp (p : Persistence limit) : PersistenceMove → Prop
  | .attempt (.error err) => (∃ batch attempt, p.writer = .writing batch attempt) ∧
      transient err = false
  | .wake => ∃ batch attempt, p.writer = .backingOff batch attempt ∧ maxAttempts ≤ attempt + 1
  | .abandon => (∃ batch attempt, p.writer = .backingOff batch attempt) ∧ p.cancelled = true
  | _ => False

/-- The batches of which the books know nothing. -/
def Persistence.unaccounted (p : Persistence limit) : Int :=
  p.produced - p.written - p.queue.buffer.length - p.writer.held.length - p.dropped
    - p.producer.held.length

theorem unaccounted_tick (p : Persistence limit) (batch : PersistenceBatch) :
    (p.tick batch).unaccounted = p.unaccounted := by
  unfold Persistence.tick
  split
  · next hrest =>
    split
    · rfl
    · simp only [Persistence.unaccounted, hrest, Producer.held, List.length_cons, List.length_nil]
      push_cast
      omega
  · rfl

theorem unaccounted_produce (p : Persistence limit) (pause : Bool) :
    (p.produce pause).unaccounted = p.unaccounted := by
  obtain ⟨queue, dropped, queueDepth, paused, producer, writer, cancelled, produced, written⟩ := p
  unfold Persistence.produce
  cases producer with
  | resting => rfl
  | captured batch =>
    dsimp only
    split <;> rfl
  | offering batch | reoffering batch =>
    dsimp only
    split
    · next queue' hsend =>
      have hbuffer := (Channel.trySend_eq_some hsend).2.1
      simp only [Persistence.unaccounted, Producer.held, hbuffer, List.length_append,
        List.length_cons, List.length_nil]
      omega
    · rfl
  | evicting batch =>
    dsimp only
    split
    · next oldest queue' hreceive =>
      have hbuffer := (Channel.receive_eq_some hreceive).1
      simp only [Persistence.unaccounted, Producer.held, hbuffer, List.length_cons,
        List.length_nil]
      omega
    · rfl
  | pausing batch | refusing batch | evicted oldest batch =>
    simp only [Persistence.unaccounted, Producer.held, List.length_cons, List.length_nil]
    omega

theorem unaccounted_take (p : Persistence limit) : p.take.unaccounted = p.unaccounted := by
  unfold Persistence.take
  split
  · next batch queue hwaiting hreceive =>
    have hbuffer := (Channel.receive_eq_some hreceive).1
    simp only [Persistence.unaccounted, hwaiting, Writer.held, hbuffer, List.length_cons,
      List.length_nil]
    omega
  · rfl

theorem unaccounted_attempt (p : Persistence limit) (result : Except WriteError Unit) :
    (¬ GivesUp p (.attempt result) → (p.attempt result).unaccounted = p.unaccounted) ∧
      (GivesUp p (.attempt result) → (p.attempt result).unaccounted = p.unaccounted + 1) := by
  obtain ⟨queue, dropped, queueDepth, paused, producer, writer, cancelled, produced, written⟩ := p
  unfold Persistence.attempt GivesUp
  cases writer with
  | waiting | backingOff batch attempt => cases result <;> simp
  | writing batch attempt =>
    cases result with
    | ok u =>
      refine ⟨fun _ => ?_, fun h => h.elim⟩
      simp only [Persistence.unaccounted, Writer.held, List.length_cons, List.length_nil]
      push_cast
      omega
    | error err =>
      cases htransient : transient err with
      | true =>
        refine ⟨fun _ => ?_, fun h => absurd (htransient.symm.trans h.2) (by decide)⟩
        simp [htransient, Persistence.unaccounted, Writer.held]
      | false =>
        refine ⟨fun h => absurd ⟨⟨batch, attempt, rfl⟩, htransient⟩ h, fun _ => ?_⟩
        simp only [htransient, Persistence.unaccounted, Writer.held, List.length_cons,
          List.length_nil, Bool.false_eq_true, if_false]
        omega

theorem unaccounted_wake (p : Persistence limit) :
    (¬ GivesUp p .wake → p.wake.unaccounted = p.unaccounted) ∧
      (GivesUp p .wake → p.wake.unaccounted = p.unaccounted + 1) := by
  obtain ⟨queue, dropped, queueDepth, paused, producer, writer, cancelled, produced, written⟩ := p
  unfold Persistence.wake GivesUp
  cases writer with
  | waiting | writing batch attempt => simp
  | backingOff batch attempt =>
    by_cases hlast : attempt + 1 < maxAttempts
    · refine ⟨fun _ => ?_, ?_⟩
      · simp only [if_pos hlast, Persistence.unaccounted, Writer.held]
      · rintro ⟨batch', attempt', heq, hge⟩
        cases heq
        omega
    · refine ⟨fun h => absurd ⟨batch, attempt, rfl, Nat.le_of_not_lt hlast⟩ h, fun _ => ?_⟩
      simp only [if_neg hlast, Persistence.unaccounted, Writer.held, List.length_cons,
        List.length_nil]
      omega

theorem unaccounted_abandon (p : Persistence limit) :
    (¬ GivesUp p .abandon → p.abandon.unaccounted = p.unaccounted) ∧
      (GivesUp p .abandon → p.abandon.unaccounted = p.unaccounted + 1) := by
  obtain ⟨queue, dropped, queueDepth, paused, producer, writer, cancelled, produced, written⟩ := p
  unfold Persistence.abandon GivesUp
  cases writer with
  | waiting | writing batch attempt => simp
  | backingOff batch attempt =>
    cases cancelled with
    | false => exact ⟨fun _ => rfl, fun h => (by cases h.2)⟩
    | true =>
      refine ⟨fun h => absurd ⟨⟨batch, attempt, rfl⟩, rfl⟩ h, fun _ => ?_⟩
      simp only [if_true, Persistence.unaccounted, Writer.held, List.length_cons,
        List.length_nil]
      omega

/-- Every step keeps the books, but one that gives up a write loses a batch. -/
theorem unaccounted_step (p : Persistence limit) (m : PersistenceMove) :
    (¬ GivesUp p m → (p.step m).unaccounted = p.unaccounted) ∧
      (GivesUp p m → (p.step m).unaccounted = p.unaccounted + 1) := by
  cases m with
  | tick batch => exact ⟨fun _ => unaccounted_tick p batch, fun h => h.elim⟩
  | produce pause => exact ⟨fun _ => unaccounted_produce p pause, fun h => h.elim⟩
  | take => exact ⟨fun _ => unaccounted_take p, fun h => h.elim⟩
  | attempt result => exact unaccounted_attempt p result
  | wake => exact unaccounted_wake p
  | abandon => exact unaccounted_abandon p
  | cancel => exact ⟨fun _ => rfl, fun h => h.elim⟩

/-- The books balance exactly when the producer is not inside of `enqueue` and no
write was given up. -/
theorem batches_accounted_iff (limit : Nat) (moves : List PersistenceMove) :
    (moves.foldl Persistence.step (Persistence.start limit)).Accounted ↔
      (moves.foldl Persistence.step (Persistence.start limit)).producer.held = [] ∧
      Along Persistence.step (fun p m => ¬ GivesUp p m) (Persistence.start limit) moves := by
  have hkeep : ∀ (p : Persistence limit) m, ¬ GivesUp p m →
      (p.step m).unaccounted = p.unaccounted := fun p m h => (unaccounted_step p m).1 h
  have hraise : ∀ (p : Persistence limit) m, ¬ ¬ GivesUp p m →
      p.unaccounted < (p.step m).unaccounted := by
    intro p m h
    rw [(unaccounted_step p m).2 (Classical.not_not.mp h)]
    omega
  obtain ⟨hle, hiff⟩ := Along.iff_of_monotone (μ := Persistence.unaccounted) hkeep hraise
    (Persistence.start limit) moves
  rw [← hiff]
  have hstart : (Persistence.start limit).unaccounted = 0 := rfl
  rw [hstart] at hle ⊢
  generalize moves.foldl Persistence.step (Persistence.start limit) = p at hle ⊢
  -- what the producer holds and what was lost cannot cancel out: neither is negative
  unfold Persistence.unaccounted at hle ⊢
  unfold Persistence.Accounted
  rw [← List.length_eq_zero_iff]
  omega

/-! ## Batches in flight -/

def Persistence.batches (p : Persistence limit) : List PersistenceBatch :=
  p.producer.held ++ p.queue.buffer ++ p.writer.held

theorem Persistence.mem_batches :
    b ∈ p.batches ↔ b ∈ p.producer.held ∨ b ∈ p.queue.buffer ∨ b ∈ p.writer.held := by
  unfold Persistence.batches
  rw [List.mem_append, List.mem_append, or_assoc]

theorem mem_batches_tick {batch : PersistenceBatch} (h : b ∈ (p.tick batch).batches) :
    b ∈ p.batches ∨ b = batch := by
  unfold Persistence.tick at h
  split at h
  · split at h
    · exact .inl h
    · rcases Persistence.mem_batches.mp h with h | h | h
      · exact .inr (List.mem_singleton.mp h)
      · exact .inl (Persistence.mem_batches.mpr (.inr (.inl h)))
      · exact .inl (Persistence.mem_batches.mpr (.inr (.inr h)))
  · exact .inl h

theorem mem_batches_produce {pause : Bool} (h : b ∈ (p.produce pause).batches) : b ∈ p.batches := by
  obtain ⟨queue, dropped, queueDepth, paused, producer, writer, cancelled, produced, written⟩ := p
  unfold Persistence.produce at h
  cases producer with
  | resting => exact h
  | captured batch =>
    dsimp only at h
    split at h <;> exact h
  | offering batch | reoffering batch =>
    dsimp only at h
    split at h
    · next queue' hsend =>
      have hbuffer := (Channel.trySend_eq_some hsend).2.1
      simp only [Persistence.mem_batches, Producer.held, hbuffer] at h ⊢
      grind
    · exact h
  | evicting batch =>
    dsimp only at h
    split at h
    · next oldest queue' hreceive =>
      have hbuffer := (Channel.receive_eq_some hreceive).1
      simp only [Persistence.mem_batches, Producer.held, hbuffer] at h ⊢
      grind
    · exact h
  | pausing batch | refusing batch | evicted oldest batch =>
    simp only [Persistence.mem_batches, Producer.held] at h ⊢
    grind

theorem mem_batches_take (h : b ∈ p.take.batches) : b ∈ p.batches := by
  unfold Persistence.take at h
  split at h
  · next batch queue hwaiting hreceive =>
    have hbuffer := (Channel.receive_eq_some hreceive).1
    simp only [Persistence.mem_batches, Writer.held, hbuffer] at h ⊢
    grind
  · exact h

theorem mem_batches_writer {p' : Persistence limit} (h : b ∈ p'.batches)
    (hproducer : p'.producer = p.producer) (hqueue : p'.queue = p.queue)
    (hwriter : p'.writer.held = p.writer.held ∨ p'.writer.held = []) : b ∈ p.batches := by
  rw [Persistence.mem_batches, hproducer, hqueue] at h
  rw [Persistence.mem_batches]
  rcases hwriter with hsame | hnone
  · rwa [hsame] at h
  · rw [hnone] at h
    rcases h with h | h | h
    · exact .inl h
    · exact .inr (.inl h)
    · cases h

theorem mem_batches_attempt {result : Except WriteError Unit} (h : b ∈ (p.attempt result).batches) :
    b ∈ p.batches := by
  unfold Persistence.attempt at h
  split at h
  · next batch attempt hwriting =>
    split at h
    · exact mem_batches_writer h rfl rfl (.inr rfl)
    · split at h
      · exact mem_batches_writer h rfl rfl (.inl (by rw [hwriting]; rfl))
      · exact mem_batches_writer h rfl rfl (.inr rfl)
  · exact h

theorem mem_batches_wake (h : b ∈ p.wake.batches) : b ∈ p.batches := by
  unfold Persistence.wake at h
  split at h
  · next batch attempt hwaiting =>
    split at h
    · exact mem_batches_writer h rfl rfl (.inl (by rw [hwaiting]; rfl))
    · exact mem_batches_writer h rfl rfl (.inr rfl)
  · exact h

theorem mem_batches_abandon (h : b ∈ p.abandon.batches) : b ∈ p.batches := by
  unfold Persistence.abandon at h
  split at h
  · split at h
    · exact mem_batches_writer h rfl rfl (.inr rfl)
    · exact h
  · exact h

/-! ## A write that fails -/

def firstBatch : PersistenceBatch where
  snapshot := { sequence := 1, at_ := second }
  events := []
  filesystems := []

def singleWrite (result : Except WriteError Unit) : Persistence (queueCapacity 60) :=
  [.tick firstBatch, .produce false, .produce false, .take, .attempt result].foldl
    Persistence.step (Persistence.start (queueCapacity 60))

/-- A batch that was written is in the books. -/
example : (singleWrite (.ok ())).Accounted := by decide +kernel

/-- The disk is full: the batch is gone, and `Dropped` is still 0. -/
theorem failed_write_unaccounted :
    ¬ (singleWrite (.error { lower := "database or disk is full" })).Accounted ∧
    (singleWrite (.error { lower := "database or disk is full" })).produced = 1 ∧
    (singleWrite (.error { lower := "database or disk is full" })).written = 0 ∧
    (singleWrite (.error { lower := "database or disk is full" })).queue.buffer = [] ∧
    (singleWrite (.error { lower := "database or disk is full" })).writer.held = [] ∧
    (singleWrite (.error { lower := "database or disk is full" })).producer.held = [] ∧
    (singleWrite (.error { lower := "database or disk is full" })).dropped = 0 := by
  decide +kernel

end Binnacle.Storage
