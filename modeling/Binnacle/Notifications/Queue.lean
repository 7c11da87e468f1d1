import Binnacle.Notifications.Exclusion

/-!
# The queue between dispatcher and workers (`internal/notifications/worker.go:154-194`)

The dispatcher enters an id in `queued` under a lock, releases the lock, and only then offers
it to the channel; when the channel is full it takes the lock again to remove the id, and counts
the drop after that. A worker removes the id it has delivered under the same lock. Each of these
is an `Act` of its own here, and anything else may come between two of them.

- `Tracked`: whatever the lists of ids and the number of workers, `queued` is what is in the
  channel or with a worker, up to the id that is being offered;
- `queue_holds_once`: the invariant over whole runs, with the count of refused ids.
-/

namespace Binnacle.Notifications

open Runs Concurrent

variable {capacity : Nat}

/-- Where the dispatcher is in the loop of `enqueueDue`. -/
inductive Turn where
  | head
  /-- The id is entered in `queued`. -/
  | marked (id : String)
  /-- The channel was full; the id is still in `queued`. -/
  | refused (id : String)
  /-- The id is removed again, and not counted yet. -/
  | unmarked
  deriving DecidableEq

def Turn.offered : Turn → Option String
  | .marked id | .refused id => some id
  | .head | .unmarked => none

def Turn.owed : Turn → Nat
  | .refused _ | .unmarked => 1
  | .head | .marked _ => 0

/-- The dispatcher with what is left of its round, the channel, and the id each worker is
busy with. -/
structure Dispatcher (capacity : Nat) where
  queue : Channel String capacity
  queued : Finset String
  rest : List String
  turn : Turn
  dropped : Nat
  workers : Nat → Option String

inductive Act where
  | round (ids : List String)
  /-- The first critical section of a turn (worker.go:156-165). -/
  | check
  /-- `select { case w.queue <- id: default: }`. -/
  | offer
  /-- `delete(w.queued, id)` after a refusal. -/
  | unmark
  /-- `w.dropped.Add(1)`. -/
  | drop
  /-- `id := <-w.queue`. -/
  | take (k : Nat)
  /-- `deliver` has returned: `delete(w.queued, id)`. -/
  | done (k : Nat)

/-- `Start`: nothing is queued and every worker waits. -/
def Dispatcher.start : Dispatcher capacity where
  queue := Channel.make
  queued := ∅
  rest := []
  turn := .head
  dropped := 0
  workers := fun _ => none

def Dispatcher.check (s : Dispatcher capacity) : Dispatcher capacity :=
  match s.turn, s.rest with
  | .head, id :: rest =>
    if id ∈ s.queued then { s with rest }
    else { s with queued := insert id s.queued, rest, turn := .marked id }
  | _, _ => s

def Dispatcher.offer (s : Dispatcher capacity) : Dispatcher capacity :=
  match s.turn with
  | .marked id =>
    match s.queue.trySend id with
    | some queue => { s with queue, turn := .head }
    | none => { s with turn := .refused id }
  | _ => s

def Dispatcher.unmark (s : Dispatcher capacity) : Dispatcher capacity :=
  match s.turn with
  | .refused id => { s with queued := s.queued.erase id, turn := .unmarked }
  | _ => s

def Dispatcher.drop (s : Dispatcher capacity) : Dispatcher capacity :=
  match s.turn with
  | .unmarked => { s with dropped := s.dropped + 1, turn := .head }
  | _ => s

def Dispatcher.take (s : Dispatcher capacity) (k : Nat) : Dispatcher capacity :=
  match s.workers k, s.queue.receive with
  | none, some (id, queue) => { s with queue, workers := Function.update s.workers k (some id) }
  | _, _ => s

def Dispatcher.done (s : Dispatcher capacity) (k : Nat) : Dispatcher capacity :=
  match s.workers k with
  | some id => { s with queued := s.queued.erase id, workers := Function.update s.workers k none }
  | none => s

def Dispatcher.step (s : Dispatcher capacity) : Act → Dispatcher capacity
  | .round ids => if s.turn = .head ∧ s.rest = [] then { s with rest := ids } else s
  | .check => s.check
  | .offer => s.offer
  | .unmark => s.unmark
  | .drop => s.drop
  | .take k => s.take k
  | .done k => s.done k

def Dispatcher.after (acts : List Act) : Dispatcher capacity :=
  acts.foldl Dispatcher.step Dispatcher.start

def Dispatcher.refuses (s : Dispatcher capacity) (a : Act) : Bool :=
  match a, s.turn with
  | .offer, .marked id => (s.queue.trySend id).isNone
  | _, _ => false

def Dispatcher.refusals : Dispatcher capacity → List Act → Nat
  | _, [] => 0
  | s, a :: acts => (s.refuses a).toNat + (s.step a).refusals acts

/-! ## The invariant -/

/-- An id is in one place only, and `queued` holds those that are in one. -/
structure Tracked (s : Dispatcher capacity) : Prop where
  queued : ∀ id, id ∈ s.queued ↔
    id ∈ s.queue.buffer ∨ (∃ k, s.workers k = some id) ∨ s.turn.offered = some id
  once : s.queue.buffer.Nodup
  alone : ∀ j k id, s.workers j = some id → s.workers k = some id → j = k
  apart : ∀ k id, s.workers k = some id → id ∉ s.queue.buffer
  offered : ∀ id, s.turn.offered = some id →
    id ∉ s.queue.buffer ∧ ∀ k, s.workers k ≠ some id

theorem tracked_start : Tracked (Dispatcher.start : Dispatcher capacity) := by
  constructor <;> simp [Dispatcher.start, Turn.offered]

variable {s : Dispatcher capacity}

theorem Tracked.check (h : Tracked s) : Tracked s.check := by
  unfold Dispatcher.check
  split
  · next id rest hturn _ =>
    split
    · exact ⟨h.queued, h.once, h.alone, h.apart, h.offered⟩
    · next hnew =>
      have hnowhere := fun hwhere => hnew ((h.queued id).mpr hwhere)
      refine ⟨fun i => ?_, h.once, h.alone, h.apart, fun i hi => ?_⟩
      · have hqueued := h.queued i
        rw [hturn] at hqueued
        simp only [Turn.offered, reduceCtorEq, or_false] at hqueued
        simp only [Finset.mem_insert, hqueued, Turn.offered, Option.some.injEq]
        tauto
      · obtain rfl : id = i := Option.some.inj hi
        exact ⟨fun hmem => hnowhere (.inl hmem),
          fun k hk => hnowhere (.inr (.inl ⟨k, hk⟩))⟩
  · exact h

theorem Tracked.offer (h : Tracked s) : Tracked s.offer := by
  unfold Dispatcher.offer
  split
  · next id hturn =>
    have hoff : s.turn.offered = some id := by rw [hturn]; rfl
    obtain ⟨hbuffer, hworkers⟩ := h.offered id hoff
    split
    · next queue hsend =>
      obtain ⟨-, happend, -⟩ := Channel.trySend_eq_some hsend
      constructor
      case queued =>
        intro i
        show i ∈ s.queued ↔ i ∈ queue.buffer ∨ _ ∨ Turn.offered .head = some i
        rw [h.queued i, hoff, happend, List.mem_append, List.mem_singleton]
        simp only [Turn.offered, Option.some.injEq, reduceCtorEq, or_false]
        constructor
        · rintro (hb | hw | rfl)
          · exact .inl (.inl hb)
          · exact .inr hw
          · exact .inl (.inr rfl)
        · rintro ((hb | rfl) | hw)
          · exact .inl hb
          · exact .inr (.inr rfl)
          · exact .inr (.inl hw)
      case once =>
        show queue.buffer.Nodup
        rw [happend, List.nodup_append]
        refine ⟨h.once, List.nodup_singleton id, fun a ha b hb hab => hbuffer ?_⟩
        rw [← List.mem_singleton.mp hb, ← hab]
        exact ha
      case alone => exact h.alone
      case apart =>
        intro k i hk
        show i ∉ queue.buffer
        rw [happend, List.mem_append, List.mem_singleton]
        rintro (hb | rfl)
        · exact h.apart k i hk hb
        · exact hworkers k hk
      case offered => exact nofun
    · refine ⟨fun i => ?_, h.once, h.alone, h.apart, fun i hi => ?_⟩
      · rw [h.queued i, hoff]
        rfl
      · exact h.offered i (hoff.trans hi)
  · exact h

theorem Tracked.unmark (h : Tracked s) : Tracked s.unmark := by
  unfold Dispatcher.unmark
  split
  · next id hturn =>
    have hoff : s.turn.offered = some id := by rw [hturn]; rfl
    obtain ⟨hbuffer, hworkers⟩ := h.offered id hoff
    refine ⟨fun i => ?_, h.once, h.alone, h.apart, nofun⟩
    show i ∈ s.queued.erase id ↔
      i ∈ s.queue.buffer ∨ (∃ k, s.workers k = some i) ∨ Turn.offered .unmarked = some i
    rw [Finset.mem_erase, h.queued i, hoff]
    constructor
    · rintro ⟨hne, hb | hw | ho⟩
      · exact .inl hb
      · exact .inr (.inl hw)
      · exact absurd (Option.some.inj ho).symm hne
    · rintro (hb | ⟨k, hk⟩ | ho)
      · exact ⟨fun heq => hbuffer (heq ▸ hb), .inl hb⟩
      · exact ⟨fun heq => hworkers k (heq ▸ hk), .inr (.inl ⟨k, hk⟩)⟩
      · cases ho
  · exact h

theorem Tracked.drop (h : Tracked s) : Tracked s.drop := by
  unfold Dispatcher.drop
  split
  · next hturn =>
    have hoff : s.turn.offered = none := by rw [hturn]; rfl
    refine ⟨fun i => ?_, h.once, h.alone, h.apart, nofun⟩
    rw [h.queued i, hoff]
    rfl
  · exact h

theorem Tracked.take (h : Tracked s) (k : Nat) : Tracked (s.take k) := by
  unfold Dispatcher.take
  split
  · next id queue hidle hreceive =>
    obtain ⟨hbuffer, -⟩ := Channel.receive_eq_some hreceive
    have honce := h.once
    rw [hbuffer, List.nodup_cons] at honce
    have hmem : ∀ i, i ∈ s.queue.buffer ↔ i = id ∨ i ∈ queue.buffer := by
      intro i
      rw [hbuffer, List.mem_cons]
    have hworker : ∀ j i, Function.update s.workers k (some id) j = some i ↔
        (j = k ∧ i = id) ∨ (j ≠ k ∧ s.workers j = some i) := by
      intro j i
      rw [Function.update_apply]
      split
      · next hjk => simp [hjk, eq_comm]
      · next hjk => simp [hjk]
    -- nobody was busy with the id, since it was in the channel
    have hnobody : ∀ j, s.workers j ≠ some id :=
      fun j hj => h.apart j id hj ((hmem id).mpr (.inl rfl))
    constructor
    case queued =>
      intro i
      show i ∈ s.queued ↔ i ∈ queue.buffer ∨
        (∃ j, Function.update s.workers k (some id) j = some i) ∨ s.turn.offered = some i
      rw [h.queued i, hmem i]
      simp only [hworker]
      constructor
      · rintro ((rfl | hb) | ⟨j, hj⟩ | ho)
        · exact .inr (.inl ⟨k, .inl ⟨rfl, rfl⟩⟩)
        · exact .inl hb
        · refine .inr (.inl ⟨j, .inr ⟨fun hjk => ?_, hj⟩⟩)
          rw [hjk, hidle] at hj
          cases hj
        · exact .inr (.inr ho)
      · rintro (hb | ⟨j, ⟨-, rfl⟩ | ⟨-, hj⟩⟩ | ho)
        · exact .inl (.inr hb)
        · exact .inl (.inl rfl)
        · exact .inr (.inl ⟨j, hj⟩)
        · exact .inr (.inr ho)
    case once => exact honce.2
    case alone =>
      intro j j' i hj hj'
      rcases (hworker j i).mp hj with ⟨rfl, rfl⟩ | ⟨-, hold⟩
      · rcases (hworker j' i).mp hj' with ⟨rfl, -⟩ | ⟨-, hold'⟩
        · rfl
        · exact absurd hold' (hnobody j')
      · rcases (hworker j' i).mp hj' with ⟨-, rfl⟩ | ⟨-, hold'⟩
        · exact absurd hold (hnobody j)
        · exact h.alone j j' i hold hold'
    case apart =>
      intro j i hj
      show i ∉ queue.buffer
      rcases (hworker j i).mp hj with ⟨-, rfl⟩ | ⟨-, hj⟩
      · exact honce.1
      · exact fun hb => h.apart j i hj ((hmem i).mpr (.inr hb))
    case offered =>
      intro i hi
      obtain ⟨hnot, hfree⟩ := h.offered i hi
      refine ⟨fun hb => hnot ((hmem i).mpr (.inr hb)), fun j hj => ?_⟩
      rcases (hworker j i).mp hj with ⟨-, rfl⟩ | ⟨-, hj⟩
      · exact hnot ((hmem i).mpr (.inl rfl))
      · exact hfree j hj
  · exact h

theorem Tracked.done (h : Tracked s) (k : Nat) : Tracked (s.done k) := by
  unfold Dispatcher.done
  split
  · next id hk =>
    have hworker : ∀ j i, Function.update s.workers k none j = some i ↔
        j ≠ k ∧ s.workers j = some i := by
      intro j i
      rw [Function.update_apply]
      split
      · next hjk => simp [hjk]
      · next hjk => simp [hjk]
    refine ⟨fun i => ?_, h.once, fun j j' i hj hj' => ?_, fun j i hj => ?_, fun i hi => ?_⟩
    · simp only [Finset.mem_erase, h.queued i, hworker]
      constructor
      · rintro ⟨hne, hb | ⟨j, hj⟩ | ho⟩
        · exact .inl hb
        · refine .inr (.inl ⟨j, fun hjk => hne ?_, hj⟩)
          rw [hjk, hk] at hj
          exact (Option.some.inj hj).symm
        · exact .inr (.inr ho)
      · rintro (hb | ⟨j, hjk, hj⟩ | ho)
        · exact ⟨fun heq => h.apart k id hk (heq ▸ hb), .inl hb⟩
        · exact ⟨fun heq => hjk (h.alone j k id (heq ▸ hj) hk), .inr (.inl ⟨j, hj⟩)⟩
        · exact ⟨fun heq => (h.offered i ho).2 k (heq ▸ hk), .inr (.inr ho)⟩
    · exact h.alone j j' i ((hworker j i).mp hj).2 ((hworker j' i).mp hj').2
    · exact h.apart j i ((hworker j i).mp hj).2
    · exact ⟨(h.offered i hi).1, fun j hj => (h.offered i hi).2 j ((hworker j i).mp hj).2⟩
  · exact h

theorem Tracked.step (h : Tracked s) (a : Act) : Tracked (s.step a) := by
  cases a with
  | round ids =>
    simp only [Dispatcher.step]
    split
    · exact ⟨h.queued, h.once, h.alone, h.apart, h.offered⟩
    · exact h
  | check => exact h.check
  | offer => exact h.offer
  | unmark => exact h.unmark
  | drop => exact h.drop
  | take k => exact h.take k
  | done k => exact h.done k

theorem Tracked.run (h : Tracked s) (acts : List Act) : Tracked (acts.foldl Dispatcher.step s) := by
  induction acts generalizing s with
  | nil => exact h
  | cons a acts ih => exact ih (h.step a)

/-! ## Refused ids -/

theorem dropped_step (s : Dispatcher capacity) (a : Act) :
    (s.step a).dropped + (s.step a).turn.owed
      = s.dropped + s.turn.owed + (s.refuses a).toNat := by
  cases a with
  | round ids =>
    simp only [Dispatcher.step]
    split <;> rfl
  | check =>
    simp only [Dispatcher.step, Dispatcher.check]
    split
    · next hturn _ =>
      split
      · rfl
      · rw [hturn]
        rfl
    · rfl
  | offer =>
    simp only [Dispatcher.step, Dispatcher.offer, Dispatcher.refuses]
    cases hturn : s.turn with
    | marked id =>
      cases hsend : s.queue.trySend id with
      | some queue | none => simp [Turn.owed, hsend]
    | _ =>
      simp only [hturn]
      rfl
  | unmark =>
    simp only [Dispatcher.step, Dispatcher.unmark]
    split
    · next hturn =>
      rw [hturn]
      rfl
    · rfl
  | drop =>
    simp only [Dispatcher.step, Dispatcher.drop]
    split
    · next hturn =>
      rw [hturn]
      rfl
    · rfl
  | take k =>
    simp only [Dispatcher.step, Dispatcher.take]
    split <;> rfl
  | done k =>
    simp only [Dispatcher.step, Dispatcher.done]
    split <;> rfl

theorem dropped_run (s : Dispatcher capacity) (acts : List Act) :
    (acts.foldl Dispatcher.step s).dropped + (acts.foldl Dispatcher.step s).turn.owed
      = s.dropped + s.turn.owed + s.refusals acts := by
  induction acts generalizing s with
  | nil => rfl
  | cons a acts ih =>
    have hstep := dropped_step s a
    have hrest := ih (s.step a)
    rw [List.foldl_cons, Dispatcher.refusals, hrest]
    omega

/-- What the queue guarantees after `refused` ids have found the channel full. -/
structure HoldsOnce (s : Dispatcher capacity) (refused : Nat) : Prop extends Tracked s where
  dropped : s.dropped + s.turn.owed = refused
  freed : ∀ id, s.turn = .refused id → id ∉ s.unmark.queued
  /-- A later round enters it, unless it is in the channel or with a worker by then. -/
  entered : ∀ id rest, s.turn = .head → s.rest = id :: rest → id ∉ s.queue.buffer →
    (∀ k, s.workers k ≠ some id) → s.check.turn = .marked id
  sent : ∀ id, s.turn = .marked id → s.queue.buffer.length < capacity →
    id ∈ s.offer.queue.buffer

/-- After any run of a dispatcher with arbitrary rounds and any number of workers, `queued`
holds exactly the ids that are in the channel, with a worker, or being offered; an id is in one
of these places only, and refused ids are counted and can be queued again. -/
theorem queue_holds_once (acts : List Act) :
    HoldsOnce (Dispatcher.after acts : Dispatcher capacity)
      ((Dispatcher.start : Dispatcher capacity).refusals acts) := by
  have h : Tracked (Dispatcher.after acts : Dispatcher capacity) := tracked_start.run acts
  refine ⟨h, ?_, fun id hturn => ?_, fun id rest hturn hrest hbuffer hworkers => ?_,
    fun id hturn hroom => ?_⟩
  · exact (dropped_run _ acts).trans (Nat.zero_add _)
  · simp only [Dispatcher.unmark, hturn]
    exact Finset.notMem_erase id _
  · have hfree : id ∉ (Dispatcher.after acts : Dispatcher capacity).queued := by
      rw [h.queued id, hturn]
      rintro (hb | ⟨k, hk⟩ | ho)
      · exact hbuffer hb
      · exact hworkers k hk
      · cases ho
    simp only [Dispatcher.check, hturn, hrest, if_neg hfree]
  · cases hsend : (Dispatcher.after acts : Dispatcher capacity).queue.trySend id with
    | none => exact absurd (Channel.trySend_eq_none_iff.mp hsend) (Nat.ne_of_lt hroom)
    | some queue =>
      simp only [Dispatcher.offer, hturn, hsend, (Channel.trySend_eq_some hsend).2.1]
      exact List.mem_append_right _ (List.mem_singleton_self id)

/-- Two rounds name an id twice and find no room for another: it is queued once, and the other
is dropped. -/
example : (Dispatcher.after [.round ["a", "a", "b"], .check, .offer, .check, .check, .offer,
    .unmark, .drop] : Dispatcher 1).queue.buffer = ["a"] ∧
    (Dispatcher.after [.round ["a", "a", "b"], .check, .offer, .check, .check, .offer, .unmark,
      .drop] : Dispatcher 1).dropped = 1 := by
  decide

/-! ## Dispatcher and workers of the service -/

def Phase.busy : Phase → Option String
  | .idle => none
  | .taken id | .claimed id | .finishing id _ | .counted id _ _ | .delivered id => some id
  | .loaded p | .sending p => some p.id

def Service.view (w : Service capacity) : Dispatcher capacity where
  queue := w.queue
  queued := w.queued
  rest := w.offering
  turn := .head
  dropped := w.dropped
  workers := fun k => (w.workers k).busy

theorem view_enter (w : Service capacity) (k : Nat) (phase : Phase) :
    (w.enter k phase).view
      = { w.view with workers := Function.update w.view.workers k phase.busy } := by
  unfold Service.view Service.enter
  congr 1
  funext j
  simp only [Function.update_apply]
  split <;> rfl

theorem view_enter_same {w : Service capacity} {k : Nat} {phase : Phase}
    (h : phase.busy = (w.workers k).busy) : (w.enter k phase).view = w.view := by
  rw [view_enter, h]
  show { w.view with workers := Function.update w.view.workers k (w.view.workers k) } = w.view
  rw [Function.update_eq_self]

theorem view_offerNext (w : Service capacity) (now : Time) :
    (w.offerNext now).view
      = [Act.check, .offer, .unmark, .drop].foldl Dispatcher.step w.view := by
  show _ = w.view.check.offer.unmark.drop
  unfold Service.offerNext
  split
  · next hnil =>
    have hcheck : w.view.check = w.view := by simp [Dispatcher.check, Service.view, hnil]
    rw [hcheck]
    rfl
  · next id rest hcons =>
    split
    · next hq =>
      have hcheck : w.view.check = { w.view with rest } := by
        simp [Dispatcher.check, Service.view, hcons, hq]
      rw [hcheck]
      rfl
    · next hq =>
      have hcheck : w.view.check
          = { w.view with queued := insert id w.queued, rest, turn := .marked id } := by
        simp [Dispatcher.check, Service.view, hcons, hq]
      rw [hcheck]
      cases hsend : w.queue.trySend id with
      | some queue =>
        simp [Dispatcher.offer, Dispatcher.unmark, Dispatcher.drop, Service.view, hsend]
      | none =>
        simp [Dispatcher.offer, Dispatcher.unmark, Dispatcher.drop, Service.view, hsend,
          Finset.erase_insert hq]

theorem view_deliver (w : Service capacity) (k : Nat) :
    (∀ now, (w.claim k now).view = w.view) ∧ (w.load k).view = w.view ∧
      (∀ code, (w.refuse k code).view = w.view) ∧ (w.send k).view = w.view ∧
      (∀ o, (w.respond k o).view = w.view) ∧ (w.count k).view = w.view ∧
      ∀ now, (w.finish k now).view = w.view := by
  refine ⟨fun now => ?_, ?_, fun code => ?_, ?_, fun o => ?_, ?_, fun now => ?_⟩
  · unfold Service.claim
    split
    · next id hk =>
      split
      · have hclaimed : ({ w with db := claimDelivery w.db id now }.enter k (.claimed id)).view
            = { w with db := claimDelivery w.db id now }.view :=
          view_enter_same (by rw [hk]; rfl)
        exact hclaimed
      · exact view_enter_same (by rw [hk]; rfl)
    · rfl
  · unfold Service.load
    split
    · next id hk =>
      split
      · next p hp =>
        obtain ⟨d, -, hid, rfl⟩ := loadDelivery_eq_some hp
        refine view_enter_same ?_
        rw [hk, ← hid]
        rfl
      · exact view_enter_same (by rw [hk]; rfl)
    · rfl
  · unfold Service.refuse
    split
    · next p hk => exact view_enter_same (by rw [hk]; rfl)
    · rfl
  · unfold Service.send
    split
    · next p hk =>
      have hsending : ({ w with sent := w.sent ++ [p] }.enter k (.sending p)).view
          = { w with sent := w.sent ++ [p] }.view := view_enter_same (by rw [hk]; rfl)
      exact hsending
    · rfl
  · unfold Service.respond
    split
    · next p hk => exact view_enter_same (by rw [hk]; rfl)
    · rfl
  · unfold Service.count
    split
    · next id answer hk =>
      split
      · exact view_enter_same (by rw [hk]; rfl)
      · exact view_enter_same (by rw [hk]; rfl)
    · rfl
  · unfold Service.finish
    split
    · next id answer attempts hk =>
      have hdone : ({ w with db := writeOutcome w.db id attempts answer now }.enter k
          (.delivered id)).view = { w with db := writeOutcome w.db id attempts answer now }.view :=
        view_enter_same (by rw [hk]; rfl)
      exact hdone
    · rfl

theorem view_take (w : Service capacity) (k : Nat) : (w.take k).view = w.view.take k := by
  cases hk : w.workers k with
  | idle =>
    cases hreceive : w.queue.receive with
    | none => simp [Service.take, Dispatcher.take, Service.view, hk, hreceive, Phase.busy]
    | some x =>
      obtain ⟨id, queue⟩ := x
      have htake : w.take k = { w with queue }.enter k (.taken id) := by
        simp [Service.take, hk, hreceive]
      rw [htake, view_enter]
      simp [Dispatcher.take, Service.view, hk, hreceive, Phase.busy]
  | _ => simp [Service.take, Dispatcher.take, Service.view, hk, Phase.busy]

theorem view_release (w : Service capacity) (k : Nat)
    (h : ∃ id, w.workers k = .delivered id) : (w.release k).view = w.view.done k := by
  obtain ⟨id, hk⟩ := h
  have hrelease : w.release k = { w with queued := w.queued.erase id }.enter k .idle := by
    simp [Service.release, hk]
  rw [hrelease, view_enter]
  simp [Dispatcher.done, Service.view, hk, Phase.busy]

theorem view_step (w : Service capacity) {m : Move} (hm : ∀ r env now, m ≠ .restart r env now) :
    ∃ acts : List Act, (w.step m).view = acts.foldl Dispatcher.step w.view := by
  cases m with
  | write c =>
    refine ⟨[], ?_⟩
    show (w.attempt (c.run w.db)).view = w.view
    unfold Service.attempt
    split <;> rfl
  | restart r env now => exact absurd rfl (hm r env now)
  | query order now =>
    by_cases hnil : w.offering = []
    · refine ⟨[.round (dueIds order w.db now (capacity + 1))], ?_⟩
      simp [Service.step, Dispatcher.step, Service.view, hnil]
    · exact ⟨[], by simp [Service.step, hnil]⟩
  | offer now => exact ⟨_, view_offerNext w now⟩
  | take k => exact ⟨[.take k], view_take w k⟩
  | claim k now => exact ⟨[], (view_deliver w k).1 now⟩
  | load k => exact ⟨[], (view_deliver w k).2.1⟩
  | refuse k code => exact ⟨[], (view_deliver w k).2.2.1 code⟩
  | send k => exact ⟨[], (view_deliver w k).2.2.2.1⟩
  | respond k o => exact ⟨[], (view_deliver w k).2.2.2.2.1 o⟩
  | count k => exact ⟨[], (view_deliver w k).2.2.2.2.2.1⟩
  | finish k now => exact ⟨[], (view_deliver w k).2.2.2.2.2.2 now⟩
  | release k =>
    by_cases hdone : ∃ id, w.workers k = .delivered id
    · exact ⟨[.done k], view_release w k hdone⟩
    · refine ⟨[], ?_⟩
      show (w.release k).view = w.view
      unfold Service.release
      split
      · next id hk => exact absurd ⟨id, hk⟩ hdone
      · rfl

/-- In every reachable service `queued` is what is in the channel or with a worker. -/
theorem tracked_of_reachable {w : Service capacity} (h : (services capacity).Reachable w) :
    Tracked w.view := by
  refine h.invariant (fun w => Tracked w.view) tracked_start ?_
  rintro w m w' hw ⟨-, rfl⟩
  by_cases hm : ∃ r env now, m = .restart r env now
  · obtain ⟨r, env, now, rfl⟩ := hm
    have hstart : (w.restart r env now).view = Dispatcher.start := by
      unfold Service.restart Service.attempt
      split <;> rfl
    exact hstart ▸ tracked_start
  · obtain ⟨acts, hacts⟩ := view_step w fun r env now heq => hm ⟨r, env, now, heq⟩
    exact hacts ▸ hw.run acts

theorem tracked_of_reachable_sending : Tracked (after (announce ++ attemptAt 20)).view :=
  tracked_of_reachable (reachable_after (along_announce.append (along_attemptAt _ 20)))

end Binnacle.Notifications
