import Binnacle.Metrics.Delivery

/-!
# The live stream (`internal/api/live.go`, `stream`)

A connection subscribes, replays the stored events after the `Last-Event-ID` it
was given, and from then on writes a frame for every message of its channel. A
`Resumption` is a client that reads a part of a first stream and continues with
a second one, with anything else going on in between.

- `live_event_anonymous`: an event frame from the channel carries the id 0, not
  the number under which the event is stored;
- `resume_exact_iff`: the two streams together show every event of the meantime
  once and under its number exactly when no event is read live, and every event
  is numbered after the last frame read and before the replay.
-/

namespace Binnacle.Api

open Metrics

/-- A frame of the stream, as `writeFrame` writes it (live.go:91-94). -/
structure Frame where
  event : String
  id : Nat
  data : LiveMessage

/-- The frame of an event, replayed or live (live.go:57, 83). -/
def eventFrame (e : Event) : Frame := ⟨"event", e.id, .event e⟩

/-- The frame of a message of the channel (live.go:75-86); `decorate` is the chain
of decorators. -/
def messageFrame (decorate : Snapshot → Snapshot) : LiveMessage → Frame
  | .snapshot s => ⟨"snapshot", (decorate s).sequence, .snapshot (decorate s)⟩
  | .event e => eventFrame e

/-- The replay at the start of a stream; `none` stands for a missing or malformed
header (live.go:55-60). -/
def replay (engine : Engine) (lastEventID : Option Nat) : List Frame :=
  match lastEventID with
  | some n => (engine.eventsAfter n).map eventFrame
  | none => []

def shown (frames : List Frame) : List Event := eventsOf (frames.map Frame.data)

/-- The browser keeps an event unless it already has one with that id, and at most
128 of them (live.svelte.ts:99-109). -/
def browserKeep (events : List Event) (value : Event) : List Event :=
  if events.any (fun item => item.id = value.id) then events
  else events.drop (events.length - 127) ++ [value]

theorem shown_append (a b : List Frame) : shown (a ++ b) = shown a ++ shown b := by
  rw [shown, List.map_append, eventsOf_append]
  rfl

theorem shown_map_eventFrame (events : List Event) : shown (events.map eventFrame) = events := by
  have hdata : (events.map eventFrame).map Frame.data = events.map .event := by
    rw [List.map_map]
    rfl
  rw [shown, hdata, eventsOf_map_event]

theorem shown_map_messageFrame (decorate : Snapshot → Snapshot) (msgs : List LiveMessage) :
    shown (msgs.map (messageFrame decorate)) = eventsOf msgs := by
  induction msgs with
  | nil => rfl
  | cons msg msgs ih =>
    cases msg with
    | snapshot s => exact ih
    | event e =>
      show e :: shown (msgs.map (messageFrame decorate)) = e :: eventsOf msgs
      rw [ih]

theorem browserKeep_of_nodup {events : List Event} (h : (events.map Event.id).Nodup) :
    events.foldl browserKeep [] = events.drop (events.length - 128) := by
  induction events using List.reverseRecOn with
  | nil => rfl
  | append_singleton events e ih =>
    rw [List.map_append, List.nodup_append] at h
    obtain ⟨hnodup, -, hdisj⟩ := h
    rw [List.foldl_append, ih hnodup]
    have hnew : (events.drop (events.length - 128)).any (fun item => item.id = e.id) = false := by
      rw [List.any_eq_false]
      intro item hitem
      have hid : item.id ∈ events.map Event.id := List.mem_map_of_mem (List.mem_of_mem_drop hitem)
      simpa using hdisj item.id hid e.id (by simp)
    have hdrop : events.length - 128 + (events.length - (events.length - 128) - 127)
        = events.length + 1 - 128 := by omega
    have hle : events.length + 1 - 128 ≤ events.length := by omega
    rw [List.foldl_cons, List.foldl_nil, browserKeep, hnew, if_neg Bool.false_ne_true,
      List.length_append, List.length_drop, List.drop_drop, List.length_singleton, hdrop,
      List.drop_append_of_le_length hle]

/-! ## A client that reconnects -/

structure Resumption where
  maxEvents : Int
  decorate : Snapshot → Snapshot
  before : List Action
  /-- What happens until the second connection subscribes. -/
  during : List Action
  /-- How many frames of the first stream the client has read. -/
  read : Nat
  /-- What happens between the second `Subscribe` and its `EventsAfter`. -/
  gap : List Action
  /-- What happens from then on. -/
  after : List Action

namespace Resumption

variable (r : Resumption)

def atFirst : Audience := r.before.foldl attend (silent r.maxEvents)

def firstSub : Nat := r.atFirst.engine.nextSub + 1

def atSecond : Audience := r.during.foldl attend (attend r.atFirst .subscribe)

def secondSub : Nat := r.atSecond.engine.nextSub + 1

def atReplay : Audience := r.gap.foldl attend (attend r.atSecond .subscribe)

def atEnd : Audience := r.after.foldl attend r.atReplay

def firstFrames : List Frame :=
  ((r.atSecond.received r.firstSub).take r.read).map (messageFrame r.decorate)

/-- The id of the last of them, which the client sends when it reconnects. -/
def lastEventID : Option Nat := r.firstFrames.getLast?.map Frame.id

def secondFrames : List Frame :=
  replay r.atReplay.engine r.lastEventID ++
    (r.atEnd.received r.secondSub).map (messageFrame r.decorate)

/-- The events published since the first connection, as they are stored. -/
def published : List Event :=
  r.atEnd.numbered.filter fun e => r.atFirst.engine.nextMessage < e.id

def seen : List Event := shown (r.firstFrames ++ r.secondFrames)

/-- Replays of events from before the first connection aside, the client is shown
every event published since then once and under its number, and the browser
takes no event for another. -/
def Exact : Prop :=
  (r.seen.filter fun e => e.id = 0 ∨ r.atFirst.engine.nextMessage < e.id).Perm r.published ∧
    r.seen.foldl browserKeep [] = r.seen.drop (r.seen.length - 128)

/-- All that is published comes without an id, and the second connection reads its
channel only after the replay. -/
structure Proper : Prop where
  anonymous : ∀ a ∈ r.before ++ r.during ++ r.gap ++ r.after, a.Anonymous
  sequential : Action.receive r.secondSub ∉ r.gap

/-- No more events than the engine keeps were published between the last frame
read and the replay. -/
def WithinCapacity : Prop :=
  ∀ n, r.lastEventID = some n →
    (r.atReplay.numbered.filter fun e => e.id > n).length ≤ r.atReplay.engine.maxEvents

variable {r : Resumption}

theorem Proper.announced (h : r.Proper) :
    Announced r.atFirst ∧ Announced r.atSecond ∧ Announced r.atReplay ∧ Announced r.atEnd := by
  have hmem : ∀ {a}, (a ∈ r.before ∨ a ∈ r.during ∨ a ∈ r.gap ∨ a ∈ r.after) → a.Anonymous := by
    intro a ha
    refine h.anonymous a ?_
    simp only [List.mem_append]
    tauto
  have hsub : Action.subscribe.Anonymous := fun _ _ _ heq => nomatch heq
  have h₁ : Announced r.atFirst :=
    (announced_silent r.maxEvents).of_attends fun a ha => hmem (.inl ha)
  have h₂ : Announced r.atSecond :=
    (h₁.of_attend hsub).of_attends fun a ha => hmem (.inr (.inl ha))
  have h₃ : Announced r.atReplay :=
    (h₂.of_attend hsub).of_attends fun a ha => hmem (.inr (.inr (.inl ha)))
  exact ⟨h₁, h₂, h₃, h₃.of_attends fun a ha => hmem (.inr (.inr (.inr ha)))⟩

theorem live_event_anonymous (h : r.Proper) :
    (∀ e ∈ shown r.firstFrames, e.id = 0) ∧
      ∀ e ∈ eventsOf (r.atEnd.received r.secondSub), e.id = 0 := by
  obtain ⟨-, h₂, -, h₄⟩ := h.announced
  constructor
  · intro e he
    rw [firstFrames, shown_map_messageFrame, mem_eventsOf] at he
    exact h₂.anonymous r.firstSub e (List.mem_append_left _ (List.mem_of_mem_take he))
  · intro e he
    exact h₄.anonymous r.secondSub e (List.mem_append_left _ (mem_eventsOf.mp he))

theorem seen_eq : r.seen = shown r.firstFrames ++
    (shown (replay r.atReplay.engine r.lastEventID) ++
      eventsOf (r.atEnd.received r.secondSub)) := by
  rw [seen, shown_append, secondFrames, shown_append, shown_map_messageFrame]

/-- The two streams together are exact exactly when the client reads no event live,
and every event published since the first connection is numbered after the last
frame read, and before the replay. -/
theorem resume_exact_iff (h : r.Proper) (hcap : r.WithinCapacity) :
    r.Exact ↔
      shown r.firstFrames = [] ∧ eventsOf (r.atEnd.received r.secondSub) = [] ∧
        ∀ e ∈ r.published, e ∈ r.atReplay.numbered ∧ ∃ n, r.lastEventID = some n ∧ n < e.id := by
  obtain ⟨-, -, hreplay, hend⟩ := h.announced
  obtain ⟨hfirst, hsecond⟩ := live_event_anonymous h
  constructor
  · rintro ⟨hperm, -⟩
    -- an id 0 is no number, so an event read live is none of those published
    have hnumbered : ∀ e ∈ r.seen, e.id ≠ 0 := by
      intro e he hid
      have hmem : e ∈ r.published :=
        hperm.subset (List.mem_filter.mpr ⟨he, by simp [hid]⟩)
      have hlt : r.atFirst.engine.nextMessage < e.id := by
        simpa [published] using (List.mem_filter.mp hmem).2
      omega
    rw [seen_eq] at hnumbered
    have hnone₁ : shown r.firstFrames = [] :=
      List.eq_nil_iff_forall_not_mem.mpr fun e he =>
        hnumbered e (List.mem_append_left _ he) (hfirst e he)
    have hnone₂ : eventsOf (r.atEnd.received r.secondSub) = [] :=
      List.eq_nil_iff_forall_not_mem.mpr fun e he =>
        hnumbered e (List.mem_append_right _ (List.mem_append_right _ he)) (hsecond e he)
    refine ⟨hnone₁, hnone₂, fun e he => ?_⟩
    have hseen : e ∈ r.seen := List.mem_of_mem_filter (hperm.symm.subset he)
    rw [seen_eq, hnone₁, hnone₂, List.nil_append, List.append_nil] at hseen
    cases hlast : r.lastEventID with
    | none =>
      rw [hlast] at hseen
      cases hseen
    | some n =>
      rw [hlast, replay, shown_map_eventFrame, Engine.eventsAfter, List.mem_filter] at hseen
      exact ⟨hreplay.numbers.mem_of_window hseen.1, n, rfl, by simpa using hseen.2⟩
  · rintro ⟨hnone₁, hnone₂, hall⟩
    have hseen : r.seen = shown (replay r.atReplay.engine r.lastEventID) := by
      rw [seen_eq, hnone₁, hnone₂, List.nil_append, List.append_nil]
    cases hlast : r.lastEventID with
    | none =>
      have hnil : r.published = [] := List.eq_nil_iff_forall_not_mem.mpr fun e he => by
        obtain ⟨-, n, hn, -⟩ := hall e he
        rw [hlast] at hn
        cases hn
      have hnothing : r.seen = [] := by
        rw [hseen, hlast]
        rfl
      rw [Exact, hnil, hnothing]
      exact ⟨List.Perm.refl _, rfl⟩
    | some n =>
      have hevents : r.seen = r.atReplay.numbered.filter fun e => e.id > n := by
        rw [hseen, hlast, replay, shown_map_eventFrame,
          hreplay.numbers.eventsAfter_eq (hcap n hlast)]
      refine ⟨(List.perm_ext_iff_of_nodup ?_ ?_).mpr fun e => ?_, ?_⟩
      · rw [hevents]
        exact ((hreplay.numbers.nodup.of_map _).filter _).filter _
      · exact (hend.numbers.nodup.of_map _).filter _
      · rw [hevents, List.mem_filter, List.mem_filter, decide_eq_true_eq, decide_eq_true_eq]
        constructor
        · rintro ⟨⟨he, hgt⟩, hid⟩
          have hlater := hid.resolve_left (by omega)
          exact List.mem_filter.mpr ⟨(numbered_starts r.after r.atReplay).subset he,
            decide_eq_true hlater⟩
        · -- all that was published since the first connection was numbered before the replay
          intro hpub
          obtain ⟨he, n', hn', hgt⟩ := hall e hpub
          cases hlast.symm.trans hn'
          exact ⟨⟨he, hgt⟩, .inr (of_decide_eq_true (List.mem_filter.mp hpub).2)⟩
      · rw [hevents]
        exact browserKeep_of_nodup (hreplay.numbers.nodup.sublist (List.filter_sublist.map _))

instance (r : Resumption) : Decidable r.Exact := inferInstanceAs (Decidable (_ ∧ _))

def oom : Event := { at_ := second, type := "container_oom", containerInstance := "web" }

/-- The client reads a snapshot and loses the connection; the event comes before it
is back. -/
def whileAway : Resumption where
  maxEvents := 128
  decorate := id
  before := []
  during := [.publish 0 { at_ := second } [], .receive 1, .close 1,
    .publish 0 { at_ := 2 * second } [oom]]
  read := 1
  gap := []
  after := [.receive 2]

theorem whileAway_exact : whileAway.seen = [{ oom with id := 3 }] ∧ whileAway.Exact := by
  have hanon : ∀ a ∈ whileAway.before ++ whileAway.during ++ whileAway.gap ++ whileAway.after,
      a.Anonymous := by
    intro a ha wallClock snapshot events heq e he
    subst heq
    simp [whileAway] at ha
    rcases ha with ⟨-, -, rfl⟩ | ⟨-, -, rfl⟩
    · cases he
    · rw [List.mem_singleton.mp he]
      rfl
  refine ⟨by decide +kernel, (resume_exact_iff ⟨hanon, List.not_mem_nil⟩ ?_).mpr ?_⟩
  · intro n hn
    have hlast : whileAway.lastEventID = some 1 := by decide +kernel
    rw [hlast, Option.some.injEq] at hn
    subst hn
    decide +kernel
  · refine ⟨by decide +kernel, by decide +kernel, ?_⟩
    have hpublished : whileAway.published = [{ oom with id := 3 }] := by decide +kernel
    intro e he
    rw [hpublished, List.mem_singleton] at he
    subst he
    exact ⟨by decide +kernel, 1, by decide +kernel, by decide⟩

/-- The client reads the snapshot and the event of one `Publish`, reconnects and
has missed nothing. -/
def readLive : Resumption where
  maxEvents := 128
  decorate := id
  before := []
  during := [.publish 0 { at_ := second } [oom], .receive 1, .receive 1, .close 1]
  read := 2
  gap := []
  after := [.receive 2]

/-- The event came live under the id 0, so the client asks for the events after 0 and
is shown the same event again, under the number 2. -/
theorem live_event_replayed :
    readLive.Proper ∧ readLive.WithinCapacity ∧
      readLive.firstFrames.map Frame.id = [1, 0] ∧
      readLive.published = [{ oom with id := 2 }] ∧
      readLive.seen = [{ oom with id := 0 }, { oom with id := 2 }] ∧ ¬readLive.Exact := by
  refine ⟨⟨?_, List.not_mem_nil⟩, ?_, by decide +kernel⟩
  · intro a ha wallClock snapshot events heq e he
    subst heq
    simp [readLive] at ha
    rw [ha.2.2, List.mem_singleton] at he
    rw [he]
    rfl
  · intro n hn
    have hlast : readLive.lastEventID = some 0 := by decide +kernel
    rw [hlast, Option.some.injEq] at hn
    subst hn
    decide +kernel

end Resumption

end Binnacle.Api
