import Binnacle.Channel
import Binnacle.Metrics.Types
import Mathlib.Data.List.Nodup

/-!
# The metrics engine (`internal/metrics/engine.go`)

The engine holds the last snapshot, a window of recent events and one bounded
channel for each live subscriber. Its methods run under one mutex, so to one
another each is one step; receives do not take it, and `Metrics.Bookkeeping` lets
them come between the channel operations of a `Publish`. `subscribers`, the older
map of snapshot channels, is left out: nothing ever adds to it.

- `assign_zero`: events passed without an id get the consecutive numbers after
  the snapshot's;
- `Engine.Numbers`: the numbers given so far are positive and increasing, and the
  window holds the last events numbered.
-/

namespace Binnacle.Metrics

open Concurrent

/-- `LiveMessage` (engine.go:36-39): one of its two pointers is set. -/
inductive LiveMessage where
  | snapshot (s : Snapshot)
  | event (e : Event)
  deriving DecidableEq

/-- The channel of a subscription (engine.go:104). -/
abbrev LiveChannel := Channel LiveMessage 33

/-- `Engine` (engine.go:11-21). `live` lists the keys of the map of that name;
`channels` also keeps the channels that were taken out of it, whose buffered
messages a subscriber can still receive. -/
structure Engine where
  snapshot : Snapshot := {}
  events : List Event := []
  filesystems : List FilesystemObservation := []
  maxEvents : Nat
  live : List Nat := []
  channels : Nat → LiveChannel := fun _ => Channel.make
  nextSub : Nat := 0
  nextMessage : Nat := 0

/-- `NewEngine` (engine.go:29-34). -/
def newEngine (maxEvents : Int) : Engine where
  maxEvents := if maxEvents < 1 then 128 else maxEvents.toNat

/-- `PersistenceBatch` (engine.go:23-27). -/
def Engine.persistenceBatch (e : Engine) : PersistenceBatch where
  snapshot := e.snapshot
  events := e.events
  filesystems := e.filesystems

/-! ## Publishing -/

/-- The loop that numbers events (engine.go:64-71): the stored copies of the
events and the last number given. -/
def assign (nextMessage : Nat) : List Event → List Event × Nat
  | [] => ([], nextMessage)
  | event :: events =>
    if event.id = 0 then
      let rest := assign (nextMessage + 1) events
      ({ event with id := nextMessage + 1 } :: rest.1, rest.2)
    else
      let rest := assign nextMessage events
      (event :: rest.1, rest.2)

/-- The last `maxEvents` events (engine.go:72-74). -/
def keepLast (maxEvents : Nat) (events : List Event) : List Event :=
  if events.length > maxEvents then events.drop (events.length - maxEvents) else events

/-- `sendLive` (engine.go:150-168). -/
def sendLive (ch : LiveChannel) : LiveMessage → LiveChannel × Bool
  | .snapshot s => (ch.replaceHead (.snapshot s), true)
  | .event event =>
    match ch.trySend (.event event) with
    | some ch' => (ch', true)
    | none => (ch, false)

/-- The loop over the events of one `Publish` for one channel (engine.go:87-94):
the channel, and whether it is still registered. -/
def sendEvents (ch : LiveChannel) : List Event → LiveChannel × Bool
  | [] => (ch, true)
  | event :: events =>
    let sent := sendLive ch (.event event)
    if sent.2 then sendEvents sent.1 events else (sent.1.close, false)

/-- One round of the loop over `e.live` (engine.go:85-95). The events are the
caller's: the numbers `assign` gives are on other copies. -/
def deliver (snapshot : Snapshot) (events : List Event) (ch : LiveChannel) : LiveChannel × Bool :=
  sendEvents (sendLive ch (.snapshot snapshot)).1 events

/-- The snapshot as `Publish` stores it (engine.go:55-61). -/
def stamp (sequence : Nat) (wallClock : Time) (snapshot : Snapshot) : Snapshot :=
  { snapshot with
    sequence
    at_ := if snapshot.at_ = zeroTime then wallClock else snapshot.at_ }

/-- `Publish` (engine.go:52-96). The rounds of the loop over `e.live` work on
different channels, so their order does not matter. -/
def Engine.publish (e : Engine) (wallClock : Time) (snapshot : Snapshot) (events : List Event) :
    Engine :=
  let stored := stamp (e.nextMessage + 1) wallClock snapshot
  let numbered := assign (e.nextMessage + 1) events
  let sent := fun id => deliver stored events (e.channels id)
  { e with
    nextMessage := numbered.2
    snapshot := stored
    events := keepLast e.maxEvents (e.events ++ numbered.1)
    live := e.live.filter fun id => (sent id).2
    channels := fun id => if id ∈ e.live then (sent id).1 else e.channels id }

variable {events : List Event}

theorem mem_assign {e : Event} {n : Nat} (h : e ∈ (assign n events).1) :
    ∃ e' ∈ events, ∃ id, e = { e' with id } := by
  induction events generalizing n with
  | nil => cases h
  | cons event events ih =>
    have hrest : ∀ {k : Nat}, e ∈ (assign k events).1 →
        ∃ e' ∈ event :: events, ∃ id, e = { e' with id } := by
      intro k hk
      obtain ⟨e', he', hid⟩ := ih hk
      exact ⟨e', List.mem_cons_of_mem _ he', hid⟩
    unfold assign at h
    split at h
    · rcases List.mem_cons.mp h with rfl | h
      · exact ⟨event, List.mem_cons_self, _, rfl⟩
      · exact hrest h
    · rcases List.mem_cons.mp h with rfl | h
      · exact ⟨e, List.mem_cons_self, _, rfl⟩
      · exact hrest h

theorem mem_publish_events {engine : Engine} {wallClock : Time} {snapshot : Snapshot} {e : Event}
    (h : e ∈ (engine.publish wallClock snapshot events).events) :
    e ∈ engine.events ∨ ∃ e' ∈ events, ∃ id, e = { e' with id } := by
  have hall : e ∈ engine.events ++ (assign (engine.nextMessage + 1) events).1 := by
    replace h : e ∈ keepLast _ _ := h
    unfold keepLast at h
    split at h
    · exact List.mem_of_mem_drop h
    · exact h
  exact (List.mem_append.mp hall).imp_right mem_assign

/-! ## Subscribing and reading -/

/-- `Subscribe` (engine.go:98-119); the id of the subscription is `nextSub`. -/
def Engine.subscribe (e : Engine) : Engine :=
  let id := e.nextSub + 1
  let ch : LiveChannel :=
    if e.snapshot.sequence > 0 then (sendLive Channel.make (.snapshot e.snapshot)).1
    else Channel.make
  { e with
    nextSub := id
    live := id :: e.live
    channels := fun i => if i = id then ch else e.channels i }

/-- `Subscription.Close` (engine.go:109-116). -/
def Engine.closeSubscription (e : Engine) (id : Nat) : Engine :=
  if id ∈ e.live then
    { e with
      live := e.live.filter (· ≠ id)
      channels := fun i => if i = id then (e.channels i).close else e.channels i }
  else
    e

/-- A receive from `Subscription.C`. -/
def Engine.receive (e : Engine) (id : Nat) : Option (LiveMessage × Engine) :=
  (e.channels id).receive.map fun r =>
    (r.1, { e with channels := fun i => if i = id then r.2 else e.channels i })

/-- `PublishFilesystems` (engine.go:120-124). -/
def Engine.publishFilesystems (e : Engine) (obs : List FilesystemObservation) : Engine :=
  { e with filesystems := obs }

/-- `EventsAfter` (engine.go:127-137). -/
def Engine.eventsAfter (e : Engine) (id : Nat) : List Event :=
  e.events.filter fun v => v.id > id

/-! ## Numbers -/

/-- Events numbered from `n + 1` on. -/
def numberFrom (n : Nat) (events : List Event) : List Event :=
  (events.zipIdx (n + 1)).map fun p => { p.1 with id := p.2 }

theorem assign_zero (h : ∀ event ∈ events, event.id = 0) (n : Nat) :
    assign n events = (numberFrom n events, n + events.length) := by
  induction events generalizing n with
  | nil => rfl
  | cons event events ih =>
    have hevent : event.id = 0 := h event List.mem_cons_self
    have hrest := ih (fun e he => h e (List.mem_cons_of_mem event he)) (n + 1)
    simp only [assign, hevent, if_true, hrest, numberFrom, List.zipIdx_cons, List.map_cons,
      List.length_cons]
    congr 1
    omega

theorem map_id_numberFrom (n : Nat) (events : List Event) :
    (numberFrom n events).map Event.id = List.range' (n + 1) events.length := by
  simp [numberFrom, List.map_map, Function.comp_def, List.zipIdx_map_snd]

theorem mem_numberFrom_id {n : Nat} {event : Event} (h : event ∈ numberFrom n events) :
    n < event.id ∧ event.id ≤ n + events.length := by
  have hmem : event.id ∈ (numberFrom n events).map Event.id := List.mem_map_of_mem h
  rw [map_id_numberFrom, List.mem_range'_1] at hmem
  omega

theorem keepLast_eq_drop (maxEvents : Nat) (events : List Event) :
    keepLast maxEvents events = events.drop (events.length - maxEvents) := by
  unfold keepLast
  split
  · rfl
  · next h => rw [Nat.sub_eq_zero_of_le (Nat.not_lt.mp h), List.drop_zero]

theorem keepLast_append (maxEvents : Nat) (events more : List Event) :
    keepLast maxEvents (keepLast maxEvents events ++ more)
      = keepLast maxEvents (events ++ more) := by
  simp only [keepLast_eq_drop, List.length_append, List.length_drop, List.drop_append,
    List.drop_drop]
  congr 2 <;> omega

/-- What the numbers of an engine are worth: `numbered` are the events it has
numbered so far, oldest first. -/
structure Engine.Numbers (e : Engine) (numbered : List Event) : Prop where
  increasing : numbered.Pairwise fun a b => a.id < b.id
  positive : ∀ event ∈ numbered, 0 < event.id
  bounded : ∀ event ∈ numbered, event.id ≤ e.nextMessage
  window : e.events = keepLast e.maxEvents numbered

theorem numbers_newEngine (maxEvents : Int) : (newEngine maxEvents).Numbers [] :=
  ⟨.nil, nofun, nofun, by simp [newEngine, keepLast]⟩

namespace Engine.Numbers

variable {e : Engine} {numbered : List Event}

theorem mem_of_window (h : e.Numbers numbered) {event : Event} (hevent : event ∈ e.events) :
    event ∈ numbered := by
  rw [h.window, keepLast_eq_drop] at hevent
  exact List.mem_of_mem_drop hevent

theorem nodup (h : e.Numbers numbered) : (numbered.map Event.id).Nodup :=
  List.Pairwise.map Event.id (fun _ _ hab => Nat.ne_of_lt hab) h.increasing

theorem eq_of_id (h : e.Numbers numbered) {a b : Event} (ha : a ∈ numbered) (hb : b ∈ numbered)
    (hid : a.id = b.id) : a = b :=
  List.inj_on_of_nodup_map h.nodup ha hb hid

/-- As long as no more events than the window holds were numbered after `n`,
`EventsAfter` finds all of them. -/
theorem eventsAfter_eq (h : e.Numbers numbered) {n : Nat}
    (hcap : (numbered.filter fun event => event.id > n).length ≤ e.maxEvents) :
    e.eventsAfter n = numbered.filter fun event => event.id > n := by
  have hsplit := List.take_append_drop (numbered.length - e.maxEvents) numbered
  unfold Engine.eventsAfter
  rw [h.window, keepLast_eq_drop]
  -- an event that fell out of the window is older than all that are in it
  have hold : ∀ event ∈ numbered.take (numbered.length - e.maxEvents), ¬event.id > n := by
    intro event hevent hn
    have hlater : ∀ later ∈ numbered.drop (numbered.length - e.maxEvents), later.id > n := by
      intro later hlater
      have hpair := h.increasing
      rw [← hsplit] at hpair
      exact Nat.lt_trans hn ((List.pairwise_append.mp hpair).2.2 event hevent later hlater)
    have hall : (numbered.drop (numbered.length - e.maxEvents)).filter (fun ev => ev.id > n)
        = numbered.drop (numbered.length - e.maxEvents) :=
      List.filter_eq_self.mpr fun later hl => by simpa using hlater later hl
    have hone : 0 < ((numbered.take (numbered.length - e.maxEvents)).filter
        fun ev => ev.id > n).length :=
      List.length_pos_of_mem (List.mem_filter.mpr ⟨hevent, by simpa using hn⟩)
    have hlen := List.length_pos_of_mem hevent
    rw [← hsplit, List.filter_append, List.length_append, hall, List.length_drop] at hcap
    rw [List.length_take] at hlen
    omega
  have hnil : (numbered.take (numbered.length - e.maxEvents)).filter (fun ev => ev.id > n) = [] :=
    List.filter_eq_nil_iff.mpr fun event hevent => by simpa using hold event hevent
  conv_rhs => rw [← hsplit, List.filter_append, hnil, List.nil_append]

theorem publish (h : e.Numbers numbered) (wallClock : Time) (snapshot : Snapshot)
    {events : List Event} (hzero : ∀ event ∈ events, event.id = 0) :
    (e.publish wallClock snapshot events).Numbers
      (numbered ++ (assign (e.nextMessage + 1) events).1) := by
  have hassign := assign_zero hzero (e.nextMessage + 1)
  have hnew : ∀ event ∈ numberFrom (e.nextMessage + 1) events,
      e.nextMessage < event.id ∧ event.id ≤ e.nextMessage + 1 + events.length := by
    intro event hevent
    obtain ⟨hlo, hhi⟩ := mem_numberFrom_id hevent
    exact ⟨by omega, hhi⟩
  have hlast : (e.publish wallClock snapshot events).nextMessage
      = e.nextMessage + 1 + events.length := by
    show (assign (e.nextMessage + 1) events).2 = _
    rw [hassign]
  rw [hassign]
  refine ⟨?_, ?_, ?_, ?_⟩
  · refine List.pairwise_append.mpr ⟨h.increasing, ?_, fun a ha b hb => ?_⟩
    · have hlt : ((numberFrom (e.nextMessage + 1) events).map Event.id).Pairwise (· < ·) := by
        rw [map_id_numberFrom]
        exact List.pairwise_lt_range'
      exact List.pairwise_map.mp hlt
    · exact Nat.lt_of_le_of_lt (h.bounded a ha) (hnew b hb).1
  · intro event hevent
    rcases List.mem_append.mp hevent with hevent | hevent
    · exact h.positive event hevent
    · exact Nat.lt_of_le_of_lt (Nat.zero_le _) (hnew event hevent).1
  · intro event hevent
    rw [hlast]
    rcases List.mem_append.mp hevent with hevent | hevent
    · have := h.bounded event hevent
      omega
    · exact (hnew event hevent).2
  · show keepLast e.maxEvents (e.events ++ (assign (e.nextMessage + 1) events).1) = _
    rw [hassign, h.window, keepLast_append]
    rfl

end Engine.Numbers

/-! ## What a `Publish` does to a channel -/

theorem sendEvents_eq (ch : LiveChannel) (events : List Event) :
    (sendEvents ch events).1.buffer
        = ch.buffer ++ (events.take (33 - ch.buffer.length)).map .event ∧
      (sendEvents ch events).2 = decide (events.length ≤ 33 - ch.buffer.length) ∧
      (sendEvents ch events).1.closed = (ch.closed || !(sendEvents ch events).2) := by
  -- each accepted event takes one of the free slots, so the free slots count down
  induction events generalizing ch with
  | nil => simp [sendEvents]
  | cons event events ih =>
    cases hs : ch.trySend (.event event) with
    | none =>
      have hfull : ch.buffer.length = 33 := Channel.trySend_eq_none_iff.mp hs
      simp [sendEvents, sendLive, hs, hfull]
    | some ch' =>
      obtain ⟨hlt, hbuf, hclosed⟩ := Channel.trySend_eq_some hs
      obtain ⟨ihbuf, ihreg, ihclosed⟩ := ih ch'
      have hlen : ch'.buffer.length = ch.buffer.length + 1 := by rw [hbuf]; simp
      have hfree : 33 - ch.buffer.length = (33 - ch'.buffer.length) + 1 := by omega
      have hstep : sendEvents ch (event :: events) = sendEvents ch' events := by
        simp [sendEvents, sendLive, hs]
      rw [hstep]
      refine ⟨?_, ?_, ?_⟩
      · rw [ihbuf, hfree, List.take_succ_cons, List.map_cons, hlen, hbuf, List.append_assoc,
          List.singleton_append]
      · rw [ihreg, hfree]
        simp
      · rw [ihclosed, hclosed]

/-- The free slots for events once the snapshot of a `Publish` is queued. -/
def room (ch : LiveChannel) : Nat := 33 - (ch.buffer.tail.length + 1)

/-- A `Publish` drops the oldest message of the channel, appends the snapshot
and as many events as fit, and closes the channel if not all of them do. -/
theorem deliver_eq (snapshot : Snapshot) (events : List Event) (ch : LiveChannel) :
    (deliver snapshot events ch).1.buffer
        = ch.buffer.tail ++ .snapshot snapshot :: (events.take (room ch)).map .event ∧
      (deliver snapshot events ch).2 = decide (events.length ≤ room ch) ∧
      (deliver snapshot events ch).1.closed = (ch.closed || !(deliver snapshot events ch).2) := by
  obtain ⟨hbuf, hclosed⟩ := ch.buffer_replaceHead (by decide) (.snapshot snapshot)
  obtain ⟨hebuf, hereg, heclosed⟩ := sendEvents_eq (ch.replaceHead (.snapshot snapshot)) events
  have hlen : (ch.replaceHead (.snapshot snapshot)).buffer.length = ch.buffer.tail.length + 1 := by
    rw [hbuf, List.length_append, List.length_singleton]
  rw [hlen] at hebuf hereg
  refine ⟨?_, hereg, ?_⟩
  · show (sendEvents (ch.replaceHead (.snapshot snapshot)) events).1.buffer = _
    rw [hebuf, hbuf, List.append_assoc, List.singleton_append]
    rfl
  · show (sendEvents (ch.replaceHead (.snapshot snapshot)) events).1.closed = _
    rw [heclosed, hclosed]
    rfl

/-! ## Registered channels are open -/

/-- Registered subscriptions are distinct, were handed out, and their channels
are open, so that nothing is ever sent on a closed channel. -/
structure Engine.WellFormed (e : Engine) : Prop where
  nodup : e.live.Nodup
  issued : ∀ id ∈ e.live, id ≤ e.nextSub
  opened : ∀ id ∈ e.live, (e.channels id).closed = false
  unused : ∀ id, e.nextSub < id → e.channels id = Channel.make

theorem wellFormed_newEngine (maxEvents : Int) : (newEngine maxEvents).WellFormed :=
  ⟨List.nodup_nil, nofun, nofun, fun _ _ => rfl⟩

namespace Engine.WellFormed

variable {e : Engine}

theorem publish (h : e.WellFormed) (wallClock : Time) (snapshot : Snapshot)
    (events : List Event) : (e.publish wallClock snapshot events).WellFormed where
  nodup := h.nodup.filter _
  issued id hid := h.issued id (List.mem_of_mem_filter hid)
  opened id hid := by
    obtain ⟨hlive, hreg⟩ := List.mem_filter.mp hid
    obtain ⟨-, -, hclosed⟩ := deliver_eq (stamp (e.nextMessage + 1) wallClock snapshot) events
      (e.channels id)
    simp only [Engine.publish, if_pos hlive]
    rw [hclosed, h.opened id hlive, hreg]
    rfl
  unused id hid := by
    have hnot : id ∉ e.live := fun hmem => Nat.not_lt.mpr (h.issued id hmem) hid
    simp only [Engine.publish, if_neg hnot]
    exact h.unused id hid

theorem subscribe (h : e.WellFormed) : e.subscribe.WellFormed where
  nodup := by
    refine List.nodup_cons.mpr ⟨fun hmem => ?_, h.nodup⟩
    exact Nat.not_succ_le_self _ (h.issued _ hmem)
  issued id hid := by
    rcases List.mem_cons.mp hid with rfl | hid
    · exact Nat.le_refl _
    · exact Nat.le_succ_of_le (h.issued id hid)
  opened id hid := by
    simp only [Engine.subscribe]
    split
    · split
      · exact ((Channel.make : LiveChannel).buffer_replaceHead (by decide) _).2
      · rfl
    · next hne =>
      rcases List.mem_cons.mp hid with rfl | hid
      · exact absurd rfl hne
      · exact h.opened id hid
  unused id hid := by
    have hlt : e.nextSub + 1 < id := hid
    simp only [Engine.subscribe]
    rw [if_neg (Nat.ne_of_gt hlt)]
    exact h.unused id (by omega)

theorem closeSubscription (h : e.WellFormed) (i : Nat) : (e.closeSubscription i).WellFormed := by
  unfold Engine.closeSubscription
  split
  · next hi =>
    refine ⟨h.nodup.filter _, fun id hid => h.issued id (List.mem_of_mem_filter hid), ?_, ?_⟩
    · intro id hid
      obtain ⟨hlive, hne⟩ := List.mem_filter.mp hid
      simp only [ne_eq, decide_not, Bool.not_eq_eq_eq_not, Bool.not_true,
        decide_eq_false_iff_not] at hne
      simp only [if_neg hne]
      exact h.opened id hlive
    · intro id hid
      have hne : id ≠ i := by
        rintro rfl
        exact Nat.not_lt.mpr (h.issued id hi) hid
      simp only [if_neg hne]
      exact h.unused id hid
  · exact h

theorem receive (h : e.WellFormed) {i : Nat} {msg : LiveMessage} {e' : Engine}
    (hr : e.receive i = some (msg, e')) : e'.WellFormed := by
  obtain ⟨⟨msg', ch⟩, hch, heq⟩ := Option.map_eq_some_iff.mp hr
  cases heq
  obtain ⟨hbuf, hclosed⟩ := Channel.receive_eq_some hch
  refine ⟨h.nodup, h.issued, fun id hid => ?_, fun id hid => ?_⟩
  · by_cases hi : id = i
    · subst hi
      simp only [if_true, hclosed]
      exact h.opened id hid
    · simp only [if_neg hi]
      exact h.opened id hid
  · have hne : id ≠ i := by
      rintro rfl
      rw [h.unused id hid] at hbuf
      cases hbuf
    simp only [if_neg hne]
    exact h.unused id hid

end Engine.WellFormed

end Binnacle.Metrics
