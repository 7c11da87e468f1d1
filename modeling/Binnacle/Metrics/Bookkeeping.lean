import Binnacle.Metrics.Engine
import Binnacle.Runs

/-!
# Bookkeeping of the engine

`Publish`, `Subscribe`, `Close` and `EventsAfter` hold the mutex of the engine, a
receive does not: it can come between any two channel operations of one
`Publish`. So here a `Publish` numbers and stores first, and then makes one
channel operation after the other.

- `Server.act`: the calls, and the channel operations and receives between them;
- `bookkeeping_safe`: numbers increase, the newest events are stored, and no
  closed channel is sent on or closed.
-/

namespace Binnacle.Metrics

open Concurrent Runs

/-- A channel operation of `Publish` (engine.go:85-95, 150-168). -/
inductive Op where
  /-- `case <-ch` before a snapshot. -/
  | discard (id : Nat)
  | send (id : Nat) (m : LiveMessage)

def Op.id : Op → Nat
  | .discard id | .send id _ => id

/-- The engine, what the running `Publish` still has to do, and, for the statements about them,
all numbers given so far and all events numbered, in order. -/
structure Server where
  engine : Engine
  pending : List Op := []
  given : List Nat := []
  numbered : List Event := []

/-- The operations of one `Publish`. -/
def operations (order : List Nat) (snapshot : Snapshot) (events : List Event) : List Op :=
  order.flatMap fun id =>
    .discard id :: .send id (.snapshot snapshot) :: events.map fun event => .send id (.event event)

/-- `Publish` up to the loop over the channels (engine.go:52-74), which visits them in `order`. -/
def Server.publish (s : Server) (wallClock : Time) (snapshot : Snapshot) (events : List Event)
    (order : List Nat) : Server :=
  let engine := s.engine.publish wallClock snapshot events
  let stored := (assign (s.engine.nextMessage + 1) events).1
  { engine := { engine with live := s.engine.live, channels := s.engine.channels }
    pending := operations order engine.snapshot events
    given := s.given ++ engine.snapshot.sequence :: stored.map Event.id
    numbered := s.numbered ++ stored }

def Engine.setChannel (e : Engine) (id : Nat) (ch : LiveChannel) : Engine :=
  { e with channels := Function.update e.channels id ch }

def Server.operate (s : Server) : Server :=
  match s.pending with
  | [] => s
  | .discard id :: rest =>
    { s with engine := s.engine.setChannel id (s.engine.channels id).discard, pending := rest }
  | .send id m :: rest =>
    match (s.engine.channels id).trySend m, m with
    | some ch, _ => { s with engine := s.engine.setChannel id ch, pending := rest }
    | none, .snapshot _ => { s with pending := rest }
    | none, .event _ => { s with
        engine := s.engine.closeSubscription id
        pending := rest.filter fun op => op.id ≠ id }

/-- What happens. -/
inductive Act where
  | publish (wallClock : Time) (snapshot : Snapshot) (events : List Event) (order : List Nat)
  | operate
  | receive (id : Nat)
  | subscribe
  | close (id : Nat)

def Server.act (s : Server) : Act → Server
  | .publish wallClock snapshot events order => s.publish wallClock snapshot events order
  | .operate => s.operate
  | .receive id => { s with engine := ((s.engine.receive id).map Prod.snd).getD s.engine }
  | .subscribe => { s with engine := s.engine.subscribe }
  | .close id => { s with engine := s.engine.closeSubscription id }

/-- The mutex is free when no operation is pending. `Publish` gets events without an id and visits
the keys of the map in any order. -/
def Act.Enabled (s : Server) : Act → Prop
  | .publish _ _ events order =>
    s.pending = [] ∧ (∀ event ∈ events, event.id = 0) ∧ order.Perm s.engine.live
  | .subscribe | .close _ => s.pending = []
  | .operate | .receive _ => True

def Act.touches (s : Server) : Act → Option Nat
  | .operate =>
    match s.pending with
    | .send id _ :: _ => some id
    | _ => none
  | .close id => if id ∈ s.engine.live then some id else none
  | _ => none

/-- What every act keeps. -/
structure Kept (s : Server) : Prop where
  engine : s.engine.WellFormed
  pending : ∀ op ∈ s.pending, op.id ∈ s.engine.live
  increasing : s.given.Pairwise (· < ·)
  bounded : ∀ n ∈ s.given, n ≤ s.engine.nextMessage
  numbers : s.engine.Numbers s.numbered

variable {s : Server}

/-- **`Publish` never waits**: whatever the channels hold, its next operation is made. -/
theorem Server.operate_lt (h : s.pending ≠ []) : s.operate.pending.length < s.pending.length := by
  unfold Server.operate
  split
  · next hnil => exact absurd hnil h
  · next hp => simp [hp]
  · next hp =>
    have hle : ∀ (p : Op → Bool) (rest : List Op), (rest.filter p).length ≤ rest.length :=
      fun p rest => List.length_filter_le p rest
    split
    · simp [hp]
    · simp [hp]
    · rw [hp]
      exact Nat.lt_succ_of_le (hle _ _)

theorem wellFormed_setChannel {e : Engine} (h : e.WellFormed) {id : Nat} (hid : id ∈ e.live)
    {ch : LiveChannel} (hopen : ch.closed = false) : (e.setChannel id ch).WellFormed := by
  refine ⟨h.nodup, h.issued, fun i hi => ?_, fun i hi => ?_⟩
  · simp only [Engine.setChannel, Function.update_apply]
    split
    · exact hopen
    · exact h.opened i hi
  · have hne : i ≠ id := fun heq => Nat.not_lt.mpr (h.issued id hid) (heq ▸ hi)
    simp only [Engine.setChannel, Function.update_of_ne hne]
    exact h.unused i hi

theorem closeSubscription_frame (e : Engine) (id : Nat) :
    (e.closeSubscription id).nextMessage = e.nextMessage ∧
      (e.closeSubscription id).events = e.events ∧
      (e.closeSubscription id).maxEvents = e.maxEvents ∧
      ∀ i ∈ e.live, i ≠ id → i ∈ (e.closeSubscription id).live := by
  unfold Engine.closeSubscription
  split
  · exact ⟨rfl, rfl, rfl, fun i hi hne => List.mem_filter.mpr ⟨hi, decide_eq_true hne⟩⟩
  · exact ⟨rfl, rfl, rfl, fun i hi _ => hi⟩

theorem Kept.of_frame (h : Kept s) {e : Engine} (hwf : e.WellFormed) {pending : List Op}
    (hpending : ∀ op ∈ pending, op.id ∈ e.live) (hnext : e.nextMessage = s.engine.nextMessage)
    (hevents : e.events = s.engine.events) (hmax : e.maxEvents = s.engine.maxEvents) :
    Kept { s with engine := e, pending } where
  engine := hwf
  pending := hpending
  increasing := h.increasing
  bounded := hnext ▸ h.bounded
  numbers := ⟨h.numbers.increasing, h.numbers.positive, hnext ▸ h.numbers.bounded,
    by rw [hevents, hmax]; exact h.numbers.window⟩

theorem Kept.operate (h : Kept s) : Kept s.operate := by
  unfold Server.operate
  split
  · exact h
  · next id rest hp =>
    have hid : id ∈ s.engine.live := h.pending (.discard id) (by rw [hp]; exact List.mem_cons_self)
    have hrest : ∀ op ∈ rest, op.id ∈ s.engine.live := fun op hop =>
      h.pending op (by rw [hp]; exact List.mem_cons_of_mem _ hop)
    have hopen : (s.engine.channels id).discard.closed = false := h.engine.opened id hid
    exact h.of_frame (wellFormed_setChannel h.engine hid hopen) hrest rfl rfl rfl
  · next id m rest hp =>
    have hid : id ∈ s.engine.live := h.pending (.send id m) (by rw [hp]; exact List.mem_cons_self)
    have hrest : ∀ op ∈ rest, op.id ∈ s.engine.live := fun op hop =>
      h.pending op (by rw [hp]; exact List.mem_cons_of_mem _ hop)
    split
    · next ch hsend =>
      obtain ⟨-, -, hclosed⟩ := Channel.trySend_eq_some hsend
      have hopen := hclosed.trans (h.engine.opened id hid)
      exact h.of_frame (wellFormed_setChannel h.engine hid hopen) hrest rfl rfl rfl
    · exact h.of_frame h.engine hrest rfl rfl rfl
    · -- the rest of the loop for this channel is not executed
      obtain ⟨hnext, hevents, hmax, hlive⟩ := closeSubscription_frame s.engine id
      refine h.of_frame (h.engine.closeSubscription id) (fun op hop => ?_) hnext hevents hmax
      obtain ⟨hop, hne⟩ := List.mem_filter.mp hop
      exact hlive op.id (hrest op hop) (of_decide_eq_true hne)

theorem Kept.publish (h : Kept s) (wallClock : Time) (snapshot : Snapshot) {events : List Event}
    (hzero : ∀ event ∈ events, event.id = 0) {order : List Nat}
    (horder : order.Perm s.engine.live) :
    Kept (s.publish wallClock snapshot events order) := by
  have hnumbers := h.numbers.publish wallClock snapshot hzero
  have hassign := assign_zero hzero (s.engine.nextMessage + 1)
  have hnext : (s.publish wallClock snapshot events order).engine.nextMessage =
      s.engine.nextMessage + 1 + events.length := congrArg Prod.snd hassign
  have hgiven : (s.publish wallClock snapshot events order).given =
      s.given ++ List.range' (s.engine.nextMessage + 1) (events.length + 1) := by
    show s.given ++ (s.engine.nextMessage + 1) :: ((assign _ events).1.map Event.id) = _
    rw [hassign, map_id_numberFrom, List.range'_succ]
  constructor
  case engine => exact ⟨h.engine.nodup, h.engine.issued, h.engine.opened, h.engine.unused⟩
  case pending =>
    intro op hop
    obtain ⟨id, hid, hop⟩ := List.mem_flatMap.mp hop
    simp only [List.mem_cons, List.mem_map] at hop
    rcases hop with rfl | rfl | ⟨event, -, rfl⟩ <;> exact horder.mem_iff.mp hid
  case increasing =>
    rw [hgiven]
    refine List.pairwise_append.mpr ⟨h.increasing, List.pairwise_lt_range', fun a ha b hb => ?_⟩
    have hle := h.bounded a ha
    have hmem := List.mem_range'_1.mp hb
    omega
  case bounded =>
    rw [hgiven, hnext]
    intro a ha
    rcases List.mem_append.mp ha with ha | ha
    · have hle := h.bounded a ha
      omega
    · have hmem := List.mem_range'_1.mp ha
      omega
  case numbers =>
    exact ⟨hnumbers.increasing, hnumbers.positive, hnumbers.bounded, hnumbers.window⟩

theorem Kept.act (h : Kept s) {a : Act} (ha : a.Enabled s) : Kept (s.act a) := by
  cases a with
  | publish wallClock snapshot events order => exact h.publish wallClock snapshot ha.2.1 ha.2.2
  | operate => exact h.operate
  | receive id =>
    show Kept { s with engine := ((s.engine.receive id).map Prod.snd).getD s.engine }
    cases hr : s.engine.receive id with
    | none => exact h
    | some r =>
      have hwf := h.engine.receive hr
      obtain ⟨r', -, rfl⟩ := Option.map_eq_some_iff.mp hr
      exact h.of_frame hwf h.pending rfl rfl rfl
  | subscribe =>
    refine h.of_frame h.engine.subscribe (fun op hop => ?_) rfl rfl rfl
    exact List.mem_cons_of_mem _ (h.pending op hop)
  | close id =>
    obtain ⟨hnext, hevents, hmax, -⟩ := closeSubscription_frame s.engine id
    refine h.of_frame (h.engine.closeSubscription id) (fun op hop => ?_) hnext hevents hmax
    rw [show s.pending = [] from ha] at hop
    cases hop

theorem Kept.open_of_touches (h : Kept s) {a : Act} {id : Nat} (ha : a.touches s = some id) :
    (s.engine.channels id).closed = false := by
  refine h.engine.opened id ?_
  unfold Act.touches at ha
  split at ha
  · split at ha
    · next m rest hp =>
      cases ha
      exact h.pending (.send id m) (by rw [hp]; exact List.mem_cons_self)
    · cases ha
  · split at ha
    · next hid =>
      cases ha
      exact hid
    · cases ha
  · cases ha

/-- **Engine bookkeeping is safe.** In every run the numbers of snapshots and events increase,
the stored events are the newest ones, `EventsAfter` lists those above its argument in order,
and whatever is sent on or closed is open. -/
theorem bookkeeping_safe (maxEvents : Int) {acts : List Act}
    (hacts : Along Server.act Act.Enabled { engine := newEngine maxEvents } acts) :
    let s := acts.foldl Server.act { engine := newEngine maxEvents }
    s.given.Pairwise (· < ·) ∧ (s.engine.events.map Event.id).Pairwise (· < ·) ∧
      s.engine.events = s.numbered.drop (s.numbered.length - s.engine.maxEvents) ∧
      (∀ n, (s.engine.eventsAfter n).Sublist s.engine.events ∧
        ∀ event, event ∈ s.engine.eventsAfter n ↔ event ∈ s.engine.events ∧ n < event.id) ∧
      (∀ (a : Act) (id : Nat), a.touches s = some id → (s.engine.channels id).closed = false) ∧
      (s.pending ≠ [] → s.operate.pending.length < s.pending.length) := by
  intro s
  have hkept : Kept s := hacts.invariant (I := Kept) (fun _ _ h ha => h.act ha)
    ⟨wellFormed_newEngine maxEvents, fun _ h => (nomatch h), .nil, fun _ h => (nomatch h),
      numbers_newEngine maxEvents⟩
  have hwindow := hkept.numbers.window
  rw [keepLast_eq_drop] at hwindow
  refine ⟨hkept.increasing, ?_, hwindow, fun n => ⟨List.filter_sublist, fun event => ?_⟩,
    fun a id ha => hkept.open_of_touches ha, Server.operate_lt⟩
  · rw [hwindow, List.pairwise_map]
    exact hkept.numbers.increasing.sublist (List.drop_sublist _ _)
  · simp [Engine.eventsAfter, List.mem_filter]

/-- The subscriber receives between two operations of one `Publish`. -/
def receivedMeanwhile : List Act :=
  [.subscribe, .publish zeroTime {} [{ at_ := zeroTime, type := "started" }] [1],
    .operate, .operate, .receive 1]

theorem bookkeeping_safe_received :
    let s := receivedMeanwhile.foldl Server.act { engine := newEngine 8 }
    s.given = [1, 2] ∧ s.operate.pending.length < s.pending.length := by
  have hacts : Along Server.act Act.Enabled { engine := newEngine 8 } receivedMeanwhile :=
    ⟨rfl, ⟨rfl, by decide, by decide⟩, trivial, trivial, trivial, trivial⟩
  exact ⟨rfl, (bookkeeping_safe 8 hacts).2.2.2.2.2 (List.cons_ne_nil _ _)⟩

end Binnacle.Metrics
