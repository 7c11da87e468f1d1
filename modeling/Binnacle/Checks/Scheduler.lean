import Binnacle.Channel
import Binnacle.Checks.Repository
import Binnacle.Storage.Resources

/-!
# The check scheduler (`internal/checks/scheduler.go`)

One goroutine asks `Due` at every tick and offers the checks that are not
reserved to a bounded queue; workers take them from there, and `RunNow` runs a
check beside them. Everything that can happen between two atomic operations of
the schedule goroutine is an interleaving of `Move`s.

- `Orderly`: reserved are exactly the checks that are queued, being offered or
  being run, and none of them twice;
- `tickSafe_iff`: a tick is safe, however fast the workers are, exactly when no
  more checks than the queue holds are queued or due;
- `scheduler_keeps_running_iff`: the same over whole runs.
-/

namespace Binnacle.Checks

open Concurrent Relational Runs Storage

/-- The limit `NewScheduler` settles on (scheduler.go:29-31). -/
def concurrency (max : Int) : Nat := if max < 1 then 1 else max.toNat

/-- Where the schedule goroutine stands (scheduler.go:54-84). -/
inductive Position where
  /-- At the `select` for the next tick. -/
  | waiting
  | offering (checks : List Check)
  /-- The first check is reserved, but not sent yet. -/
  | sending (c : Check) (checks : List Check)
  | returned
  deriving DecidableEq

/-- `Scheduler` (scheduler.go:12-24), with the checks its workers and the callers
of `RunNow` are running. -/
structure Scheduler (max : Nat) where
  db : Database
  queue : Channel Check (max * 2)
  active : Finset String
  running : List Check
  runningNow : List Check
  schedule : Position

/-- `NewScheduler` and `Start` over a database (scheduler.go:26-47). -/
def newScheduler (max : Int) (db : Database) : Scheduler (concurrency max) where
  db
  queue := Channel.make
  active := ∅
  running := []
  runningNow := []
  schedule := .waiting

inductive Move where
  /-- The schedule goroutine receives a tick and asks `Due`. -/
  | tick (now : Time)
  /-- The schedule goroutine makes its next step in the loop. -/
  | advance
  | take
  /-- A worker or `RunNow` stores a result. -/
  | save (c : Check) (result : Result) (wallClock : Time)
  | finish (c : Check)
  | runNow (id : String)
  | finishNow (c : Check)
  /-- Anything else happens to the database: checks are created, changed or
  deleted, resources archived or unpaused. -/
  | edit (db : Database)

variable {max : Nat} {s : Scheduler max} {m : Move} {checks : List Check} {ids : Finset String}

/-- One step of the loop over the due checks (scheduler.go:67-81). -/
def advance (s : Scheduler max) : Scheduler max :=
  match s.schedule with
  | .offering [] => { s with schedule := .waiting }
  | .offering (c :: checks) =>
    if c.id ∈ s.active then { s with schedule := .offering checks }
    else { s with active := insert c.id s.active, schedule := .sending c checks }
  | .sending c checks =>
    match s.queue.trySend c with
    | some queue => { s with queue, schedule := .offering checks }
    | none => { s with active := s.active.erase c.id, schedule := .returned }
  | _ => s

def move (s : Scheduler max) : Move → Scheduler max
  | .tick now =>
    match due s.db now (max * 2) with
    | some checks => { s with schedule := .offering checks }
    | none => s
  | .advance => advance s
  | .take =>
    match s.queue.receive with
    | some (c, queue) => { s with queue, running := s.running ++ [c] }
    | none => s
  | .save c result wallClock =>
    match saveResult s.db c result wallClock with
    | .ok db => { s with db }
    | .error _ => s
  | .finish c => { s with active := s.active.erase c.id, running := s.running.erase c }
  | .runNow id =>
    match get s.db id with
    | some c =>
      if c.enabled && c.id ∉ s.active then
        { s with active := insert c.id s.active, runningNow := s.runningNow ++ [c] }
      else s
    | none => s
  | .finishNow c => { s with active := s.active.erase c.id, runningNow := s.runningNow.erase c }
  | .edit db => { s with db }

def Move.Enabled (s : Scheduler max) : Move → Prop
  | .tick _ => s.schedule = .waiting
  | .take => s.running.length < max
  | .save c _ _ => c ∈ s.running ++ s.runningNow
  | .finish c => c ∈ s.running
  | .finishNow c => c ∈ s.runningNow
  | _ => True

instance (s : Scheduler max) (m : Move) : Decidable (m.Enabled s) := by
  cases m with
  | tick now => exact inferInstanceAs (Decidable (s.schedule = .waiting))
  | take => exact inferInstanceAs (Decidable (s.running.length < max))
  | save c result wallClock => exact inferInstanceAs (Decidable (c ∈ s.running ++ s.runningNow))
  | finish c => exact inferInstanceAs (Decidable (c ∈ s.running))
  | finishNow c => exact inferInstanceAs (Decidable (c ∈ s.runningNow))
  | _ => exact isTrue trivial

/-! ## What is reserved -/

def Position.held : Position → List String
  | .sending c _ => [c.id]
  | _ => []

def Scheduler.held (s : Scheduler max) : List String :=
  s.queue.buffer.map Check.id ++ s.running.map Check.id ++ s.runningNow.map Check.id ++
    s.schedule.held

/-- `active` holds exactly these checks, and none is held twice. -/
structure Orderly (s : Scheduler max) : Prop where
  reserved : ∀ id, id ∈ s.active ↔ id ∈ s.held
  nodup : s.held.Nodup

namespace Orderly

variable {s s' : Scheduler max}

theorem of_perm (h : Orderly s) (hp : s'.held.Perm s.held) (ha : s'.active = s.active) :
    Orderly s' := by
  refine ⟨fun id => ?_, hp.nodup_iff.mpr h.nodup⟩
  rw [ha, h.reserved, hp.mem_iff]

theorem of_reserve (h : Orderly s) {id : String} (hid : id ∉ s.active)
    (hp : s'.held.Perm (id :: s.held)) (ha : s'.active = insert id s.active) : Orderly s' := by
  have hnew : id ∉ s.held := fun hmem => hid ((h.reserved id).mpr hmem)
  refine ⟨fun i => ?_, hp.nodup_iff.mpr (List.nodup_cons.mpr ⟨hnew, h.nodup⟩)⟩
  rw [ha, Finset.mem_insert, h.reserved, hp.mem_iff, List.mem_cons]

theorem of_release (h : Orderly s) {i : String} (hp : s.held.Perm (i :: s'.held))
    (ha : s'.active = s.active.erase i) : Orderly s' := by
  obtain ⟨hgone, hnodup⟩ := List.nodup_cons.mp (hp.nodup_iff.mp h.nodup)
  refine ⟨fun id => ?_, hnodup⟩
  rw [ha, Finset.mem_erase, h.reserved, hp.mem_iff, List.mem_cons]
  constructor
  · rintro ⟨hne, rfl | hmem⟩
    · exact absurd rfl hne
    · exact hmem
  · intro hmem
    exact ⟨fun heq => hgone (heq ▸ hmem), .inr hmem⟩

end Orderly

theorem orderly_newScheduler (max : Int) (db : Database) : Orderly (newScheduler max db) :=
  ⟨fun _ => iff_of_false (Finset.notMem_empty _) List.not_mem_nil, List.nodup_nil⟩

theorem Orderly.of_advance (h : Orderly s) : Orderly (advance s) := by
  unfold advance
  split
  · next hs =>
    refine h.of_perm ?_ rfl
    simp [Scheduler.held, Position.held, hs]
  · next c checks hs =>
    split
    · refine h.of_perm ?_ rfl
      simp [Scheduler.held, Position.held, hs]
    · next hid =>
      refine h.of_reserve hid ?_ rfl
      simp only [Scheduler.held, Position.held, hs, List.append_nil]
      exact List.perm_append_singleton _ _
  · next c checks hs =>
    split
    · next queue hq =>
      obtain ⟨-, hbuf, -⟩ := Channel.trySend_eq_some hq
      refine h.of_perm (List.perm_iff_count.mpr fun id => ?_) rfl
      simp only [Scheduler.held, Position.held, hs, hbuf, List.map_append, List.map_cons,
        List.map_nil, List.count_append, List.count_cons, List.count_nil]
      omega
    · refine h.of_release (i := c.id) ?_ rfl
      simp only [Scheduler.held, Position.held, hs, List.append_nil]
      exact List.perm_append_singleton _ _
  · exact h

theorem Orderly.of_move (h : Orderly s) (hm : m.Enabled s) : Orderly (move s m) := by
  cases m with
  | tick now =>
    unfold move
    simp only
    split
    · have hwait : s.schedule = .waiting := hm
      refine h.of_perm ?_ rfl
      simp [Scheduler.held, Position.held, hwait]
    · exact h
  | advance => exact h.of_advance
  | take =>
    unfold move
    simp only
    split
    · next c queue hr =>
      obtain ⟨hbuf, -⟩ := Channel.receive_eq_some hr
      refine h.of_perm ?_ rfl
      refine List.perm_iff_count.mpr fun id => ?_
      simp only [Scheduler.held, hbuf, List.map_append, List.map_cons, List.map_nil,
        List.count_append, List.count_cons, List.count_nil]
      omega
    · exact h
  | save c result wallClock =>
    unfold move
    simp only
    split
    · exact h.of_perm (List.Perm.refl _) rfl
    · exact h
  | finish c | finishNow c =>
    refine h.of_release (i := c.id) ?_ rfl
    refine List.perm_iff_count.mpr fun id => ?_
    have hcount := ((List.perm_cons_erase (show c ∈ _ from hm)).map Check.id).count_eq id
    simp only [Scheduler.held, move, List.map_cons, List.count_append, List.count_cons] at hcount ⊢
    omega
  | runNow id =>
    unfold move
    simp only
    split
    · next c hget =>
      split
      · next hcond =>
        simp only [Bool.and_eq_true, decide_eq_true_eq] at hcond
        refine h.of_reserve hcond.2 (List.perm_iff_count.mpr fun id => ?_) rfl
        simp only [Scheduler.held, List.map_append, List.map_cons, List.map_nil, List.count_append,
          List.count_cons, List.count_nil]
        omega
      · exact h
    · exact h
  | edit db => exact h.of_perm (List.Perm.refl _) rfl

/-! ## One tick, whatever the workers do -/

def idsOf (checks : List Check) : Finset String := (checks.map Check.id).toFinset

def Scheduler.demand (s : Scheduler max) (now : Time) : Finset String :=
  idsOf s.queue.buffer ∪ idsOf ((allDue s.db now).take (max * 2))

def Position.rest : Position → List Check
  | .offering checks => checks
  | .sending c checks => c :: checks
  | _ => []

/-- Within one tick only checks of `ids` are queued or still to be offered. -/
structure Within (ids : Finset String) (s : Scheduler max) : Prop where
  queue : idsOf s.queue.buffer ⊆ ids
  rest : idsOf s.schedule.rest ⊆ ids
  alive : s.schedule ≠ .returned

theorem mem_idsOf {id : String} :
    id ∈ idsOf checks ↔ ∃ c ∈ checks, c.id = id := by
  simp [idsOf]

theorem idsOf_subset {checks' : List Check} (h : checks ⊆ checks') :
    idsOf checks ⊆ idsOf checks' := by
  intro id hid
  obtain ⟨c, hc, rfl⟩ := mem_idsOf.mp hid
  exact mem_idsOf.mpr ⟨c, h hc, rfl⟩

theorem idsOf_nil : idsOf [] = ∅ := rfl

theorem idsOf_cons (c : Check) (checks : List Check) :
    idsOf (c :: checks) = insert c.id (idsOf checks) := by
  simp [idsOf]

theorem idsOf_append (a b : List Check) : idsOf (a ++ b) = idsOf a ∪ idsOf b := by
  simp [idsOf, List.toFinset_append]

theorem card_idsOf_buffer (s : Scheduler max) : (idsOf s.queue.buffer).card ≤ max * 2 := by
  have hle := List.toFinset_card_le (s.queue.buffer.map Check.id)
  rw [List.length_map] at hle
  exact hle.trans s.queue.bounded

/-- A check that is reserved but not sent is not in the queue, and the queue
holds no check twice. -/
theorem Orderly.sending (h : Orderly s) {c : Check} (hs : s.schedule = .sending c checks) :
    (insert c.id (idsOf s.queue.buffer)).card = s.queue.buffer.length + 1 := by
  have hnodup := h.nodup
  simp only [Scheduler.held, hs, Position.held] at hnodup
  obtain ⟨hrest, -, hdisj⟩ := List.nodup_append.mp hnodup
  have hqueue : (s.queue.buffer.map Check.id).Nodup :=
    (List.nodup_append.mp (List.nodup_append.mp hrest).1).1
  have hnew : c.id ∉ idsOf s.queue.buffer := by
    intro hmem
    have hmem : c.id ∈ s.queue.buffer.map Check.id := List.mem_toFinset.mp hmem
    refine hdisj c.id ?_ c.id List.mem_cons_self rfl
    exact List.mem_append_left _ (List.mem_append_left _ hmem)
  rw [Finset.card_insert_of_notMem hnew, idsOf, List.toFinset_card_of_nodup hqueue,
    List.length_map]

theorem Within.of_advance (ho : Orderly s) (hcard : ids.card ≤ max * 2)
    (h : Within ids s) : Within ids (advance s) := by
  have hrest := h.rest
  unfold advance
  split
  · exact ⟨h.queue, by simp [Position.rest, idsOf], nofun⟩
  · next c checks hs =>
    rw [hs] at hrest
    have htail : idsOf checks ⊆ ids := (idsOf_subset (List.subset_cons_self c checks)).trans hrest
    split
    · exact ⟨h.queue, htail, nofun⟩
    · exact ⟨h.queue, hrest, nofun⟩
  · next c checks hs =>
    rw [hs] at hrest
    have htail : idsOf checks ⊆ ids := (idsOf_subset (List.subset_cons_self c checks)).trans hrest
    have hc : c.id ∈ ids := hrest (mem_idsOf.mpr ⟨c, List.mem_cons_self, rfl⟩)
    split
    · next queue hq =>
      obtain ⟨-, hbuf, -⟩ := Channel.trySend_eq_some hq
      refine ⟨?_, htail, nofun⟩
      show idsOf queue.buffer ⊆ ids
      rw [hbuf, idsOf_append]
      refine Finset.union_subset h.queue fun id hid => ?_
      obtain ⟨c', hc', rfl⟩ := mem_idsOf.mp hid
      rw [List.mem_singleton.mp hc']
      exact hc
    · -- a full queue and the check in hand would be more checks than there are
      next hfull =>
      have hlen : s.queue.buffer.length = max * 2 := Channel.trySend_eq_none_iff.mp hfull
      have hsub : insert c.id (idsOf s.queue.buffer) ⊆ ids :=
        Finset.insert_subset hc h.queue
      have hle := Finset.card_le_card hsub
      rw [ho.sending hs] at hle
      omega
  · exact h

theorem Within.of_move (ho : Orderly s) (hcard : ids.card ≤ max * 2)
    (h : Within ids s) (hm : ∀ now, m ≠ .tick now) : Within ids (move s m) := by
  cases m with
  | tick now => exact absurd rfl (hm now)
  | advance => exact h.of_advance ho hcard
  | take =>
    unfold move
    simp only
    split
    · next c queue hr =>
      obtain ⟨hbuf, -⟩ := Channel.receive_eq_some hr
      refine ⟨(idsOf_subset ?_).trans h.queue, h.rest, h.alive⟩
      rw [hbuf]
      exact List.subset_cons_self c _
    · exact h
  | save c result wallClock =>
    unfold move
    simp only
    split
    · exact ⟨h.queue, h.rest, h.alive⟩
    · exact h
  | runNow id =>
    unfold move
    simp only
    split
    · split
      · exact ⟨h.queue, h.rest, h.alive⟩
      · exact h
    · exact h
  | finish c | finishNow c | edit db => exact ⟨h.queue, h.rest, h.alive⟩

def BetweenTicks (s : Scheduler max) (moves : List Move) : Prop :=
  Along move Move.Enabled s moves ∧ ∀ m ∈ moves, ∀ now, m ≠ .tick now

theorem Within.of_moves (hcard : ids.card ≤ max * 2) {moves : List Move}
    (ho : Orderly s) (h : Within ids s) (hmoves : BetweenTicks s moves) :
    Within ids (moves.foldl move s) := by
  induction moves generalizing s with
  | nil => exact h
  | cons m moves ih =>
    obtain ⟨⟨hm, hrest⟩, htick⟩ := hmoves
    have hw := h.of_move ho hcard (htick m List.mem_cons_self)
    exact ih (ho.of_move hm) hw ⟨hrest, fun m' hm' => htick m' (List.mem_cons_of_mem m hm')⟩

theorem exists_returned : ∀ {checks : List Check} {s : Scheduler max},
    s.schedule = .offering checks → (∀ id, id ∈ s.active ↔ id ∈ idsOf s.queue.buffer) →
    max * 2 < (idsOf s.queue.buffer ∪ idsOf checks).card →
    ∃ n, (advance^[n] s).schedule = .returned
  | [], s, hs, _, hcard => by
    have hle := card_idsOf_buffer s
    rw [idsOf_nil, Finset.union_empty] at hcard
    omega
  | c :: checks, s, hs, hactive, hcard => by
    by_cases hc : c.id ∈ s.active
    · -- the check is queued already: the loop goes on with the others
      have hstep : advance s = { s with schedule := .offering checks } := by
        simp only [advance, hs, if_pos hc]
      have hsame : idsOf s.queue.buffer ∪ idsOf (c :: checks)
          = idsOf s.queue.buffer ∪ idsOf checks := by
        have hmem := (hactive c.id).mp hc
        rw [idsOf_cons, Finset.union_insert,
          Finset.insert_eq_of_mem (Finset.mem_union_left _ hmem)]
      rw [hsame] at hcard
      obtain ⟨n, hn⟩ := exists_returned (s := { s with schedule := .offering checks }) rfl
        hactive hcard
      exact ⟨n + 1, by rw [Function.iterate_succ_apply, hstep]; exact hn⟩
    · have hreserve : advance s
          = { s with active := insert c.id s.active, schedule := .sending c checks } := by
        simp only [advance, hs, if_neg hc]
      cases hq : s.queue.trySend c with
      | none =>
        refine ⟨2, ?_⟩
        rw [Function.iterate_succ_apply, Function.iterate_one, hreserve]
        simp only [advance, hq]
      | some queue =>
        obtain ⟨-, hbuf, -⟩ := Channel.trySend_eq_some hq
        have hids : idsOf queue.buffer = insert c.id (idsOf s.queue.buffer) := by
          rw [hbuf, idsOf_append]
          simp [idsOf, Finset.union_comm]
        have hsend : advance (advance s) = { s with
            active := insert c.id s.active, queue, schedule := .offering checks } := by
          rw [hreserve]
          simp only [advance, hq]
        have hsame : idsOf queue.buffer ∪ idsOf checks
            = idsOf s.queue.buffer ∪ idsOf (c :: checks) := by
          rw [hids]
          simp [idsOf, Finset.insert_union, Finset.union_insert]
        have hactive' : ∀ id, id ∈ insert c.id s.active ↔ id ∈ idsOf queue.buffer := by
          intro id
          rw [hids, Finset.mem_insert, Finset.mem_insert, hactive]
        obtain ⟨n, hn⟩ := exists_returned (s := { s with
            active := insert c.id s.active, queue, schedule := .offering checks }) rfl
          hactive' (by rw [hsame]; exact hcard)
        exact ⟨n + 2, by
          rw [Function.iterate_succ_apply, Function.iterate_succ_apply, hsend]
          exact hn⟩

/-- Workers and callers of `RunNow` can finish what they run, one after the other. -/
theorem exists_idle (s : Scheduler max) : ∃ moves, BetweenTicks s moves ∧
    moves.foldl move s = { s with
      active := s.active \ idsOf (s.running ++ s.runningNow),
      running := [], runningNow := [] } := by
  obtain ⟨db, queue, active, running, runningNow, schedule⟩ := s
  induction running generalizing active with
  | nil =>
    induction runningNow generalizing active with
    | nil => exact ⟨[], ⟨trivial, nofun⟩, by simp [idsOf]⟩
    | cons c rest ih =>
      obtain ⟨moves, ⟨halong, htick⟩, hend⟩ := ih (active.erase c.id)
      refine ⟨.finishNow c :: moves, ⟨⟨List.mem_cons_self, ?_⟩, ?_⟩, ?_⟩
      · simpa [move] using halong
      · simpa using htick
      · simp only [List.foldl_cons, move, List.erase_cons_head]
        rw [hend]
        simp only [List.nil_append, idsOf_cons, Finset.sdiff_insert, Finset.erase_sdiff_comm]
  | cons c rest ih =>
    obtain ⟨moves, ⟨halong, htick⟩, hend⟩ := ih (active.erase c.id)
    refine ⟨.finish c :: moves, ⟨⟨List.mem_cons_self, ?_⟩, ?_⟩, ?_⟩
    · simpa [move] using halong
    · simpa using htick
    · simp only [List.foldl_cons, move, List.erase_cons_head]
      rw [hend]
      simp only [List.cons_append, idsOf_cons, Finset.sdiff_insert, Finset.erase_sdiff_comm]

theorem betweenTicks_advance (n : Nat) (s : Scheduler max) :
    BetweenTicks s (List.replicate n .advance) ∧
      (List.replicate n Move.advance).foldl move s = advance^[n] s := by
  induction n generalizing s with
  | zero => exact ⟨⟨trivial, nofun⟩, rfl⟩
  | succ n ih =>
    obtain ⟨⟨halong, htick⟩, hend⟩ := ih (advance s)
    refine ⟨⟨⟨trivial, halong⟩, ?_⟩, hend⟩
    intro m hm now
    rw [List.eq_of_mem_replicate hm]
    exact nofun

theorem BetweenTicks.append {moves moves' : List Move} (h : BetweenTicks s moves)
    (h' : BetweenTicks (moves.foldl move s) moves') : BetweenTicks s (moves ++ moves') := by
  refine ⟨h.1.append h'.1, fun m hm => ?_⟩
  rcases List.mem_append.mp hm with hm | hm
  · exact h.2 m hm
  · exact h'.2 m hm

theorem Orderly.active_idle (h : Orderly s) (hs : s.schedule.held = []) (id : String) :
    id ∈ s.active \ idsOf (s.running ++ s.runningNow) ↔ id ∈ idsOf s.queue.buffer := by
  have hnodup := h.nodup
  simp only [Scheduler.held, hs, List.append_nil, List.append_assoc] at hnodup
  rw [← List.map_append] at hnodup
  have hdisj := (List.nodup_append.mp hnodup).2.2
  have hreserved : id ∈ s.active ↔
      id ∈ idsOf s.queue.buffer ∨ id ∈ idsOf (s.running ++ s.runningNow) := by
    rw [h.reserved]
    simp [Scheduler.held, hs, idsOf]
  rw [Finset.mem_sdiff, hreserved]
  constructor
  · rintro ⟨hq | hr, hnr⟩
    · exact hq
    · exact absurd hr hnr
  · intro hq
    refine ⟨.inl hq, fun hr => ?_⟩
    exact hdisj id (List.mem_toFinset.mp hq) id (List.mem_toFinset.mp hr) rfl

/-- A tick offers every check that is due, as many as the queue can hold, and
whatever happens until the next one, the loop does not return. -/
def TickSafe (s : Scheduler max) (now : Time) : Prop :=
  (move s (.tick now)).schedule.rest = (allDue s.db now).take (max * 2) ∧
    ∀ moves, BetweenTicks (move s (.tick now)) moves →
      (moves.foldl move (move s (.tick now))).schedule ≠ .returned

/-- `Due` accepts the limit, or has nothing to list; and the checks that are
queued or listed fit into the queue. -/
def TickFits (s : Scheduler max) (now : Time) : Prop :=
  (allDue s.db now = [] ∨ max * 2 ≤ 1000) ∧ (s.demand now).card ≤ max * 2

instance (s : Scheduler max) (now : Time) : Decidable (TickFits s now) :=
  inferInstanceAs (Decidable (_ ∧ _))

theorem rest_tick (hmax : 0 < max) (hs : s.schedule = .waiting) (now : Time) :
    (move s (.tick now)).schedule.rest = (allDue s.db now).take (max * 2) ↔
      allDue s.db now = [] ∨ max * 2 ≤ 1000 := by
  cases hdue : due s.db now (max * 2) with
  | some checks =>
    obtain ⟨-, hlimit, rfl⟩ := due_eq_some hdue
    refine iff_of_true ?_ (.inr hlimit)
    simp only [move, hdue, Position.rest]
  | none =>
    have hlimit : ¬ max * 2 ≤ 1000 := Nat.not_le.mpr (due_eq_none (by omega) hdue)
    simp only [move, hdue, hs, Position.rest, hlimit, or_false]
    constructor
    · intro heq
      rcases List.take_eq_nil_iff.mp heq.symm with hzero | hnil
      · omega
      · exact hnil
    · intro hnil
      rw [hnil, List.take_nil]

theorem within_tick (hs : s.schedule = .waiting) (now : Time) :
    Within (s.demand now) (move s (.tick now)) := by
  cases hdue : due s.db now (max * 2) with
  | some checks =>
    obtain ⟨-, -, rfl⟩ := due_eq_some hdue
    simp only [move, hdue]
    exact ⟨Finset.subset_union_left, Finset.subset_union_right, nofun⟩
  | none =>
    simp only [move, hdue]
    refine ⟨Finset.subset_union_left, ?_, ?_⟩
    · rw [hs]
      exact Finset.empty_subset _
    · rw [hs]
      exact nofun

/-- Workers that finish what they run, but take nothing from the queue, leave the
loop to fill it. -/
theorem exists_returned_of_tick (hmax : 0 < max) (ho : Orderly s) (hs : s.schedule = .waiting)
    (now : Time) (hlimit : allDue s.db now = [] ∨ max * 2 ≤ 1000)
    (hcard : max * 2 < (s.demand now).card) : ∃ moves, BetweenTicks (move s (.tick now)) moves ∧
      (moves.foldl move (move s (.tick now))).schedule = .returned := by
  have ho' : Orderly (move s (.tick now)) := ho.of_move (m := .tick now) hs
  cases hdue : due s.db now (max * 2) with
  | none =>
    -- then nothing is due, and what is queued fits
    have hlarge := due_eq_none (by omega) hdue
    have hnil : allDue s.db now = [] := hlimit.resolve_right (Nat.not_le.mpr hlarge)
    have := card_idsOf_buffer s
    rw [Scheduler.demand, hnil, List.take_nil, idsOf_nil, Finset.union_empty] at hcard
    omega
  | some checks =>
    obtain ⟨-, -, rfl⟩ := due_eq_some hdue
    obtain ⟨idle, hidle, hend⟩ := exists_idle (move s (.tick now))
    have htick : move s (.tick now)
        = { s with schedule := .offering ((allDue s.db now).take (max * 2)) } := by
      simp only [move, hdue]
    have hactive := ho'.active_idle (by rw [htick]; rfl)
    rw [htick] at hend hactive
    obtain ⟨n, hn⟩ := exists_returned (s := idle.foldl move (move s (.tick now)))
      (by rw [htick, hend]) (by rw [htick, hend]; exact hactive) (by rw [htick, hend]; exact hcard)
    obtain ⟨hadv, hlast⟩ := betweenTicks_advance n (idle.foldl move (move s (.tick now)))
    refine ⟨idle ++ List.replicate n .advance, hidle.append hadv, ?_⟩
    rw [List.foldl_append, hlast]
    exact hn

/-- A tick is safe exactly when what is queued or due fits into the queue. -/
theorem tickSafe_iff (hmax : 0 < max) (ho : Orderly s) (hs : s.schedule = .waiting) (now : Time) :
    TickSafe s now ↔ TickFits s now := by
  constructor
  · rintro ⟨hrest, hsafe⟩
    refine ⟨(rest_tick hmax hs now).mp hrest, ?_⟩
    by_contra hcard
    obtain ⟨moves, hmoves, hret⟩ := exists_returned_of_tick hmax ho hs now
      ((rest_tick hmax hs now).mp hrest) (Nat.not_le.mp hcard)
    exact hsafe moves hmoves hret
  · rintro ⟨hlimit, hcard⟩
    refine ⟨(rest_tick hmax hs now).mpr hlimit, fun moves hmoves => ?_⟩
    exact (Within.of_moves hcard (ho.of_move (m := .tick now) hs) (within_tick hs now) hmoves).alive

/-! ## Whole runs -/

theorem concurrency_pos (max : Int) : 0 < concurrency max := by
  unfold concurrency
  split <;> omega

def Move.Fits (s : Scheduler max) : Move → Prop
  | .tick now => TickFits s now
  | _ => True

instance (s : Scheduler max) (m : Move) : Decidable (m.Fits s) := by
  cases m with
  | tick now => exact inferInstanceAs (Decidable (TickFits s now))
  | _ => exact isTrue trivial

/-- The loop has not returned, and will not before the next tick. -/
def Alive (s : Scheduler max) : Prop :=
  Orderly s ∧ ∃ ids : Finset String, ids.card ≤ max * 2 ∧ Within ids s

theorem alive_newScheduler (max : Int) (db : Database) : Alive (newScheduler max db) := by
  refine ⟨orderly_newScheduler max db, ∅, Nat.zero_le _, ?_⟩
  exact ⟨Finset.Subset.refl _, Finset.Subset.refl _, nofun⟩

theorem Alive.of_move (h : Alive s) (hm : m.Enabled s) (hfits : m.Fits s) :
    Alive (move s m) := by
  obtain ⟨ho, ids, hcard, hw⟩ := h
  refine ⟨ho.of_move hm, ?_⟩
  by_cases htick : ∃ now, m = .tick now
  · obtain ⟨now, rfl⟩ := htick
    exact ⟨s.demand now, hfits.2, within_tick hm now⟩
  · exact ⟨ids, hcard, hw.of_move ho hcard fun now heq => htick ⟨now, heq⟩⟩

/-- In a run, every tick is safe exactly when every tick fits; and then the
schedule goroutine has not returned in any state of the run. -/
theorem scheduler_keeps_running_iff (max : Int) (db : Database) {moves : List Move}
    (hmoves : Along move Move.Enabled (newScheduler max db) moves) :
    ((∀ pre now, pre ++ [.tick now] <+: moves →
        TickSafe (pre.foldl move (newScheduler max db)) now) ↔
      ∀ pre now, pre ++ [.tick now] <+: moves →
        TickFits (pre.foldl move (newScheduler max db)) now) ∧
    ((∀ pre now, pre ++ [.tick now] <+: moves →
        TickFits (pre.foldl move (newScheduler max db)) now) →
      ∀ pre, pre <+: moves → (pre.foldl move (newScheduler max db)).schedule ≠ .returned) := by
  constructor
  · refine forall_congr' fun pre => forall_congr' fun now => forall_congr' fun hpre => ?_
    obtain ⟨halong, hwait⟩ := hmoves.at_snoc hpre
    have ho : Orderly (pre.foldl move (newScheduler max db)) :=
      halong.invariant (fun s m ho hm => ho.of_move hm) (orderly_newScheduler max db)
    exact tickSafe_iff (concurrency_pos max) ho hwait now
  · intro hfits pre hpre
    have hstep : ∀ pre m, pre ++ [m] <+: moves →
        m.Enabled (pre.foldl move (newScheduler max db)) ∧
          m.Fits (pre.foldl move (newScheduler max db)) := by
      intro pre m hpre
      refine ⟨(hmoves.at_snoc hpre).2, ?_⟩
      cases m with
      | tick now => exact hfits pre now hpre
      | _ => trivial
    obtain ⟨-, ids, -, hw⟩ := forall_prefix_of_step (I := Alive)
      (Q := fun s m => m.Enabled s ∧ m.Fits s) (fun s m h hm => h.of_move hm.1 hm.2)
      hstep (alive_newScheduler max db) hpre
    exact hw.alive

/-! ### A queue that is too small -/

def oneResource : Database :=
  let stored := do
    let db ← upsertHost .empty "host" "host" "host"
    upsertResource db
      { id := "web", hostId := "host", stableKey := "web", sourceKind := "docker", name := "web",
        category := "service", status := "running" } 0
  stored.toOption.getD .empty

/-- `Create` for a check of that resource. -/
def withCheck (id : String) (db : Database) : Database :=
  let created := create db
    { id, resourceId := "web", interval := 30 * second, required := true, enabled := true }
  created.toOption.getD db

def twoQueued : List Move :=
  [.tick second, .advance, .advance, .advance, .advance, .advance]

theorem twoQueued_keeps_running :
    let start := newScheduler 1 (withCheck "n" (withCheck "m" oneResource))
    Along move Move.Enabled start twoQueued ∧
      (twoQueued.foldl move start).queue.buffer.map Check.id = ["m", "n"] ∧
      ∀ pre, pre <+: twoQueued → (pre.foldl move start).schedule ≠ .returned := by
  intro start
  have halong : Along move Move.Enabled start twoQueued := by decide +kernel
  refine ⟨halong, by decide +kernel, (scheduler_keeps_running_iff 1 _ halong).2 ?_⟩
  have hfits : ∀ pre (m : Move), pre ++ [m] <+: twoQueued → m.Fits (pre.foldl move start) :=
    forall_snoc_of_get (Q := fun pre m => Move.Fits (pre.foldl move start) m) (by decide +kernel)
  exact fun pre now => hfits pre (.tick now)

/-- A check created while the two wait for the worker is listed before them, and
the loop that offers it returns: no tick is served any more. -/
theorem new_check_stops_schedule :
    let start := newScheduler 1 (withCheck "n" (withCheck "m" oneResource))
    let created := withCheck "a" (withCheck "n" (withCheck "m" oneResource))
    let moves := twoQueued ++ [.edit created, .tick (2 * second), .advance, .advance]
    Along move Move.Enabled start moves ∧ (moves.foldl move start).schedule = .returned := by
  decide +kernel

end Binnacle.Checks
