import Binnacle.Checks.Scheduler

/-!
# Reservations of checks

`reserve` and `release` (scheduler.go:116-125) keep a check from being queued or
run twice. A reservation is made by the schedule goroutine, which hands it on to
a worker with the check, or by a call of `RunNow`. Here the context may also end,
and the schedule goroutine then gives up what it has in hand.

- `count_act`: an act changes the entries of a party by what it reserves and
  releases for it;
- `check_runs_alone`: no check is queued or run twice, and every reservation is
  released once, by the party that made it.
-/

namespace Binnacle.Checks

open Concurrent Relational Runs Storage

/-- Who reserves a check: the schedule goroutine with its workers, or a caller of `RunNow`. -/
inductive Party where
  | schedule
  | caller
  deriving DecidableEq

/-- A move, or the schedule goroutine finds its context done. -/
inductive Act where
  | move (m : Move)
  | cancelled

variable {max : Nat} {s : Scheduler max} {a : Act}

/-- One act; the context is looked at between ticks and at a send (scheduler.go:60, 73). -/
def act (s : Scheduler max) : Act → Scheduler max
  | .move m => move s m
  | .cancelled =>
    match s.schedule with
    | .waiting => { s with schedule := .returned }
    | .sending c _ => { s with active := s.active.erase c.id, schedule := .returned }
    | .offering _ | .returned => s

def Act.Enabled (s : Scheduler max) : Act → Prop
  | .move m => m.Enabled s
  | .cancelled => True

instance (s : Scheduler max) (a : Act) : Decidable (a.Enabled s) := by
  cases a with
  | move m => exact inferInstanceAs (Decidable (m.Enabled s))
  | cancelled => exact isTrue trivial

/-- The call of `reserve` that an act makes, if it succeeds. -/
def Act.reserves (s : Scheduler max) : Act → Option (Party × String)
  | .move .advance =>
    match s.schedule with
    | .offering (c :: _) => if c.id ∈ s.active then none else some (.schedule, c.id)
    | _ => none
  | .move (.runNow id) =>
    match get s.db id with
    | some c => if c.enabled && c.id ∉ s.active then some (.caller, c.id) else none
    | none => none
  | _ => none

/-- The call of `release` that an act makes. -/
def Act.releases (s : Scheduler max) : Act → Option (Party × String)
  | .move .advance =>
    match s.schedule with
    | .sending c _ => if (s.queue.trySend c).isNone then some (.schedule, c.id) else none
    | _ => none
  | .cancelled =>
    match s.schedule with
    | .sending c _ => some (.schedule, c.id)
    | _ => none
  | .move (.finish c) => some (.schedule, c.id)
  | .move (.finishNow c) => some (.caller, c.id)
  | _ => none

def Scheduler.entries (s : Scheduler max) : Party → List String
  | .schedule => s.queue.buffer.map Check.id ++ s.running.map Check.id ++ s.schedule.held
  | .caller => s.runningNow.map Check.id

/-- How often a run calls `reserve` or `release` for a party and a check. -/
def tally (calls : Scheduler max → Act → Option (Party × String)) (call : Party × String) :
    Scheduler max → List Act → Nat
  | _, [] => 0
  | s, a :: as => (if calls s a = some call then 1 else 0) + tally calls call (act s a) as

theorem Orderly.of_act (h : Orderly s) (ha : a.Enabled s) : Orderly (act s a) := by
  cases a with
  | move m => exact h.of_move ha
  | cancelled =>
    unfold act
    cases hs : s.schedule with
    | waiting =>
      refine h.of_perm ?_ rfl
      simp [Scheduler.held, Position.held, hs]
    | sending c checks =>
      refine h.of_release (i := c.id) ?_ rfl
      simp only [Scheduler.held, Position.held, hs, List.append_nil]
      exact List.perm_append_singleton _ _
    | offering checks => exact h
    | returned => exact h

theorem count_advance (p : Party) (id : String) :
    ((advance s).entries p).count id +
        (if (Act.move .advance).releases s = some (p, id) then 1 else 0) =
      (s.entries p).count id + if (Act.move .advance).reserves s = some (p, id) then 1 else 0 := by
  cases hs : s.schedule with
  | waiting | returned => simp [advance, Act.releases, Act.reserves, hs]
  | offering checks =>
    cases checks with
    | nil =>
      cases p <;> simp [advance, Act.releases, Act.reserves, Scheduler.entries, Position.held, hs]
    | cons c checks =>
      by_cases hc : c.id ∈ s.active <;> cases p <;>
        simp [advance, Act.releases, Act.reserves, Scheduler.entries, Position.held, hs, hc,
          List.count_singleton, Nat.add_assoc]
  | sending c checks =>
    cases hq : s.queue.trySend c with
    | none =>
      cases p <;> simp [advance, Act.releases, Act.reserves, Scheduler.entries, Position.held, hs,
        hq, List.count_singleton, Nat.add_assoc]
    | some queue =>
      obtain ⟨-, hbuf, -⟩ := Channel.trySend_eq_some hq
      cases p <;> simp [advance, Act.releases, Act.reserves, Scheduler.entries, Position.held, hs,
        hq, hbuf, List.count_cons, Nat.add_comm]

theorem count_act (ha : a.Enabled s) (p : Party) (id : String) :
    ((act s a).entries p).count id + (if a.releases s = some (p, id) then 1 else 0) =
      (s.entries p).count id + if a.reserves s = some (p, id) then 1 else 0 := by
  cases a with
  | cancelled =>
    cases hs : s.schedule <;> cases p <;>
      simp [act, Act.releases, Act.reserves, Scheduler.entries, Position.held, hs,
        List.count_singleton, Nat.add_assoc]
  | move m =>
    cases m with
    | advance => exact count_advance p id
    | tick now =>
      have hwait : s.schedule = .waiting := ha
      cases hdue : due s.db now (max * 2) <;> cases p <;>
        simp [act, move, Act.releases, Act.reserves, Scheduler.entries, Position.held, hwait, hdue]
    | take =>
      cases hr : s.queue.receive with
      | none => simp [act, move, Act.releases, Act.reserves, hr]
      | some r =>
        -- the check moves from the queue to the worker
        obtain ⟨hbuf, -⟩ := Channel.receive_eq_some hr
        cases p <;> simp [act, move, Act.releases, Act.reserves, Scheduler.entries, hr, hbuf,
          List.count_cons]
        omega
    | save c result wallClock =>
      cases hsave : saveResult s.db c result wallClock <;> cases p <;>
        simp [act, move, Act.releases, Act.reserves, Scheduler.entries, hsave]
    | finish c | finishNow c =>
      have hcount := ((List.perm_cons_erase ha).map Check.id).count_eq id
      cases p <;> simp [act, move, Act.releases, Act.reserves, Scheduler.entries,
        List.count_cons] at hcount ⊢
      omega
    | runNow i =>
      cases hget : get s.db i with
      | none => simp [act, move, Act.releases, Act.reserves, hget]
      | some c =>
        by_cases hfree : c.enabled = true ∧ c.id ∉ s.active <;> cases p <;>
          simp [act, move, Act.releases, Act.reserves, Scheduler.entries, hget, hfree,
            List.count_singleton]
    | edit db => cases p <;> simp [act, move, Act.releases, Act.reserves, Scheduler.entries]

theorem tally_run {acts : List Act} (hacts : Along act Act.Enabled s acts) (p : Party)
    (id : String) :
    (s.entries p).count id + tally (fun s a => a.reserves s) (p, id) s acts =
      tally (fun s a => a.releases s) (p, id) s acts +
        ((acts.foldl act s).entries p).count id := by
  induction acts generalizing s with
  | nil => simp [tally]
  | cons a acts ih =>
    have hstep := count_act hacts.1 p id
    have hrest := ih hacts.2
    simp only [tally, List.foldl_cons] at hrest ⊢
    omega

/-- **A check never runs twice at once.** In every run no check has two entries among those
queued and running, so that none is run twice at once. A party has reserved a check as often as
it has released it, and once more exactly while it has an entry of it. -/
theorem check_runs_alone (max : Int) (db : Database) {acts : List Act}
    (hacts : Along act Act.Enabled (newScheduler max db) acts) :
    let s := acts.foldl act (newScheduler max db)
    ((s.queue.buffer ++ s.running ++ s.runningNow).map Check.id).Nodup ∧
      ((s.running ++ s.runningNow).map Check.id).Nodup ∧
      ∀ p id, (s.entries p).count id ≤ 1 ∧
        tally (fun s a => a.reserves s) (p, id) (newScheduler max db) acts =
          tally (fun s a => a.releases s) (p, id) (newScheduler max db) acts +
            (s.entries p).count id := by
  intro s
  have ho : Orderly s :=
    hacts.invariant (fun _ _ ho ha => ho.of_act ha) (orderly_newScheduler max db)
  have hnodup := ho.nodup
  unfold Scheduler.held at hnodup
  have hentries : ((s.queue.buffer ++ s.running ++ s.runningNow).map Check.id).Nodup := by
    rw [List.map_append, List.map_append]
    exact (List.nodup_append.mp hnodup).1
  refine ⟨hentries, ?_, fun p id => ⟨?_, ?_⟩⟩
  · rw [List.append_assoc, List.map_append] at hentries
    exact (List.nodup_append.mp hentries).2.1
  · have hcount := List.nodup_iff_count_le_one.mp hnodup id
    cases p <;> simp only [Scheduler.entries, List.count_append] at hcount ⊢ <;> omega
  · have hrun := tally_run hacts p id
    have hnone : ((newScheduler max db).entries p).count id = 0 := by cases p <;> rfl
    rw [hnone, Nat.zero_add] at hrun
    exact hrun

def queuedThenCalled : List Act :=
  [.move (.tick second), .move .advance, .move .advance, .move .take,
    .move (.finish (Check.mk "m" "web" (30 * second) true true)), .move (.runNow "m")]

theorem check_runs_alone_called :
    let start := newScheduler 1 (withCheck "m" oneResource)
    let s := queuedThenCalled.foldl act start
    s.runningNow.map Check.id = ["m"] ∧
      tally (fun s a => a.reserves s) (.caller, "m") start queuedThenCalled =
        tally (fun s a => a.releases s) (.caller, "m") start queuedThenCalled + 1 := by
  have hacts : Along act Act.Enabled (newScheduler 1 (withCheck "m" oneResource))
      queuedThenCalled := by decide +kernel
  exact ⟨by decide +kernel, ((check_runs_alone 1 _ hacts).2.2 .caller "m").2⟩

end Binnacle.Checks
