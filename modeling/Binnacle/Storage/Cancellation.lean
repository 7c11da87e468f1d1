import Binnacle.Storage.Sweep

/-!
# A cancelled deletion

`CancelDeletion` writes the state of a job, and so does the worker, without
looking at what it overwrites. Whether a cancellation lasts depends on where the
worker is: a state check must lie ahead of it (`Phase.timely`).

- `cancellation_lasts_iff`: a cancellation lasts, whatever follows, exactly at
  the timely places;
- `cancelled_job_completes`: the worker had read the job as queued.
-/

namespace Binnacle.Storage

open Relational Runs

/-! ## What a step does to the state of a job -/

inductive Transition (w : Deleter) (m : DeletionMove) (id : String) : JobState → JobState → Prop
  | same (state : JobState) : Transition w m id state state
  | cancelQueued (now : Time) : m = .cancel id now → Transition w m id .queued .cancelled
  | cancelRunning (now : Time) : m = .cancel id now → Transition w m id .running .cancelling
  | retryCancelled : m = .retry id → Transition w m id .cancelled .queued
  | retryFailed : m = .retry id → Transition w m id .failed .queued
  | recoverRunning (now : Time) : m = .restart now → Transition w m id .running .queued
  | recoverCancelling (now : Time) : m = .restart now → Transition w m id .cancelling .cancelled
  | start (order : RowOrder) (now : Time) (scope : Scope) (state : JobState) :
      m = .work order now → w.phase = .loaded id scope → Transition w m id state .running
  | stop (order : RowOrder) (now : Time) (state : JobState) :
      m = .work order now → w.phase = .stopping id → Transition w m id state .cancelled
  | fail (order : RowOrder) (now : Time) (e : SqlError) (state : JobState) :
      m = .work order now → w.phase = .failing id e → Transition w m id state .failed
  | complete (order : RowOrder) (now : Time) (deleted : Nat) (state : JobState) :
      m = .work order now → w.phase = .finishing id deleted → Transition w m id state .completed

def Stems (w : Deleter) (m : DeletionMove) (j' : DeletionJobRow) : Prop :=
  (∃ j ∈ w.store.jobs.table.rows, j.id = j'.id ∧ j.scope = j'.scope ∧
      Transition w m j'.id j.state j'.state) ∨
    (j'.state = .queued ∧ ∀ j ∈ w.store.jobs.table.rows, j.id ≠ j'.id)

def DeletionJobRow.fixed (j : DeletionJobRow) : DeletionJobRow :=
  { j with
    state := .queued
    startedAt := none
    finishedAt := none
    deletedRows := 0
    currentTable := none
    errorMessage := none }

section Steps

variable {w : Deleter} {m : DeletionMove} {s s' : Store} {j : DeletionJobRow} {id : String}
  {hash : String → String} {order : RowOrder} {now : Time} {scope : Scope} {table : DeletionTable}
  {todo : List DeletionTable} {deleted c : Nat}

theorem fixed_column {β : Type} {k : DeletionJobRow} (h : j.fixed = k.fixed)
    (column : DeletionJobRow → β) (hcolumn : ∀ j, column j.fixed = column j) :
    column j = column k := by
  rw [← hcolumn j, ← hcolumn k, h]

def Rewrites (w : Deleter) (m : DeletionMove) (s : Store) : Prop :=
  ∃ f : DeletionJobRow → DeletionJobRow, s.jobs.table.rows = w.store.jobs.table.rows.map f ∧
    ∀ j, (f j).fixed = j.fixed ∧ Transition w m j.id j.state (f j).state

section Rewrites

variable {p : DeletionJobRow → Bool} {f : DeletionJobRow → DeletionJobRow}
  {hf : ∀ j, (f j).id = j.id}

theorem rewrites_same (h : s.jobs = w.store.jobs) : Rewrites w m s :=
  ⟨fun j => j, by rw [h, List.map_id'], fun _ => ⟨rfl, .same _⟩⟩

theorem rewrites_update (htable : s.jobs.table = w.store.jobs.table.update p f hf)
    (hfixed : ∀ j, (f j).fixed = j.fixed)
    (htrans : ∀ j, p j = true → Transition w m j.id j.state (f j).state) : Rewrites w m s := by
  refine ⟨fun j => if p j then f j else j, by rw [htable]; rfl, fun j => ?_⟩
  dsimp only
  split
  · next hp => exact ⟨hfixed j, htrans j hp⟩
  · exact ⟨rfl, .same _⟩

theorem settle_cases {s : Store} :
    (s.settle (s.jobs.update p f hf)).jobs.table = s.jobs.table.update p f hf ∨
      s.settle (s.jobs.update p f hf) = s := by
  unfold Store.settle
  split
  · next jobs hok => exact .inl (Jobs.commit_ok hok)
  · exact .inr rfl

theorem rewrites_settle (hfixed : ∀ j, (f j).fixed = j.fixed)
    (htrans : ∀ j, p j = true → Transition w m j.id j.state (f j).state) :
    Rewrites w m (w.store.settle (w.store.jobs.update p f hf)) := by
  rcases @settle_cases p f hf w.store with htable | hsame
  · exact rewrites_update htable hfixed htrans
  · rw [hsame]
    exact rewrites_same rfl

theorem rewrites_call {result : Except DeletionError Store}
    (h : ∀ s, result = .ok s → Rewrites w m s) : Rewrites w m (w.call result).store := by
  cases result with
  | ok s => exact h s rfl
  | error e => exact rewrites_same rfl

end Rewrites

theorem Works.rewrites {w' : Deleter} (h : Works order now w w') :
    Rewrites w (.work order now) w'.store := by
  cases h with
  | rest | pick | load | halt | goOn | fail => exact rewrites_same rfl
  | start hok =>
    refine rewrites_update (Jobs.commit_ok hok) (fun _ => rfl) fun j hp => ?_
    obtain rfl := of_decide_eq_true hp
    exact .start order now _ _ rfl rfl
  | sweep hbatch => exact rewrites_same (batch_ok hbatch).jobs
  | count => exact rewrites_settle (fun _ => rfl) fun j _ => .same _
  | stop =>
    refine rewrites_settle (fun _ => rfl) fun j hp => ?_
    obtain rfl := of_decide_eq_true hp
    exact .stop order now _ rfl rfl
  | giveUp =>
    refine rewrites_settle (fun _ => rfl) fun j hp => ?_
    obtain rfl := of_decide_eq_true hp
    exact .fail order now _ _ rfl rfl
  | finish =>
    refine rewrites_settle (fun _ => rfl) fun j hp => ?_
    obtain rfl := of_decide_eq_true hp
    exact .complete order now _ _ rfl rfl

theorem previewDeletion_jobs {date : Time → String} {token : String} {r : DeletionRequest}
    (h : previewDeletion hash date order now token r s = .ok s') : s'.jobs = s.jobs := by
  unfold previewDeletion at h
  cases hvalid : validDeletion r with
  | error e => simp [hvalid, bind, Except.bind] at h
  | ok u =>
    cases hcheck : checkResource s r with
    | error e => simp [hvalid, hcheck, bind, Except.bind] at h
    | ok v =>
      simp only [hvalid, hcheck, bind, Except.bind] at h
      split at h
      · cases h
        rfl
      · cases h

theorem createDeletion_jobs {token confirmation actor : String}
    (h : createDeletion hash now token confirmation actor id s = .ok s') :
    ∃ job, job.state = .queued ∧ (∀ j ∈ s.jobs.table.rows, j.id ≠ job.id) ∧
      s'.jobs.table.rows = s.jobs.table.rows ++ [job] := by
  obtain ⟨p, -, -, -, jobs, rfl, hnew, hrows⟩ := createDeletion_cases h
  exact ⟨newJob p id actor now (deletionCount p.scope s), rfl, hnew, hrows⟩

theorem cancelDeletion_ok (h : cancelDeletion id now s = .ok s') :
    s.jobs.table.rows.countP (cancellable id) = 1 ∧ ∃ jobs, s' = { s with jobs } ∧
      jobs.table = s.jobs.table.update (cancellable id) (cancelJob now) (cancelJob_id now) := by
  unfold cancelDeletion at h
  split at h
  · cases h
  · next jobs hok =>
    split at h
    · next hone =>
      cases h
      exact ⟨hone, jobs, rfl, Jobs.commit_ok hok⟩
    · cases h

theorem retryDeletion_ok (h : retryDeletion id s = .ok s') :
    ∃ jobs, s' = { s with jobs } ∧
      jobs.table = s.jobs.table.update (retryable id) requeueJob (fun _ => rfl) := by
  unfold retryDeletion at h
  split at h
  · cases h
  · next jobs hok =>
    split at h
    · cases h
      exact ⟨jobs, rfl, Jobs.commit_ok hok⟩
    · cases h

theorem cancelJob_fixed (now : Time) (j : DeletionJobRow) : (cancelJob now j).fixed = j.fixed := by
  unfold cancelJob
  split <;> rfl

theorem transition_cancel (h : cancellable id j = true) :
    Transition w (.cancel id now) j.id j.state (cancelJob now j).state := by
  simp only [cancellable, Bool.and_eq_true, Bool.or_eq_true, decide_eq_true_eq] at h
  obtain ⟨rfl, hstate | hstate⟩ := h
  · simp only [cancelJob, hstate, if_true]
    exact .cancelQueued now rfl
  · have hne : ¬ JobState.running = .queued := by decide
    simp only [cancelJob, hstate, if_neg hne]
    exact .cancelRunning now rfl

theorem rewrites_restart (w : Deleter) (now : Time) :
    Rewrites w (.restart now) (recoverDeletionJobs now w.store) := by
  unfold recoverDeletionJobs
  dsimp only
  generalize hmid : w.store.settle _ = mid
  obtain ⟨f, hrows, hf⟩ : Rewrites w (.restart now) mid := by
    rw [← hmid]
    refine rewrites_settle (fun _ => by rfl) fun j hp => ?_
    rw [of_decide_eq_true hp]
    exact .recoverRunning now rfl
  rcases settle_cases with htable | hsame
  · rw [Rewrites, htable, Table.rows_update, hrows, List.map_map]
    refine ⟨_, rfl, fun j => ?_⟩
    simp only [Function.comp_apply]
    split
    · next hp =>
      obtain ⟨hfixed, htrans⟩ := hf j
      refine ⟨hfixed, ?_⟩
      rw [of_decide_eq_true hp] at htrans
      -- only a job that was cancelling already is cancelling after the first statement
      generalize j.state = state at htrans
      cases htrans with
      | same => exact .recoverCancelling now rfl
      | cancelRunning _ h => cases h
    · exact hf j
  · rw [hsame]
    exact ⟨f, hrows, hf⟩

/-- `CreateDeletion` is called. -/
def DeletionMove.creates : DeletionMove → Bool
  | .create .. => true
  | _ => false

theorem rewrites_step (w : Deleter) (hm : m.creates = false) :
    Rewrites w m (w.step m).store := by
  cases m with
  | work order now => exact (w.works order now).rewrites
  | restart now => exact rewrites_restart w now
  | create => cases hm
  | elsewhere db networkSamples bootSessions => exact rewrites_same rfl
  | preview hash date order now token request =>
    exact rewrites_call fun s hok => rewrites_same (previewDeletion_jobs hok)
  | cancel id now =>
    refine rewrites_call fun s hok => ?_
    obtain ⟨-, jobs, rfl, htable⟩ := cancelDeletion_ok hok
    exact rewrites_update htable (cancelJob_fixed now) fun j hp => transition_cancel hp
  | retry id =>
    refine rewrites_call fun s hok => ?_
    obtain ⟨jobs, rfl, htable⟩ := retryDeletion_ok hok
    refine rewrites_update htable (fun _ => rfl) fun j hp => ?_
    simp only [retryable, Bool.and_eq_true, Bool.or_eq_true, decide_eq_true_eq] at hp
    obtain ⟨rfl, hstate | hstate⟩ := hp
    · exact hstate ▸ .retryCancelled rfl
    · exact hstate ▸ .retryFailed rfl

/-- With `CreateDeletion` there is one more, or the call was refused. -/
theorem create_step (hm : m.creates = true) :
    (w.step m).store.jobs.table.rows = w.store.jobs.table.rows ∨
      ∃ job, job.state = .queued ∧ (∀ j ∈ w.store.jobs.table.rows, j.id ≠ job.id) ∧
        (w.step m).store.jobs.table.rows = w.store.jobs.table.rows ++ [job] := by
  cases m with
  | create hash now token confirmation actor id =>
    unfold Deleter.step Deleter.call
    dsimp only
    split
    · next hok => exact .inr (createDeletion_jobs hok)
    · exact .inl rfl
  | _ => cases hm

theorem stems_step {j' : DeletionJobRow}
    (hj' : j' ∈ (w.step m).store.jobs.table.rows) : Stems w m j' := by
  have hsame : j' ∈ w.store.jobs.table.rows → Stems w m j' := fun hj =>
    .inl ⟨j', hj, rfl, rfl, .same _⟩
  cases hm : m.creates with
  | false =>
    obtain ⟨f, hrows, hf⟩ := rewrites_step w hm
    rw [hrows] at hj'
    obtain ⟨j, hj, rfl⟩ := List.mem_map.mp hj'
    obtain ⟨hfixed, htrans⟩ := hf j
    have hid := fixed_column hfixed DeletionJobRow.id fun _ => rfl
    exact .inl ⟨j, hj, hid.symm,
      (fixed_column hfixed DeletionJobRow.scope fun _ => rfl).symm, hid ▸ htrans⟩
  | true =>
    rcases create_step hm with hrows | ⟨job, hqueued, hnew, hrows⟩
    · exact hsame (hrows ▸ hj')
    · rcases mem_snoc hrows hj' with hj' | rfl
      · exact hsame hj'
      · exact .inr ⟨hqueued, hnew⟩

theorem fixed_of_step (m : DeletionMove) (hj : j ∈ w.store.jobs.table.rows) :
    ∃ j' ∈ (w.step m).store.jobs.table.rows, j'.fixed = j.fixed := by
  cases hm : m.creates with
  | false =>
    obtain ⟨f, hrows, hf⟩ := rewrites_step w hm
    exact ⟨f j, hrows ▸ List.mem_map_of_mem hj, (hf j).1⟩
  | true =>
    refine ⟨j, ?_, rfl⟩
    rcases create_step (w := w) hm with hrows | ⟨job, -, -, hrows⟩
    · exact hrows ▸ hj
    · exact hrows ▸ List.mem_append_left _ hj

theorem exists_step (m : DeletionMove) (hj : j ∈ w.store.jobs.table.rows) :
    ∃ j' ∈ (w.step m).store.jobs.table.rows, j'.id = j.id := by
  obtain ⟨j', hj', hfixed⟩ := fixed_of_step m hj
  exact ⟨j', hj', fixed_column hfixed DeletionJobRow.id fun _ => rfl⟩

theorem step_phase (hwork : ∀ order now, m ≠ .work order now) (hrestart : ∀ now, m ≠ .restart now) :
    (w.step m).phase = w.phase ∧ (w.step m).batches = w.batches := by
  have hcall : ∀ result, (w.call result).phase = w.phase ∧ (w.call result).batches = w.batches := by
    intro result
    unfold Deleter.call
    split <;> exact ⟨rfl, rfl⟩
  cases m with
  | work order now => exact absurd rfl (hwork order now)
  | restart now => exact absurd rfl (hrestart now)
  | elsewhere db networkSamples bootSessions => exact ⟨rfl, rfl⟩
  | preview | create | cancel | retry => exact hcall _

/-! ## The job that the worker works on -/

/-- The worker has marked the job as running and not yet let go of it. -/
def Phase.engaged (id : String) : Phase → Bool
  | .idle | .picked _ | .loaded _ _ => false
  | .checking other _ _ _ _ | .stopping other | .sweeping other _ _ _ _ | .failing other _
  | .counting other _ _ _ _ _ | .finishing other _ => other = id

/-- The worker has read the job. -/
def Phase.holds (id : String) : Phase → Bool
  | .loaded other _ => other = id
  | phase => phase.engaged id

theorem Phase.holds_of_engaged {phase : Phase} (h : phase.engaged id = true) :
    phase.holds id = true := by
  cases phase with
  | loaded other scope => cases h
  | _ => exact h

structure Engaged (w : Deleter) : Prop where
  found : ∀ id, w.phase.holds id = true → ∃ j ∈ w.store.jobs.table.rows, j.id = id
  state : ∀ id, w.phase.engaged id = true → ∀ j ∈ w.store.jobs.table.rows, j.id = id →
    j.state = .running ∨ j.state = .cancelling

theorem Phase.engaged_enter {other : String} :
    (Phase.enter id scope deleted todo).engaged other = decide (id = other) := by
  cases todo <;> rfl

theorem Phase.holds_enter {other : String} :
    (Phase.enter id scope deleted todo).holds other = decide (id = other) := by
  cases todo <;> rfl

theorem Works.engaged {w' : Deleter} (h : Works order now w w')
    (hid : w'.phase.engaged id = true) :
    (w.phase.engaged id = true ∧ w'.store.jobs.table.rows.map (fun j => (j.id, j.state))
        = w.store.jobs.table.rows.map fun j => (j.id, j.state)) ∨
      ∀ j ∈ w'.store.jobs.table.rows, j.id = id → j.state = .running := by
  cases h with
  | rest | pick | load | stop | giveUp | finish => cases hid
  | start hok =>
    rw [Phase.engaged_enter] at hid
    obtain rfl := of_decide_eq_true hid
    exact .inr fun j hj hid => state_of_update (Jobs.commit_ok hok) (fun _ => rfl) hj hid
  | halt | goOn | fail => exact .inl ⟨hid, rfl⟩
  | sweep hbatch => exact .inl ⟨hid, by rw [(batch_ok hbatch).jobs]⟩
  | @count store _ other _ table _ deleted =>
    dsimp only at hid
    refine .inl ⟨?_, ?_⟩
    · split at hid
      · rwa [Phase.engaged_enter] at hid
      · exact hid
    · unfold Store.updateJob
      rcases @settle_cases (fun j => j.id = other) (noteProgress deleted table)
        (fun _ => rfl) store with htable | hsame
      · rw [htable]
        exact Table.map_rows_update _ _ _ fun _ => rfl
      · rw [hsame]

theorem Works.holds {w' : Deleter} (h : Works order now w w') (hid : w'.phase.holds id = true) :
    w.phase.holds id = true ∨ ∃ j ∈ w.store.jobs.table.rows, j.id = id := by
  cases h with
  | rest | pick | stop | giveUp | finish => cases hid
  | @load _ _ _ j hfind =>
    obtain rfl := of_decide_eq_true hid
    have hp := List.find?_some hfind
    simp only [Bool.and_eq_true, decide_eq_true_eq] at hp
    exact .inr ⟨j, List.mem_of_find?_eq_some hfind, hp.1⟩
  | start =>
    rw [Phase.holds_enter] at hid
    exact .inl hid
  | halt | goOn | sweep | fail => exact .inl hid
  | count =>
    dsimp only at hid
    split at hid
    · rw [Phase.holds_enter] at hid
      exact .inl hid
    · exact .inl hid

theorem engaged_step (h : Engaged w) (m : DeletionMove) : Engaged (w.step m) := by
  by_cases hwork : ∃ order now, m = .work order now
  · obtain ⟨order, now, rfl⟩ := hwork
    refine ⟨fun id hholds => ?_, fun id hengaged j' hj' hid => ?_⟩
    · have hfound : ∃ j ∈ w.store.jobs.table.rows, j.id = id := by
        rcases (w.works order now).holds hholds with hold | hread
        · exact h.found id hold
        · exact hread
      obtain ⟨j, hj, rfl⟩ := hfound
      exact exists_step _ hj
    · rcases (w.works order now).engaged hengaged with ⟨hold, hrows⟩ | hrunning
      · have hmem := List.mem_map_of_mem (f := fun j : DeletionJobRow => (j.id, j.state)) hj'
        replace hmem : (j'.id, j'.state) ∈
            (w.work order now).store.jobs.table.rows.map fun j => (j.id, j.state) := hmem
        rw [hrows] at hmem
        obtain ⟨j, hj, heq⟩ := List.mem_map.mp hmem
        obtain ⟨hjid, hjstate⟩ := Prod.mk.inj heq
        rw [← hjstate]
        exact h.state id hold j hj (hjid.trans hid)
      · exact .inl (hrunning j' hj' hid)
  by_cases hrestart : ∃ now, m = .restart now
  · obtain ⟨now, rfl⟩ := hrestart
    exact ⟨nofun, nofun⟩
  push Not at hwork hrestart
  have hphase := (step_phase (w := w) hwork hrestart).1
  refine ⟨fun id hholds => ?_, fun id hengaged j' hj' hid => ?_⟩
  · rw [hphase] at hholds
    obtain ⟨j, hj, rfl⟩ := h.found id hholds
    exact exists_step m hj
  · rw [hphase] at hengaged
    rcases stems_step hj' with ⟨j, hj, hjid, -, htrans⟩ | ⟨-, hnew⟩
    · have hstate := h.state id hengaged j hj (hjid.trans hid)
      generalize j.state = state at htrans hstate
      generalize j'.state = state' at htrans
      cases htrans with
      | same => exact hstate
      | cancelRunning => exact .inr rfl
      | cancelQueued | retryCancelled | retryFailed => simp at hstate
      | recoverRunning now hm | recoverCancelling now hm => exact absurd hm (hrestart now)
      | start order now _ _ hm | stop order now _ hm | fail order now _ _ hm
      | complete order now _ _ hm => exact absurd hm (hwork order now)
    · obtain ⟨j, hj, hjid⟩ := h.found id (Phase.holds_of_engaged hengaged)
      exact absurd (hjid.trans hid.symm) (hnew j hj)

/-! ## Runs -/

def Deleter.init : Deleter := { store := Store.new Database.empty }

def deletions : System Deleter DeletionMove :=
  System.ofStep Deleter.init Deleter.step fun _ _ => True

theorem engaged_of_reachable (h : deletions.Reachable w) : Engaged w := by
  refine System.Reachable.invariant Engaged ?_ ?_ h
  · exact ⟨nofun, nofun⟩
  · rintro s m s' hs ⟨-, rfl⟩
    exact engaged_step hs m

/-! ## After a cancellation -/

/-- A check of the state lies ahead of whatever the worker does next to the job
that a cancellation must stop. The check is passed when the job was read and not
yet marked as running, in the last batch of the last table, and when nothing is
left but the mark of completion. -/
def Phase.timely (id : String) : Phase → Bool
  | .loaded other _ | .finishing other _ => other ≠ id
  | .sweeping other _ _ rest _ => other ≠ id || !rest.isEmpty
  | .counting other _ _ rest _ n => other ≠ id || !rest.isEmpty || n ≠ 0
  | .idle | .picked _ | .checking _ _ _ _ _ | .stopping _ | .failing _ _ => true

def JobState.halted : JobState → Bool
  | .cancelling | .cancelled | .failed => true
  | .queued | .running | .completed => false

/-- A job was cancelled in time, after `c` batches. -/
structure Halting (id : String) (c : Nat) (w : Deleter) : Prop where
  engaged : Engaged w
  found : ∃ j ∈ w.store.jobs.table.rows, j.id = id
  halted : ∀ j ∈ w.store.jobs.table.rows, j.id = id → j.state.halted = true
  timely : w.phase.timely id = true
  batches : w.batches id ≤ c + 1
  -- the batch that the cancellation came too late for is still to come
  pending : ∀ scope table rest deleted, w.phase = .sweeping id scope table rest deleted →
    w.batches id = c

theorem Phase.timely_enter {other : String} (h : other ≠ id ∨ todo ≠ []) :
    (Phase.enter other scope deleted todo).timely id = true := by
  cases todo with
  | nil => simpa [Phase.enter, Phase.timely] using h
  | cons table rest => rfl

theorem Phase.enter_ne_sweeping {other : String} {scope' : Scope} {rest : List DeletionTable}
    {n : Nat} : Phase.enter other scope deleted todo ≠ .sweeping id scope' table rest n := by
  cases todo <;> exact nofun

theorem Halting.works (h : Halting id c w) {w' : Deleter} (hw : Works order now w w') :
    w'.phase.timely id = true ∧
      (∀ scope table rest deleted, w'.phase ≠ .sweeping id scope table rest deleted) ∧
      w'.batches id ≤ c + 1 := by
  obtain ⟨hengaged, hfound, hhalted, htimely, hbatches, hpending⟩ := h
  cases hw with
  | rest | pick | halt | fail | stop | giveUp | finish =>
    exact ⟨rfl, fun _ _ _ _ => nofun, hbatches⟩
  | @load _ _ other j hfind =>
    have hp := List.find?_some hfind
    simp only [Bool.and_eq_true, decide_eq_true_eq] at hp
    -- a job that is read as queued is not the one that was cancelled
    have hne : other ≠ id := by
      rintro rfl
      have := hhalted j (List.mem_of_find?_eq_some hfind) hp.1
      rw [hp.2] at this
      cases this
    exact ⟨decide_eq_true hne, fun _ _ _ _ => nofun, hbatches⟩
  | start =>
    have hne := of_decide_eq_true htimely
    exact ⟨Phase.timely_enter (.inl hne), fun _ _ _ _ => Phase.enter_ne_sweeping, hbatches⟩
  | @goOn _ _ other _ _ _ _ j hfind hstate =>
    obtain ⟨hj, hid⟩ := Table.find?_eq_some_iff.mp hfind
    have hne : other ≠ id := by
      rintro rfl
      have hhalt := hhalted j hj hid
      rcases hengaged.state other (decide_eq_true rfl) j hj hid with hrunning | hcancelling
      · rw [hrunning] at hhalt
        cases hhalt
      · exact hstate hcancelling
    refine ⟨by simp [Phase.timely, hne], fun _ _ _ _ hphase => ?_, hbatches⟩
    cases hphase
    exact hne rfl
  | @sweep _ batches other =>
    refine ⟨?_, fun _ _ _ _ => nofun, ?_⟩
    · simp only [Phase.timely, Bool.or_eq_true] at htimely ⊢
      exact .inl htimely
    · by_cases hid : other = id
      · subst hid
        have hc : batches other = c := hpending _ _ _ _ rfl
        simp [hc]
      · simpa [Function.update_of_ne (Ne.symm hid)] using hbatches
  | @count _ _ other _ _ rest =>
    dsimp only
    split
    · next hn =>
      have hrest : other ≠ id ∨ rest ≠ [] := by
        simpa [Phase.timely, hn] using htimely
      exact ⟨Phase.timely_enter hrest, fun _ _ _ _ => Phase.enter_ne_sweeping, hbatches⟩
    · exact ⟨rfl, fun _ _ _ _ => nofun, hbatches⟩

theorem halted_step (h : Halting id c w) (hm : m ≠ .retry id) :
    ∀ j ∈ (w.step m).store.jobs.table.rows, j.id = id → j.state.halted = true := by
  intro j' hj' hid
  rcases stems_step hj' with ⟨j, hj, hjid, -, htrans⟩ | ⟨-, hnew⟩
  · have hstate := h.halted j hj (hjid.trans hid)
    have htimely := h.timely
    rw [hid] at htrans
    generalize j.state = state at htrans hstate
    generalize j'.state = state' at htrans
    cases htrans with
    | same => exact hstate
    | cancelQueued | cancelRunning | recoverRunning => cases hstate
    | retryCancelled hretry | retryFailed hretry => exact absurd hretry hm
    | recoverCancelling | stop | fail => rfl
    | start order now scope _ _ hphase | complete order now deleted _ _ hphase =>
      rw [hphase] at htimely
      exact absurd rfl (of_decide_eq_true htimely)
  · obtain ⟨j, hj, hjid⟩ := h.found
    exact absurd (hjid.trans hid.symm) (hnew j hj)

theorem halting_step (h : Halting id c w) (hm : m ≠ .retry id) : Halting id c (w.step m) := by
  obtain ⟨j, hj, rfl⟩ := h.found
  have hengaged := engaged_step h.engaged m
  have hfound := exists_step m hj
  have hhalted := halted_step h hm
  by_cases hwork : ∃ order now, m = .work order now
  · obtain ⟨order, now, rfl⟩ := hwork
    obtain ⟨htimely, hsweeping, hbatches⟩ := h.works (w.works order now)
    exact ⟨hengaged, hfound, hhalted, htimely, hbatches,
      fun scope table rest deleted hphase => absurd hphase (hsweeping scope table rest deleted)⟩
  by_cases hrestart : ∃ now, m = .restart now
  · obtain ⟨now, rfl⟩ := hrestart
    exact ⟨hengaged, hfound, hhalted, rfl, h.batches,
      nofun⟩
  push Not at hwork hrestart
  obtain ⟨hphase, hbatches⟩ := step_phase (w := w) hwork hrestart
  refine ⟨hengaged, hfound, hhalted, ?_, ?_, ?_⟩
  · rw [hphase]
    exact h.timely
  · rw [hbatches]
    exact h.batches
  · rw [hphase, hbatches]
    exact h.pending

theorem halting_run (h : Halting id c w)
    {moves : List DeletionMove} (hmoves : ∀ m ∈ moves, m ≠ .retry id) :
    Halting id c (moves.foldl Deleter.step w) := by
  have halong : Along Deleter.step (fun _ m => m ≠ .retry id) w moves :=
    Along.of_mem (fun m hm _ => hmoves m hm) w
  exact halong.invariant (I := Halting id c) (fun _ _ hw hm => halting_step hw hm) h

theorem cancelled_now (h : cancelDeletion id now s = .ok s') :
    (∃ j ∈ s.jobs.table.rows, j.id = id ∧ j.state.active = true) ∧
      ∀ j ∈ s'.jobs.table.rows, j.id = id → j.state.halted = true := by
  obtain ⟨hone, jobs, rfl, htable⟩ := cancelDeletion_ok h
  have hpos : 0 < s.jobs.table.rows.countP (cancellable id) := by omega
  obtain ⟨j, hj, hp⟩ := List.countP_pos_iff.mp hpos
  have hj' := hp
  simp only [cancellable, Bool.and_eq_true, Bool.or_eq_true, decide_eq_true_eq] at hj'
  obtain ⟨hid, hstate⟩ := hj'
  refine ⟨⟨j, hj, hid, ?_⟩, fun k hk hkid => ?_⟩
  · rcases hstate with hstate | hstate <;> rw [hstate] <;> rfl
  · replace hk : k ∈ jobs.table.rows := hk
    rw [htable] at hk
    rcases (Table.mem_update (cancelJob_id now)).mp hk with ⟨hold, hnot⟩ | ⟨k', -, -, rfl⟩
    · -- the row with this id is the one that was counted
      rw [Table.eq_of_key_eq hold hj (hkid.trans hid.symm), hp] at hnot
      cases hnot
    · unfold cancelJob
      split <;> rfl

theorem halting_cancel (hw : Engaged w)
    (h : cancelDeletion id now w.store = .ok s') (htimely : w.phase.timely id = true) :
    Halting id (w.batches id) { w with store := s' } := by
  have hstep : w.step (.cancel id now) = { w with store := s' } := by
    show w.call (cancelDeletion id now w.store) = _
    rw [h]
    rfl
  obtain ⟨⟨j, hj, hid, -⟩, hhalted⟩ := cancelled_now h
  obtain ⟨j', hj', hid'⟩ := exists_step (.cancel id now) hj
  refine ⟨hstep ▸ engaged_step hw _, ⟨j', hstep ▸ hj', hid'.trans hid⟩, hhalted, htimely, ?_, ?_⟩
  · exact Nat.le_succ _
  · intro scope table rest deleted _
    rfl

/-! ## Where a cancellation comes too late -/

def Resumes (id : String) (w : Deleter) : Prop :=
  ∃ moves : List DeletionMove, (∀ m ∈ moves, m ≠ .retry id) ∧
    ∃ j ∈ (moves.foldl Deleter.step w).store.jobs.table.rows,
      j.id = id ∧ (j.state = .running ∨ j.state = .completed)

theorem Resumes.cons {id : String} {w : Deleter} {m : DeletionMove} (hm : m ≠ .retry id)
    (h : Resumes id (w.step m)) : Resumes id w := by
  obtain ⟨moves, hmoves, hj⟩ := h
  refine ⟨m :: moves, ?_, hj⟩
  intro n hn
  rcases List.mem_cons.mp hn with rfl | hn
  · exact hm
  · exact hmoves n hn

theorem resumes_finishing (hphase : w.phase = .finishing id deleted)
    (hfound : ∃ j ∈ w.store.jobs.table.rows, j.id = id) : Resumes id w := by
  obtain ⟨store, phase, batches⟩ := w
  obtain rfl : phase = .finishing id deleted := hphase
  obtain ⟨j, hj, hid⟩ := hfound
  obtain ⟨jobs, hsettle, htable⟩ := @Store.settle_updateJob store id (completeJob deleted 0)
    (fun _ => rfl) fun _ _ _ hactive => by cases hactive
  obtain ⟨j', hj', hid'⟩ := exists_of_update htable hj
  refine Resumes.cons (m := .work .stored 0) (by simp) ⟨[], by simp, j', ?_, hid'.trans hid, ?_⟩
  · show j' ∈
      (store.settle (store.updateJob id (completeJob deleted 0) (fun _ => rfl))).jobs.table.rows
    rw [hsettle]
    exact hj'
  · exact .inr (state_of_update htable (fun _ => rfl) hj' (hid'.trans hid))

theorem resumes_counting (hphase : w.phase = .counting id scope table [] deleted 0)
    (hfound : ∃ j ∈ w.store.jobs.table.rows, j.id = id) : Resumes id w := by
  obtain ⟨j, hj, hid⟩ := hfound
  obtain ⟨j', hj', hid'⟩ := exists_step (.work .stored 0) hj
  refine Resumes.cons (m := .work .stored 0) (by simp) ?_
  have hnext : (w.work .stored 0).phase = .finishing id deleted := by
    unfold Deleter.work
    rw [hphase]
    rfl
  exact resumes_finishing hnext ⟨j', hj', hid'.trans hid⟩

/-- The store with nothing but its jobs and previews. -/
def Store.emptied (s : Store) : Store :=
  { s with db := Database.empty, networkSamples := .empty, bootSessions := .empty }

theorem affected_emptied (table : DeletionTable) (s s' : Store) :
    table.slot.affected s.emptied s' = 0 := by
  have hrows : table.slot.rows s.emptied = [] := by
    rcases table with table | table <;> cases table <;> rfl
  unfold Slot.affected
  rw [hrows]
  exact Nat.zero_sub _

theorem batch_emptied (order : RowOrder) (scope : Scope) (s : Store) (table : DeletionTable) :
    ∃ s', batch order scope s.emptied table = .ok (s', 0) := by
  cases table with
  | history table =>
    refine ⟨deleteBatch order scope table s.emptied, ?_⟩
    have hnone : table.slot.affected s.emptied (deleteBatch order scope table s.emptied) = 0 :=
      affected_emptied (.history table) s _
    unfold batch
    dsimp only
    rw [hnone]
  | metadata table =>
    have hresource : ∀ s' id, lostResource s.emptied s' id = false := fun _ _ => rfl
    have hhost : ∀ s' id, lostHost s.emptied s' id = false := fun _ _ => rfl
    have href : ∀ s', Referenced s.emptied s' := fun s' =>
      ⟨fun _ _ id _ => hresource s' id, fun h _ => hresource s' h.resourceId,
        fun r _ => hhost s' r.hostId, fun b _ => hhost s' b.hostId⟩
    have hok := checkReferences_ok_iff.mpr ⟨href
      (table.slot.deleteSome order 500 (metadataSelects scope table) s.emptied), rfl⟩
    generalize cascade _ _ = s' at hok
    have hnone : table.slot.affected s.emptied s' = 0 := affected_emptied (.metadata table) s s'
    refine ⟨s', ?_⟩
    unfold batch deleteMetadataBatch
    simp only [hok, bind, Except.bind, pure, Except.pure, hnone]

theorem resumes_sweeping (hphase : w.phase = .sweeping id scope table [] deleted)
    (hfound : ∃ j ∈ w.store.jobs.table.rows, j.id = id) : Resumes id w := by
  -- someone else empties the tables, so that the last batch finds nothing
  refine Resumes.cons (m := .elsewhere Database.empty .empty .empty) (by simp) ?_
  obtain ⟨j, hj, hid⟩ := hfound
  generalize hw' : w.step (.elsewhere Database.empty .empty .empty) = w'
  have hj' : j ∈ w'.store.jobs.table.rows := by
    rw [← hw']
    exact hj
  obtain ⟨k, hk, hkid⟩ := exists_step (.work .stored 0) hj'
  refine Resumes.cons (m := .work .stored 0) (by simp) ?_
  obtain ⟨s', hbatch⟩ := batch_emptied .stored scope w.store table
  have hnext : (w'.work .stored 0).phase = .counting id scope table [] (deleted + 0) 0 := by
    have hstore : w'.store = w.store.emptied := hw' ▸ rfl
    have hsame : w'.phase = .sweeping id scope table [] deleted := hw' ▸ hphase
    unfold Deleter.work
    simp only [hsame, hstore, hbatch]
  exact resumes_counting hnext ⟨k, hk, hkid.trans hid⟩

theorem Jobs.update_of_alone (jobs : Jobs) {id : String} {f : DeletionJobRow → DeletionJobRow}
    {hf : ∀ j, (f j).id = j.id}
    (halone : ∀ j ∈ jobs.table.rows, j.state.active = true → j.id = id) :
    ∃ jobs', jobs.update (fun j => j.id = id) f hf = .ok jobs' ∧
      jobs'.table = jobs.table.update (fun j => j.id = id) f hf := by
  have hid : ∀ j ∈ (jobs.table.update (fun j => j.id = id) f hf).rows,
      j.state.active = true → j.id = id := by
    intro j hj hactive
    rcases (Table.mem_update_key hf).mp hj with ⟨hold, -⟩ | ⟨k, -, hk, rfl⟩
    · exact halone j hold hactive
    · exact (hf k).trans hk
  have hone : OneActive (jobs.table.update (fun j => j.id = id) f hf).rows := by
    intro j hj k hk hja hka
    exact (hid j hj hja).trans (hid k hk hka).symm
  refine ⟨⟨_, hone⟩, ?_, rfl⟩
  unfold Jobs.update Jobs.commit
  rw [dif_pos hone]

theorem resumes_loaded
    (hphase : w.phase = .loaded id scope) (h : cancelDeletion id now w.store = .ok s') :
    Resumes id { w with store := s' } := by
  obtain ⟨store, phase, batches⟩ := w
  obtain rfl : phase = .loaded id scope := hphase
  obtain ⟨⟨j, hj, hid, hactive⟩, -⟩ := cancelled_now h
  obtain ⟨-, jobs, rfl, htable⟩ := cancelDeletion_ok h
  have halone : ∀ k ∈ jobs.table.rows, k.state.active = true → k.id = id := by
    intro k hk hkactive
    rw [htable] at hk
    rcases (Table.mem_update (cancelJob_id now)).mp hk with ⟨hold, -⟩ | ⟨k', -, hp, rfl⟩
    · exact (store.jobs.oneActive k hold j hj hkactive hactive).trans hid
    · simp only [cancellable, Bool.and_eq_true, decide_eq_true_eq] at hp
      exact (cancelJob_id now k').trans hp.1
  obtain ⟨jobs', hok, htable'⟩ := @Jobs.update_of_alone jobs id (startJob 0) (fun _ => rfl) halone
  obtain ⟨k, hk, hkid⟩ := exists_of_update htable hj
  obtain ⟨k', hk', hkid'⟩ := exists_of_update htable' hk
  have hid' := hkid'.trans (hkid.trans hid)
  refine ⟨[.work .stored 0], by simp, k', ?_, hid', ?_⟩
  · simp only [List.foldl_cons, List.foldl_nil, Deleter.step, Deleter.work, Store.updateJob, hok]
    exact hk'
  · exact .inl (state_of_update htable' (fun _ => rfl) hk' hid')

theorem resumes_of_late
    (h : cancelDeletion id now w.store = .ok s') (hlate : w.phase.timely id = false) :
    Resumes id { w with store := s' } := by
  obtain ⟨⟨j, hj, hid, -⟩, -⟩ := cancelled_now h
  obtain ⟨-, jobs, rfl, htable⟩ := cancelDeletion_ok h
  obtain ⟨k, hk, hkid⟩ := exists_of_update htable hj
  have hfound : ∃ k ∈ jobs.table.rows, k.id = id := ⟨k, hk, hkid.trans hid⟩
  obtain ⟨store, phase, batches⟩ := w
  cases phase with
  | loaded other scope =>
    obtain rfl : other = id := by simpa [Phase.timely] using hlate
    exact resumes_loaded (w := ⟨store, .loaded other scope, batches⟩) rfl h
  | sweeping other scope table rest deleted =>
    obtain ⟨rfl, rfl⟩ : other = id ∧ rest = [] := by simpa [Phase.timely] using hlate
    exact resumes_sweeping rfl hfound
  | counting other scope table rest deleted n =>
    obtain ⟨⟨rfl, rfl⟩, rfl⟩ : (other = id ∧ rest = []) ∧ n = 0 := by
      simpa [Phase.timely] using hlate
    exact resumes_counting rfl hfound
  | finishing other deleted =>
    obtain rfl : other = id := by simpa [Phase.timely] using hlate
    exact resumes_finishing rfl hfound
  | idle | picked | checking | stopping | failing => cases hlate

/-- A cancellation lasts until a retry, at the cost of one batch at most, exactly
if a check of the state lies ahead of the worker. -/
theorem cancellation_lasts_iff {w : Deleter} (hw : deletions.Reachable w) {id : String}
    {now : Time} {s' : Store} (h : cancelDeletion id now w.store = .ok s') :
    (∀ moves : List DeletionMove, (∀ m ∈ moves, m ≠ .retry id) →
      (moves.foldl Deleter.step { w with store := s' }).batches id ≤ w.batches id + 1 ∧
      ∀ j ∈ (moves.foldl Deleter.step { w with store := s' }).store.jobs.table.rows,
        j.id = id → j.state ≠ .running ∧ j.state ≠ .completed) ↔
    w.phase.timely id = true := by
  constructor
  · intro hlasts
    by_contra hlate
    obtain ⟨moves, hmoves, j, hj, hid, hstate⟩ :=
      resumes_of_late h (Bool.eq_false_iff.mpr hlate)
    obtain ⟨hrunning, hcompleted⟩ := (hlasts moves hmoves).2 j hj hid
    exact hstate.elim hrunning hcompleted
  · intro htimely moves hmoves
    have hrun := halting_run (halting_cancel (engaged_of_reachable hw) h htimely) hmoves
    refine ⟨hrun.batches, fun j hj hid => ?_⟩
    have hhalted := hrun.halted j hj hid
    constructor <;> intro hstate <;> rw [hstate] at hhalted <;> cases hhalted

end Steps

/-! ## One job, cancelled in time and too late -/

/-- The deletion of everything that a database recorded is previewed and confirmed,
and the worker executes `n` statements. -/
def requested (n : Nat) : Deleter :=
  ([DeletionMove.elsewhere recorded .empty .empty,
      .preview id (fun _ => "") .stored second "token" { kind := .all },
      .create id second "token" "RESET ALL HISTORY" "admin" "del_1"]
    ++ List.replicate n (DeletionMove.work .stored (2 * second))).foldl Deleter.step Deleter.init

theorem requested_reachable (n : Nat) : deletions.Reachable (requested n) := by
  refine Along.reachable (Along.of_mem ?_ _) System.Reachable.init
  exact fun _ _ _ => trivial

def cancelledAfter (n : Nat) : Deleter := (requested n).step (.cancel "del_1" (3 * second))

def Deleter.states (w : Deleter) : List JobState := w.store.jobs.table.rows.map (·.state)

/-- The job is cancelled before its first batch. -/
theorem cancellation_lasts_recorded :
    (requested 3).states = [.running] ∧
    ∀ moves : List DeletionMove, (∀ m ∈ moves, m ≠ .retry "del_1") →
      (moves.foldl Deleter.step (cancelledAfter 3)).batches "del_1" ≤ 0 + 1 ∧
      ∀ j ∈ (moves.foldl Deleter.step (cancelledAfter 3)).store.jobs.table.rows,
        j.id = "del_1" → j.state ≠ .running ∧ j.state ≠ .completed := by
  have hok : (cancelDeletion "del_1" (3 * second) (requested 3).store).isOk = true := by
    decide +kernel
  cases hcancel : cancelDeletion "del_1" (3 * second) (requested 3).store with
  | error e =>
    rw [hcancel] at hok
    cases hok
  | ok s' =>
    have hstep : cancelledAfter 3 = { requested 3 with store := s' } := by
      show (requested 3).call (cancelDeletion "del_1" (3 * second) (requested 3).store) = _
      rw [hcancel]
      rfl
    have htimely : (requested 3).phase.timely "del_1" = true := by decide +kernel
    have hnone : (requested 3).batches "del_1" = 0 := by decide +kernel
    refine ⟨by decide +kernel, ?_⟩
    rw [hstep, ← hnone]
    exact (cancellation_lasts_iff (requested_reachable 3) hcancel).mpr htimely

/-- The worker has read the job as queued when it is cancelled: it marks the job
as running, deletes the event and completes. -/
theorem cancelled_job_completes :
    (requested 2).states = [.queued] ∧
    (cancelDeletion "del_1" (3 * second) (requested 2).store).isOk = true ∧
    (cancelledAfter 2).states = [.cancelled] ∧
    ((cancelledAfter 2).step (.work .stored (4 * second))).states = [.running] ∧
    ((List.replicate 100 (DeletionMove.work .stored (4 * second))).foldl Deleter.step
      (cancelledAfter 2)).states = [.completed] ∧
    (cancelledAfter 2).store.db.events.rows.length = 1 ∧
    ((List.replicate 100 (DeletionMove.work .stored (4 * second))).foldl Deleter.step
      (cancelledAfter 2)).store.db.events.rows = [] ∧
    1 < ((List.replicate 100 (DeletionMove.work .stored (4 * second))).foldl Deleter.step
      (cancelledAfter 2)).batches "del_1" := by
  decide +kernel

end Binnacle.Storage
