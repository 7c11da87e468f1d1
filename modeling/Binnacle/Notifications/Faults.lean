import Binnacle.Notifications.Attempts

/-!
# Deliveries and failing statements (`internal/notifications/worker.go:201-249, 444-459`)

`deliver` and `finish` make up to four statements for a delivery, and each of them can fail.
The outcome of an attempt is written whatever the status of the row is by then, and a row that
is claimed leaves `in_progress` only with that write.

- `deliver_eq_moves`: where nothing fails, it is what a worker of `Service` does;
- `deliver_intact_iff`: which failures leave the delivery as it should be;
- `delivery_wedged_and_revived`: a row that stays in progress, and a cancelled one that is sent.
-/

namespace Binnacle.Notifications

open Relational Runs Alerts Storage

variable {capacity : Nat} {id : String} {d : DeliveryRow} {db : Database}

/-! ## One call of `deliver` -/

/-- What happens to a call of `deliver` from outside: which of its statements fail, how the
attempt ends, and what others make of the database between its statements. A statement that
fails changes nothing. -/
structure Call where
  now : Time
  /-- The `UPDATE` that claims the row fails. -/
  claimFails : Bool
  /-- The row cannot be read back. -/
  loadFails : Bool
  /-- `SELECT attempt_count+1` of `finish` fails. -/
  countFails : Bool
  /-- The `UPDATE` of `finish` fails. -/
  writeFails : Bool
  /-- What the secrets, the configuration and the receiver make of the attempt. -/
  answer : Outcome
  finishedAt : Time
  afterClaim : Database → Database
  afterLoad : Database → Database
  afterCount : Database → Database

/-- `finish` (worker.go:444-459): errors of both statements are dropped. -/
def Call.finish (c : Call) (db : Database) (id : String) (o : Outcome) : Database :=
  if c.countFails then db
  else
    match db.deliveries.find? id with
    | none => db
    | some d =>
      if c.writeFails then c.afterCount db
      else writeOutcome (c.afterCount db) id (d.attemptCount + 1) o c.finishedAt

/-- `deliver` (worker.go:201-249). -/
def Call.deliver (c : Call) (db : Database) (id : String) : Database :=
  if c.claimFails then c.finish (c.afterClaim db) id ⟨true, "storage_error", 0⟩
  else if db.deliveries.rows.any (claimable db c.now id) then
    let db := c.afterClaim (claimDelivery db id c.now)
    if c.loadFails then db
    else
      match loadDelivery db id with
      | none => c.finish db id ⟨false, "channel_unavailable", 0⟩
      | some _ => c.finish (c.afterLoad db) id c.answer
  else db

def Call.smooth (now : Time) (answer : Outcome) (finishedAt : Time) : Call where
  now
  claimFails := false
  loadFails := false
  countFails := false
  writeFails := false
  answer
  finishedAt
  afterClaim := fun db => db
  afterLoad := fun db => db
  afterCount := fun db => db

/-- A smooth call is what worker `k` of a service does with the id it has taken. -/
theorem deliver_eq_moves {w : Service capacity} {k : Nat} (hk : w.workers k = .taken id)
    (now : Time) (answer : Outcome) (finishedAt : Time) :
    ([.claim k now, .load k, .send k, .respond k answer, .count k,
      .finish k finishedAt].foldl Service.step w).db
      = (Call.smooth now answer finishedAt).deliver w.db id := by
  show (((((w.claim k now).load k).send k).respond k answer).count k |>.finish k finishedAt).db = _
  cases hany : w.db.deliveries.rows.any (claimable w.db now id) with
  | false =>
    simp [Service.claim, hk, hany, Service.enter, Service.load, Service.send, Service.respond,
      Service.count, Service.finish, Call.deliver, Call.smooth]
  | true =>
    cases hload : loadDelivery (claimDelivery w.db id now) id with
    | none =>
      cases hfind : (claimDelivery w.db id now).deliveries.find? id with
      | none | some d =>
        simp [Service.claim, hk, hany, Service.enter, Service.load, hload, Service.send,
          Service.respond, Service.count, hfind, Service.finish, Call.deliver, Call.smooth,
          Call.finish]
    | some p =>
      obtain ⟨d, hd, rfl, rfl⟩ := loadDelivery_eq_some hload
      have hfind : (claimDelivery w.db d.id now).deliveries.find? d.id = some d :=
        Table.find?_eq_some_iff.mpr ⟨hd, rfl⟩
      simp [Service.claim, hk, hany, Service.enter, Service.load, hload, Service.send,
        Service.respond, Service.count, hfind, Service.finish, Call.deliver, Call.smooth,
        Call.finish, parcelOf]

def dueOnce : Database := (after announce).db

/-- Worker 0 has taken the delivery that is due, and it is delivered. -/
theorem deliver_eq_moves_due :
    (([.claim 0 (20 * second), .load 0, .send 0, .respond 0 ⟨false, "", 0⟩, .count 0,
      .finish 0 (21 * second)].foldl Service.step
        ((after announce).enter 0 (.taken "del_xff"))).db.deliveries.rows.map
          DeliveryRow.status) = [.succeeded] := by
  rw [@deliver_eq_moves 8 "del_xff" _ 0 rfl (20 * second) ⟨false, "", 0⟩ (21 * second)]
  decide +kernel

/-! ## Meanwhile -/

/-- What others may do to a row that a worker is busy with: at most it is cancelled, and only
while it is pending. -/
structure Steady (d d' : DeliveryRow) : Prop where
  attempts : d'.attemptCount = d.attemptCount
  status : d'.status = d.status ∨ d.status = .pending ∧ d'.status = .cancelled

theorem Steady.refl (d : DeliveryRow) : Steady d d := ⟨rfl, .inl rfl⟩

theorem Steady.eq_of_not_pending {d' : DeliveryRow} (h : Steady d d') (hs : d.status ≠ .pending) :
    d'.status = d.status :=
  h.status.resolve_right fun hcancelled => hs hcancelled.1

theorem Steady.idle {d' : DeliveryRow} (h : Steady d d') (hs : d.status ≠ .inProgress) :
    d'.status ≠ .inProgress := by
  rcases h.status with hsame | ⟨-, hcancelled⟩
  · rw [hsame]
    exact hs
  · rw [hcancelled]
    decide

theorem Steady.trans {a b c : DeliveryRow} (hab : Steady a b) (hbc : Steady b c) : Steady a c := by
  refine ⟨hbc.attempts.trans hab.attempts, ?_⟩
  rcases hab.status with hsame | ⟨hpending, hcancelled⟩
  · rw [← hsame]
    exact hbc.status
  · refine .inr ⟨hpending, ?_⟩
    rw [hbc.eq_of_not_pending (by rw [hcancelled]; decide)]
    exact hcancelled

/-- What others may do to the delivery of this id between two statements of its worker: keep
its row, or queue one. -/
structure Meanwhile (id : String) (db db' : Database) : Prop where
  kept : ∀ d, db.deliveries.find? id = some d →
    ∃ d', db'.deliveries.find? id = some d' ∧ Steady d d'
  queued : db.deliveries.find? id = none →
    ∀ d', db'.deliveries.find? id = some d' → d'.status ≠ .inProgress

theorem Meanwhile.of_eq {db' : Database} (h : db'.deliveries.find? id = db.deliveries.find? id) :
    Meanwhile id db db' := by
  constructor
  · intro d hd
    exact ⟨d, h.trans hd, .refl d⟩
  · intro hnone d' hd'
    rw [h, hnone] at hd'
    cases hd'

theorem Meanwhile.idle {db' : Database} (h : Meanwhile id db db')
    (hidle : ∀ d, db.deliveries.find? id = some d → d.status ≠ .inProgress) :
    ∀ d', db'.deliveries.find? id = some d' → d'.status ≠ .inProgress := by
  intro d' hd'
  cases hdb : db.deliveries.find? id with
  | none => exact h.queued hdb d' hd'
  | some d =>
    obtain ⟨x, hx, hsteady⟩ := h.kept d hdb
    obtain rfl : d' = x := Option.some.inj (hd'.symm.trans hx)
    exact hsteady.idle (hidle d hdb)

/-- What every transaction but `Retry` and the cleanup of deliveries does to a delivery is what
others may do meanwhile. -/
theorem Change.meanwhile {w : Service capacity} {c : Change} (hen : c.Enabled w)
    (hrun : c.run w.db = .ok db) (hretry : ∀ id now, c ≠ .retry id now)
    (hcleanup : ∀ now, c ≠ .transact (.cleanupDeliveries now)) (id : String) :
    Meanwhile id w.db db := by
  have hheirs := Change.heirs hen hrun
  constructor
  · intro d hd
    obtain ⟨hmem, hid⟩ := Table.find?_eq_some_iff.mp hd
    cases hfind : db.deliveries.find? id with
    | none =>
      have hgone := hheirs.kept hcleanup id (Table.find?_eq_none_iff_has.mp hfind)
      exact absurd hid (Table.has_eq_false_iff.mp hgone d hmem)
    | some x =>
      obtain ⟨hx, hxid⟩ := Table.find?_eq_some_iff.mp hfind
      refine ⟨x, rfl, ?_⟩
      cases hheirs.rows x hx with
      | carried e he hcarries =>
        obtain rfl : e = d :=
          Table.eq_of_key_eq he hmem (hcarries.id.symm.trans (hxid.trans hid.symm))
        exact ⟨hcarries.attempts, hcarries.status⟩
      | queued hnew =>
        exact absurd (hid.trans hxid.symm) (Table.has_eq_false_iff.mp hnew.absent d hmem)
      | retried e now _ hc => exact absurd hc (hretry _ _)
  · intro hnone x hfind
    obtain ⟨hx, hxid⟩ := Table.find?_eq_some_iff.mp hfind
    have hnot := Table.find?_eq_none_iff.mp hnone
    cases hheirs.rows x hx with
    | carried e he hcarries => exact absurd (hcarries.id.symm.trans hxid) (hnot e he)
    | queued hnew =>
      rcases hnew.status with hs | hs
      · rw [hs]
        decide
      · rw [hs]
        decide
    | retried e now _ hc => exact absurd hc (hretry _ _)

/-- A second alert joins the incident whose delivery is due, and its row stays as it is. -/
theorem meanwhile_joining : ∃ db,
    (Change.transact (.fire (some {}) (draws 'y') (memoryHigh 18))).run dueOnce = .ok db ∧
      db.incidentAlerts.rows.length = 2 ∧ dueOnce.deliveries.has "del_xff" = true ∧
      Meanwhile "del_xff" dueOnce db := by
  cases hrun : (Change.transact (.fire (some {}) (draws 'y') (memoryHigh 18))).run dueOnce with
  | error e =>
    have hok : ((Change.transact (.fire (some {}) (draws 'y') (memoryHigh 18))).run
        dueOnce).isOk = true := by decide +kernel
    rw [hrun] at hok
    cases hok
  | ok db =>
    refine ⟨db, rfl, ?_, by decide +kernel, ?_⟩
    · have hmembers : (((Change.transact (.fire (some {}) (draws 'y') (memoryHigh 18))).run
          dueOnce).toOption.map fun db => db.incidentAlerts.rows.length) = some 2 := by
        decide +kernel
      rw [hrun] at hmembers
      exact Option.some.inj hmembers
    · have hfresh : FreshFor (draws 'y') (after announce) := freshFor_draws (by decide +kernel)
      exact Change.meanwhile (w := after announce)
        (c := .transact (.fire (some {}) (draws 'y') (memoryHigh 18))) hfresh hrun
        (fun _ _ h => by cases h) (fun _ h => by cases h) "del_xff"

/-! ## What a call leaves -/

def Intact (id : String) (db db' : Database) : Prop :=
  (∀ d', db'.deliveries.find? id = some d' → d'.status ≠ .inProgress) ∧
    ∀ d, db.deliveries.find? id = some d → d.status.finished = true →
      ∀ d', db'.deliveries.find? id = some d' → d'.status = d.status

/-- The failures that do no harm: when the claim fails and the row is finished, so does a
statement of `finish`, or the row has failed for good after its last attempt anyway; when the
claim takes a row, nothing after it fails. -/
def Call.Harmless (c : Call) (db : Database) (id : String) : Prop :=
  if c.claimFails then
    ∀ d, db.deliveries.find? id = some d → d.status.finished = true →
      c.countFails = true ∨ c.writeFails = true ∨
        (d.status = .permanentFailure ∧ 6 ≤ d.attemptCount)
  else
    (∃ d ∈ db.deliveries.rows, claimable db c.now id d = true) →
      c.loadFails = false ∧ c.countFails = false ∧ c.writeFails = false

theorem find?_writeOutcome (h : db.deliveries.find? id = some d) (attempts : Nat) (o : Outcome)
    (now : Time) :
    (writeOutcome db id attempts o now).deliveries.find? id
      = some (finishDelivery attempts o now d) := by
  show (db.deliveries.update _ _ (finishDelivery_id attempts o now)).find? id = _
  rw [Table.find?_update, h]
  simp [(Table.find?_eq_some_iff.mp h).2]

/-- What `finish` leaves of a row: the outcome, unless a statement fails. -/
theorem Call.find?_finish {c : Call} (o : Outcome) (hmean : ∀ db, Meanwhile id db (c.afterCount db))
    (hd : db.deliveries.find? id = some d) :
    ∃ e, Steady d e ∧ (c.finish db id o).deliveries.find? id =
      some (if c.countFails = true ∨ c.writeFails = true then e
        else finishDelivery (d.attemptCount + 1) o c.finishedAt e) := by
  obtain ⟨e, he, hsteady⟩ := (hmean db).kept d hd
  unfold Call.finish
  cases hcount : c.countFails with
  | true => exact ⟨d, .refl d, by simp [hd]⟩
  | false =>
    cases hwrite : c.writeFails with
    | true => exact ⟨e, hsteady, by simp [hd, he]⟩
    | false => exact ⟨e, hsteady, by simp [hd, find?_writeOutcome he]⟩

theorem Call.finish_lets_go_iff {c : Call} (o : Outcome)
    (hmean : ∀ db, Meanwhile id db (c.afterCount db)) (hd : db.deliveries.find? id = some d)
    (hs : d.status = .inProgress) :
    (∀ d', (c.finish db id o).deliveries.find? id = some d' → d'.status ≠ .inProgress) ↔
      c.countFails = false ∧ c.writeFails = false := by
  obtain ⟨e, hsteady, hfind⟩ := Call.find?_finish o hmean hd
  have hes : e.status = .inProgress :=
    (hsteady.eq_of_not_pending (by rw [hs]; decide)).trans hs
  rw [hfind]
  simp only [Option.some.injEq, forall_eq']
  split
  · next hfails =>
    refine iff_of_false (fun h => h hes) ?_
    rintro ⟨hcount, hwrite⟩
    rw [hcount, hwrite] at hfails
    simp at hfails
  · next hfine =>
    rw [not_or, Bool.not_eq_true, Bool.not_eq_true] at hfine
    exact iff_of_true (finishDelivery_status _ _ _ _) hfine

theorem Call.unclaimed_intact_iff {c : Call} (hclaim : ∀ db, Meanwhile id db (c.afterClaim db))
    (hcount : ∀ db, Meanwhile id db (c.afterCount db))
    (hidle : ∀ d, db.deliveries.find? id = some d → d.status ≠ .inProgress) :
    Intact id db (c.finish (c.afterClaim db) id ⟨true, "storage_error", 0⟩) ↔
      ∀ d, db.deliveries.find? id = some d → d.status.finished = true →
        c.countFails = true ∨ c.writeFails = true ∨
          (d.status = .permanentFailure ∧ 6 ≤ d.attemptCount) := by
  have hgone : ∀ db, db.deliveries.find? id = none →
      c.finish db id ⟨true, "storage_error", 0⟩ = db := by
    intro db hnone
    unfold Call.finish
    rw [hnone]
    split <;> rfl
  -- whatever row there is by then, `finish` does not leave it in progress
  have hfirst : ∀ d', (c.finish (c.afterClaim db) id ⟨true, "storage_error", 0⟩).deliveries.find? id
      = some d' → d'.status ≠ .inProgress := by
    intro d' hd'
    cases hafter : (c.afterClaim db).deliveries.find? id with
    | none =>
      rw [hgone _ hafter, hafter] at hd'
      cases hd'
    | some d₁ =>
      obtain ⟨e, hsteady, hfind⟩ := Call.find?_finish ⟨true, "storage_error", 0⟩ hcount hafter
      rw [hfind] at hd'
      cases hd'
      split
      · exact hsteady.idle ((hclaim db).idle hidle d₁ hafter)
      · exact finishDelivery_status _ _ _ _
  refine (and_iff_right hfirst).trans (forall_congr' fun d => forall_congr' fun hd =>
    forall_congr' fun hs => ?_)
  have hnot : d.status ≠ .pending := by
    intro hpending
    rw [hpending] at hs
    cases hs
  obtain ⟨d₁, hd₁, hsteady₁⟩ := (hclaim db).kept d hd
  obtain ⟨e, hsteady₂, hfind⟩ := Call.find?_finish ⟨true, "storage_error", 0⟩ hcount hd₁
  have hsteady := hsteady₁.trans hsteady₂
  have hes := hsteady.eq_of_not_pending hnot
  rw [hfind]
  simp only [Option.some.injEq, forall_eq']
  split
  · next hfails => exact iff_of_true hes (or_assoc.mp (.inl hfails))
  · next hfine =>
    rw [not_or] at hfine
    rw [hsteady₁.attempts]
    -- the outcome is written over the finished row
    rcases finishDelivery_cases (d.attemptCount + 1) ⟨true, "storage_error", 0⟩ c.finishedAt e with
      ⟨hok, -⟩ | ⟨-, delay, hdelay, hstatus, -, -⟩ | ⟨-, hdelay, hstatus⟩
    · cases hok
    · obtain ⟨-, -, hle, -⟩ := retryDelay_eq_some hdelay
      rw [hstatus]
      refine iff_of_false (fun heq => hnot heq.symm) ?_
      rintro (hcf | hwf | ⟨-, hsix⟩)
      · exact hfine.1 hcf
      · exact hfine.2 hwf
      · omega
    · have hsix := retryDelay_eq_none (Nat.succ_pos _) hdelay
      rw [hstatus]
      constructor
      · exact fun heq => .inr (.inr ⟨heq.symm, Nat.le_of_lt_succ hsix⟩)
      · rintro (hcf | hwf | ⟨heq, -⟩)
        · exact absurd hcf hfine.1
        · exact absurd hwf hfine.2
        · exact heq.symm

theorem Call.claimed_intact_iff {c : Call} (hload : ∀ db, Meanwhile id db (c.afterLoad db))
    (hcount : ∀ db, Meanwhile id db (c.afterCount db)) (hd : db.deliveries.find? id = some d)
    (hs : d.status = .inProgress) :
    (∀ d', (if c.loadFails then db else
      match loadDelivery db id with
      | none => c.finish db id ⟨false, "channel_unavailable", 0⟩
      | some _ => c.finish (c.afterLoad db) id c.answer).deliveries.find? id = some d' →
        d'.status ≠ .inProgress) ↔
      c.loadFails = false ∧ c.countFails = false ∧ c.writeFails = false := by
  cases hfails : c.loadFails with
  | true =>
    refine iff_of_false (fun h => h d ?_ hs) (by simp)
    exact hd
  | false =>
    rw [if_neg (by decide), and_iff_right rfl]
    cases loadDelivery db id with
    | none => exact Call.finish_lets_go_iff _ hcount hd hs
    | some p =>
      obtain ⟨e, he, hsteady⟩ := (hload db).kept d hd
      refine Call.finish_lets_go_iff _ hcount he ?_
      rw [hsteady.eq_of_not_pending (by rw [hs]; decide)]
      exact hs

/-- A call of `deliver` for a row that nobody holds leaves it alone exactly when its failures
are harmless. -/
theorem deliver_intact_iff (c : Call) (db : Database) (id : String)
    (hidle : ∀ d, db.deliveries.find? id = some d → d.status ≠ .inProgress)
    (hclaim : ∀ db, Meanwhile id db (c.afterClaim db))
    (hload : ∀ db, Meanwhile id db (c.afterLoad db))
    (hcount : ∀ db, Meanwhile id db (c.afterCount db)) :
    Intact id db (c.deliver db id) ↔ c.Harmless db id := by
  unfold Call.deliver Call.Harmless
  cases hfails : c.claimFails with
  | true => exact Call.unclaimed_intact_iff hclaim hcount hidle
  | false =>
    simp only [Bool.false_eq_true, if_false]
    cases hany : db.deliveries.rows.any (claimable db c.now id) with
    | false =>
      refine iff_of_true ⟨hidle, fun d hd _ d' hd' => ?_⟩ ?_
      · exact congrArg DeliveryRow.status (Option.some.inj (hd'.symm.trans hd))
      · rintro ⟨d, hd, hclaimable⟩
        exact absurd hclaimable (by simpa using List.any_eq_false.mp hany d hd)
    | true =>
      obtain ⟨d, hd, hclaimable⟩ := List.any_eq_true.mp hany
      obtain ⟨hid, hdue, -⟩ := claimable_iff.mp hclaimable
      have hfind : db.deliveries.find? id = some d := Table.find?_eq_some_iff.mpr ⟨hd, hid⟩
      have hclaimed : (claimDelivery db id c.now).deliveries.find? id
          = some (startDelivery c.now d) :=
        Table.find?_eq_some_iff.mpr ⟨(claimDelivery_rows hd hclaimable).mpr (.inr rfl), hid⟩
      obtain ⟨e, he, hsteady⟩ := (hclaim (claimDelivery db id c.now)).kept _ hclaimed
      have hes : e.status = .inProgress :=
        hsteady.eq_of_not_pending (show DeliveryStatus.inProgress ≠ .pending by decide)
      rw [if_pos rfl, imp_iff_right ⟨d, hd, hclaimable⟩]
      refine Iff.trans ?_ (Call.claimed_intact_iff hload hcount he hes)
      -- the row was pending, so only the first half says something
      refine and_iff_left fun x hx hfinished => ?_
      rw [hfind] at hx
      cases hx
      rw [dueAt_pending hdue] at hfinished
      cases hfinished

/-! ## A wedged and a revived delivery -/

def withdrawn : Database :=
  (after (announce ++ [.write (.patchChannel "ops" false .warning true (18 * second))])).db

theorem idle_of_all (h : (db.deliveries.find? id).all (fun d => d.status ≠ .inProgress) = true) :
    ∀ d, db.deliveries.find? id = some d → d.status ≠ .inProgress := by
  intro d hd
  rw [hd] at h
  simpa using h

/-- Nothing fails, and the delivery succeeds. -/
theorem deliver_intact_iff_smooth :
    ((Call.smooth (20 * second) ⟨false, "", 0⟩ (21 * second)).deliver dueOnce
      "del_xff").deliveries.rows.map DeliveryRow.status = [.succeeded] ∧
    Intact "del_xff" dueOnce
      ((Call.smooth (20 * second) ⟨false, "", 0⟩ (21 * second)).deliver dueOnce "del_xff") := by
  refine ⟨by decide +kernel, ?_⟩
  refine (deliver_intact_iff _ dueOnce "del_xff" (idle_of_all (by decide +kernel))
    (fun _ => .of_eq rfl) (fun _ => .of_eq rfl) (fun _ => .of_eq rfl)).mpr ?_
  exact fun _ => ⟨rfl, rfl, rfl⟩

def wedging : Call :=
  { Call.smooth (20 * second) ⟨false, "", 0⟩ (21 * second) with loadFails := true }

def reviving : Call :=
  { Call.smooth (20 * second) ⟨false, "", 0⟩ (21 * second) with claimFails := true }

def statusOf (db : Database) (id : String) : Option DeliveryStatus :=
  (db.deliveries.find? id).map DeliveryRow.status

/-- A row that cannot be read back stays in progress; and when the claim of a cancelled row
fails, it is pending again, and sent once its channel is back. -/
theorem delivery_wedged_and_revived :
    (statusOf (wedging.deliver dueOnce "del_xff") "del_xff" = some .inProgress ∧
      ¬ Intact "del_xff" dueOnce (wedging.deliver dueOnce "del_xff")) ∧
    statusOf withdrawn "del_xff" = some .cancelled ∧
    statusOf (reviving.deliver withdrawn "del_xff") "del_xff" = some .pending ∧
    ¬ Intact "del_xff" withdrawn (reviving.deliver withdrawn "del_xff") ∧
    ((patchChannel (reviving.deliver withdrawn "del_xff") "ops" true .warning true
      (60 * second)).toOption.bind fun db =>
        statusOf ((Call.smooth (100 * second) ⟨false, "", 0⟩ (101 * second)).deliver db "del_xff")
          "del_xff") = some .succeeded := by
  have hwedged : statusOf (wedging.deliver dueOnce "del_xff") "del_xff" = some .inProgress := by
    decide +kernel
  have hcancelled : statusOf withdrawn "del_xff" = some .cancelled := by decide +kernel
  have hrevived : statusOf (reviving.deliver withdrawn "del_xff") "del_xff" = some .pending := by
    decide +kernel
  refine ⟨⟨hwedged, fun h => ?_⟩, hcancelled, hrevived, fun h => ?_, by decide +kernel⟩
  · obtain ⟨d, hd, hs⟩ := Option.map_eq_some_iff.mp hwedged
    exact h.1 d hd hs
  · obtain ⟨d, hd, hs⟩ := Option.map_eq_some_iff.mp hcancelled
    obtain ⟨d', hd', hs'⟩ := Option.map_eq_some_iff.mp hrevived
    have hkept := h.2 d hd (by rw [hs]; rfl) d' hd'
    rw [hs, hs'] at hkept
    cases hkept

end Binnacle.Notifications
