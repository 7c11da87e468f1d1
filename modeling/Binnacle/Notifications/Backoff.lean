import Binnacle.Notifications.Attempts
import Binnacle.Notifications.Ordering

/-!
# When a delivery is attempted again

`finish` writes the time of the next attempt into the row, from the table of delays and the
receiver's `Retry-After`. Until then the row is pending, and a pending row is what the next
alert of its incident coalesces with: `upsertDeliveryTx` rewrites the message, and with it the
time of the attempt.

- `parseRetryAfter`, `Heeds`: what the receiver asks for, and what it means to wait for it;
- `Paced`: the row waits long enough, unless an alert has coalesced with it;
- `backoff_respected`, `backoff_cut_short`: both sides of it.
-/

namespace Binnacle.Notifications

open Relational Runs Alerts Storage

variable {capacity : Nat} {id : String} {w : Service capacity} {f : Option (Outcome × Time)}

/-! ## What the receiver asks for -/

/-- The `Retry-After` header as `strconv.Atoi` or `http.ParseTime` read it; a date by the
time that is left until then. -/
inductive RetryAfter where
  | seconds (n : Int)
  | date (wait : Duration)
  | unreadable

/-- `parseRetryAfter` (worker.go:289-297). The product of seconds wraps around. -/
def parseRetryAfter : RetryAfter → Duration
  | .seconds n => if 0 < n then min (Int.bmod (n * second) (2 ^ 64)) hour else 0
  | .date wait => min (max wait 0) hour
  | .unreadable => 0

def RetryAfter.pause : RetryAfter → Duration
  | .seconds n => max (n * second) 0
  | .date wait => max wait 0
  | .unreadable => 0

theorem parseRetryAfter_le (header : RetryAfter) : parseRetryAfter header ≤ hour := by
  cases header with
  | seconds n =>
    simp only [parseRetryAfter]
    split
    · exact Int.min_le_right _ _
    · decide
  | date wait => exact Int.min_le_right _ _
  | unreadable => decide

theorem parseRetryAfter_of_le {header : RetryAfter} (h : header.pause ≤ hour) :
    parseRetryAfter header = header.pause := by
  cases header with
  | seconds n =>
    have hle : n * 1000000000 ≤ 3600000000000 := (Int.le_max_left _ _).trans h
    simp only [RetryAfter.pause, parseRetryAfter]
    split
    · next hn =>
      have hwrap : Int.bmod (n * second) (2 ^ 64) = n * second :=
        Int.bmod_eq_of_le (show -(2 ^ 64 / 2) ≤ n * 1000000000 by omega)
          (show n * 1000000000 < (2 ^ 64 + 1) / 2 by omega)
      have hpos : 0 ≤ n * second := show 0 ≤ n * 1000000000 by omega
      rw [hwrap, Int.max_eq_left hpos]
      exact Int.min_eq_left hle
    · next hn => exact (Int.max_eq_right (show n * 1000000000 ≤ 0 by omega)).symm
  | date wait => exact Int.min_eq_left h
  | unreadable => rfl

/-- The instant is late enough after the `k`-th attempt failed with this outcome: by the table,
and by a pause of an hour at most that the receiver asked for. -/
def Heeds (k : Nat) (o : Outcome) (failed now : Time) : Prop :=
  (∀ entry, retryDelays[k - 1]? = some entry → unix (failed + entry) ≤ unix now) ∧
    ∀ header, o.retryAfter = parseRetryAfter header → header.pause ≤ hour →
      unix (failed + header.pause) ≤ unix now

theorem heeds_of_retryDelay {k : Nat} {o : Outcome} {failed now : Time} {delay : Duration}
    (hdelay : retryDelay k o.retryable o.retryAfter = some delay) (hcap : o.retryAfter ≤ hour)
    (hnow : unix (failed + delay) ≤ unix now) : Heeds k o failed now := by
  obtain ⟨-, -, -, entry, hentry, rfl⟩ := retryDelay_eq_some hdelay
  have hboth : entry ≤ (if o.retryAfter > entry then min o.retryAfter hour else entry) ∧
      o.retryAfter ≤ (if o.retryAfter > entry then min o.retryAfter hour else entry) := by
    split
    · next hlonger =>
      rw [Int.min_eq_left hcap]
      exact ⟨Int.le_of_lt hlonger, Int.le_refl _⟩
    · next hshorter => exact ⟨Int.le_refl _, Int.not_lt.mp hshorter⟩
  constructor
  · intro e he
    rw [hentry] at he
    cases he
    exact (unix_mono (Int.add_le_add_left hboth.1 failed)).trans hnow
  · intro header hheader hle
    rw [← parseRetryAfter_of_le hle, ← hheader]
    exact (unix_mono (Int.add_le_add_left hboth.2 failed)).trans hnow

/-! ## The last failure -/

/-- The claim of worker `k` starts an attempt of the delivery. -/
def starts (id : String) (w : Service capacity) (k : Nat) (now : Time) : Bool :=
  match w.workers k with
  | .taken i => i = id && w.db.deliveries.rows.any (claimable w.db now i)
  | _ => false

def failureStep (id : String) (w : Service capacity) (m : Move) (f : Option (Outcome × Time)) :
    Option (Outcome × Time) :=
  if (w.step m).db.deliveries.has id = false then none
  else
    match m with
    | .finish k now =>
      match w.workers k with
      | .counted i o _ =>
        if i = id then (if o.success || !o.retryable then none else some (o, now)) else f
      | _ => f
    | _ => f

def failureAfter (id : String) : Service capacity → Option (Outcome × Time) → List Move →
    Option (Outcome × Time)
  | _, f, [] => f
  | w, f, m :: moves => failureAfter id (w.step m) (failureStep id w m f) moves

/-- No `Retry`, no restart, and receivers ask for a pause by the header only. -/
def Move.Plain : Move → Prop
  | .write (.retry _ _) => False
  | .restart _ _ _ => False
  | .respond _ o => ∃ header, o.retryAfter = parseRetryAfter header
  | _ => True

/-- No alert joins an incident while one of its messages waits to be tried again. -/
def Move.Patient (w : Service capacity) : Move → Prop
  | .write c => ∀ env eventType incidentID, c.Touches w env eventType incidentID →
      coalesces eventType = true → ∀ d ∈ w.db.deliveries.rows, d.incidentId = some incidentID →
      d.status = .pending → coalesces d.eventType = true → d.attemptCount = 0
  | _ => True

def Phase.outcome : Phase → Option Outcome
  | .finishing _ o | .counted _ o _ => some o
  | _ => none

structure Paced (id : String) (w : Service capacity) (f : Option (Outcome × Time)) : Prop where
  absent : w.db.deliveries.has id = false → f = none
  due : ∀ d ∈ w.db.deliveries.rows, d.id = id → d.status = .pending →
    ∀ o failed, f = some (o, failed) → 0 < d.attemptCount ∧
      ∃ next, d.nextAttemptAt = some next ∧
        ∀ now, next ≤ unix now → Heeds d.attemptCount o failed now
  capped : ∀ k o, (w.workers k).outcome = some o → o.retryAfter ≤ hour

theorem Paced.keep {w' : Service capacity} (h : Paced id w f)
    (hdeliveries : w'.db.deliveries = w.db.deliveries) (hworkers : w'.workers = w.workers) :
    Paced id w' f := by
  constructor
  · exact hdeliveries ▸ h.absent
  · exact hdeliveries ▸ h.due
  · exact hworkers ▸ h.capped

theorem Paced.enter (h : Paced id w f) (k : Nat) {phase : Phase}
    (hcapped : ∀ o, phase.outcome = some o → o.retryAfter ≤ hour) :
    Paced id (w.enter k phase) f := by
  refine ⟨h.absent, h.due, fun j o hj => ?_⟩
  simp only [Service.enter, Function.update_apply] at hj
  split at hj
  · exact hcapped o hj
  · exact h.capped j o hj

theorem Paced.forget (h : Paced id w f) : Paced id w none :=
  ⟨fun _ => rfl, fun _ _ _ _ _ _ hf => (by cases hf), h.capped⟩

theorem Paced.write (h : Paced id w f) {c : Change} {db : Database} (hheirs : Heirs w c db)
    (hplain : (Move.write c).Plain) (hpatient : (Move.write c).Patient w)
    (hhas : db.deliveries.has id = true) : Paced id { w with db } f := by
  refine ⟨fun habsent => ?_, fun x hx hid hs o failed hf => ?_, h.capped⟩
  · rw [show db.deliveries.has id = false from habsent] at hhas
    cases hhas
  · cases hheirs.rows x hx with
    | carried d hd hcarries =>
      have hpending := hcarries.pending hs
      obtain ⟨hpos, next, hnext, hheeds⟩ :=
        h.due d hd (hcarries.id.symm.trans hid) hpending o failed hf
      rw [hcarries.attempts]
      refine ⟨hpos, next, ?_, hheeds⟩
      rcases hcarries.next with hcancelled | hsame | ⟨env, eventType, incidentID, htouches, hco,
        hinc, -, hevent⟩
      · rw [hs] at hcancelled
        cases hcancelled
      · exact hsame.trans hnext
      · -- an alert that coalesces with the row finds it without attempts
        have hzero := hpatient env eventType incidentID htouches hco d hd hinc hpending hevent
        omega
    | queued hnew =>
      rw [h.absent (hid ▸ hnew.absent)] at hf
      cases hf
    | retried d now _ hretry =>
      rw [hretry] at hplain
      exact hplain.elim

theorem Paced.claim (h : Paced id w f) (k : Nat) {now : Time} {d : DeliveryRow}
    (hd : d ∈ w.db.deliveries.rows) (hclaim : claimable w.db now d.id d = true) :
    Paced id ({ w with db := claimDelivery w.db d.id now }.enter k (.claimed d.id)) f := by
  have hstarted : Paced id { w with db := claimDelivery w.db d.id now } f := by
    refine ⟨fun habsent => h.absent ?_, fun x hx hid hs => ?_, h.capped⟩
    · exact (Table.has_update w.db.deliveries (claimable w.db now d.id) (startDelivery now)
        (fun _ => rfl) id).symm.trans habsent
    · rcases (claimDelivery_rows hd hclaim).mp hx with ⟨hx, -⟩ | rfl
      · exact h.due x hx hid hs
      · cases hs
  exact hstarted.enter k nofun

theorem Paced.finish (h : Paced id w f) (hx : Exclusive w) {k : Nat} (now : Time) {i : String}
    {o : Outcome} {attempts : Nat} (hk : w.workers k = .counted i o attempts) :
    Paced id ({ w with db := writeOutcome w.db i attempts o now }.enter k (.delivered i))
      (if i = id then (if o.success || !o.retryable then none else some (o, now)) else f) := by
  have hheld : (w.workers k).held = some i := by rw [hk]; rfl
  obtain ⟨d, hd, hdid, -⟩ := hx.held k i hheld
  have hhas : (writeOutcome w.db i attempts o now).deliveries.has id = w.db.deliveries.has id :=
    Table.has_update _ _ _ (finishDelivery_id attempts o now) id
  refine Paced.enter ?_ k nofun
  split
  · next hid =>
    subst hid
    refine ⟨fun habsent => ?_, fun x hx hxid hs o' failed hf => ?_, h.capped⟩
    · exact absurd hdid (Table.has_eq_false_iff.mp (hhas.symm.trans habsent) d hd)
    · -- the row waits: the outcome was a failure, with a delay for the next attempt
      rcases mem_writeOutcome.mp hx with ⟨-, hne⟩ | ⟨e, -, -, rfl⟩
      · exact absurd hxid hne
      rcases finishDelivery_cases attempts o now e with
        ⟨-, hstatus⟩ | ⟨hfail, delay, hdelay, -, hattempts, hnext⟩ | ⟨-, -, hstatus⟩
      · rw [hstatus] at hs
        cases hs
      · obtain ⟨hretryable, hpos, -⟩ := retryDelay_eq_some hdelay
        rw [hfail, hretryable] at hf
        cases hf
        rw [hattempts]
        refine ⟨hpos, _, hnext, fun later hlater => heeds_of_retryDelay hdelay ?_ hlater⟩
        exact h.capped k o (by rw [hk]; rfl)
      · rw [hstatus] at hs
        cases hs
  · next hne =>
    refine ⟨fun habsent => h.absent (hhas.symm.trans habsent), fun x hx hxid => ?_, h.capped⟩
    rcases mem_writeOutcome.mp hx with ⟨hx, -⟩ | ⟨e, -, heid, rfl⟩
    · exact h.due x hx hxid
    · exact absurd (heid.symm.trans ((finishDelivery_id attempts o now e).symm.trans hxid)) hne

theorem Paced.turn (h : Paced id w f) {m : Move} {k : Nat} {a b : Phase} (hk : w.workers k = a)
    (hturn : Goes w.db m k a b) (hplain : m.Plain) : Paced id (w.enter k b) f := by
  refine h.enter k fun o ho => ?_
  cases hturn with
  | unavailable | refuse =>
    cases ho
    exact (by decide : (0 : Duration) ≤ hour)
  | respond k answer p =>
    cases ho
    obtain ⟨header, hheader⟩ := hplain
    rw [hheader]
    exact parseRetryAfter_le header
  | count k answer d _ =>
    refine h.capped k o ?_
    rw [hk]
    exact ho
  | _ => cases ho

theorem Paced.settle (h : Paced id w f) :
    Paced id w (if w.db.deliveries.has id = false then none else f) := by
  split
  · exact h.forget
  · exact h

theorem Paced.calm {m : Move} (h : Paced id w f) (hen : m.Enabled w) (hplain : m.Plain)
    (hpatient : m.Patient w) (hm : ∀ k now, m ≠ .finish k now) :
    Paced id (w.step m) (if (w.step m).db.deliveries.has id = false then none else f) := by
  cases w.steps m with
  | quiet hworkers _ hdb => exact (h.keep (by rw [hdb]) hworkers).settle
  | write c db hc hrun heq =>
    subst hc
    rw [heq]
    split
    · exact ⟨fun _ => rfl, fun _ _ _ _ _ _ hf => (by cases hf), h.capped⟩
    · next hhas =>
      exact h.write (Change.heirs hen hrun) hplain hpatient (Bool.not_eq_false _ ▸ hhas)
  | restart r env now hr _ =>
    subst hr
    exact hplain.elim
  | turn k a b hk hturn hdb _ hworkers =>
    exact ((h.turn hk hturn hplain).keep (by rw [hdb]; rfl) hworkers).settle
  | claim k now d _ hd hclaim heq =>
    rw [heq]
    exact (h.claim k hd hclaim).settle
  | send k p _ _ heq =>
    have hsent : Paced id { w with sent := w.sent ++ [p] } f := h.keep rfl rfl
    rw [heq]
    exact (hsent.enter k fun o ho => by cases ho).settle
  | finish k now i o attempts hf _ _ => exact absurd hf (hm k now)

theorem Paced.step {m : Move} (h : Paced id w f) (hx : Exclusive w) (hen : m.Enabled w)
    (hplain : m.Plain) (hpatient : m.Patient w) : Paced id (w.step m) (failureStep id w m f) := by
  cases m with
  | finish k now =>
    cases hk : w.workers k with
    | counted i o attempts =>
      simp only [failureStep, Service.step, Service.finish, hk]
      exact (h.finish hx now hk).settle
    | _ =>
      simp only [failureStep, Service.step, Service.finish, hk]
      exact h.settle
  | _ => exact h.calm hen hplain hpatient (by simp)

/-! ## The next attempt -/

/-- Without `Retry` and restart, failures are counted all along. -/
theorem tallyStep_plain (id : String) (w : Service capacity) {m : Move} (hplain : m.Plain)
    (t : Tally) : ∃ t', tallyStep id w m (some t) = some t' := by
  unfold tallyStep
  split
  · exact ⟨_, rfl⟩
  · split
    · exact hplain.elim
    · exact hplain.elim
    · split
      · split
        · exact ⟨_, rfl⟩
        · exact ⟨_, rfl⟩
      · exact ⟨_, rfl⟩
    · split
      · split
        · exact ⟨_, rfl⟩
        · exact ⟨_, rfl⟩
      · exact ⟨_, rfl⟩
    · exact ⟨_, rfl⟩

theorem paced_after {moves : List Move} {t : Tally} (hx : Exclusive w) (ht : Tallied id w t)
    (hf : Paced id w f)
    (h : Along Service.step (fun w m => m.Enabled w ∧ m.Plain ∧ m.Patient w) w moves) :
    Exclusive (moves.foldl Service.step w) ∧
      (∃ t', tallyAfter id w (some t) moves = some t' ∧
        Tallied id (moves.foldl Service.step w) t') ∧
      Paced id (moves.foldl Service.step w) (failureAfter id w f moves) := by
  induction moves generalizing w t f with
  | nil => exact ⟨hx, ⟨t, rfl, ht⟩, hf⟩
  | cons m moves ih =>
    obtain ⟨⟨hen, hplain, hpatient⟩, hrest⟩ := h
    obtain ⟨t', ht'⟩ := tallyStep_plain id w hplain t
    have hnext : Tallied id (w.step m) t' :=
      Tallied.step hx hen (fun s hs => by cases hs; exact ht) ht'
    have hih := ih (hx.step hen) hnext (hf.step hx hen hplain hpatient) hrest
    rw [← ht'] at hih
    exact hih

theorem starts_eq_true {k : Nat} {now : Time} (h : starts id w k now = true) :
    ∃ d ∈ w.db.deliveries.rows, d.id = id ∧ d.status = .pending ∧
      ∃ next, d.nextAttemptAt = some next ∧ next ≤ unix now := by
  unfold starts at h
  split at h
  · rw [Bool.and_eq_true, decide_eq_true_eq] at h
    obtain ⟨rfl, hany⟩ := h
    obtain ⟨d, hd, hclaim⟩ := List.any_eq_true.mp hany
    obtain ⟨hid, hdue, -⟩ := claimable_iff.mp hclaim
    rw [dueAt, Bool.and_eq_true, decide_eq_true_eq] at hdue
    obtain ⟨next, hnext, hle⟩ := (Option.any_eq_true _ _).mp hdue.2
    exact ⟨d, hd, hid, hdue.1, next, hnext, of_decide_eq_true hle⟩
  · cases h

/-- As long as no alert joins an incident one of whose messages waits to be tried again, the
next attempt of a delivery heeds the table and the receiver. -/
theorem backoff_respected (id : String) {moves pre : List Move} {k : Nat} {now : Time}
    (h : Along Service.step (fun w m => m.Enabled w ∧ m.Plain ∧ m.Patient w)
      (Service.start Database.empty : Service capacity) moves)
    (hpre : pre ++ [.claim k now] <+: moves)
    (hstarts : starts id (pre.foldl Service.step
      (Service.start Database.empty : Service capacity)) k now = true) :
    ∃ t, tallyAfter id (Service.start Database.empty : Service capacity) (some {}) pre = some t ∧
      ∀ o failed,
        failureAfter id (Service.start Database.empty : Service capacity) none pre
          = some (o, failed) → Heeds t.failures o failed now := by
  have hx : Exclusive (Service.start Database.empty : Service capacity) :=
    exclusive_start _ fun d hd => absurd hd List.not_mem_nil
  have ht : Tallied id (Service.start Database.empty : Service capacity) {} :=
    tallied_fresh hx fun d hd => absurd hd List.not_mem_nil
  have hf : Paced id (Service.start Database.empty : Service capacity) none :=
    ⟨fun _ => rfl, fun d hd => absurd hd List.not_mem_nil, fun k o ho => by cases ho⟩
  obtain ⟨-, ⟨t, htally, htallied⟩, hpaced⟩ := paced_after hx ht hf (h.at_snoc hpre).1
  refine ⟨t, htally, fun o failed hfailure => ?_⟩
  obtain ⟨d, hd, hid, hs, next, hnext, hle⟩ := starts_eq_true hstarts
  obtain ⟨-, next', hnext', hheeds⟩ := hpaced.due d hd hid hs o failed hfailure
  rw [← htallied.counts d hd hid (.inl hs)]
  rw [hnext] at hnext'
  cases hnext'
  exact hheeds now hle

def handOver (at_ : Int) : List Move :=
  [.query .stored (at_ * second), .offer (at_ * second), .take 0]

def failedOnce : List Move := announce ++ (attemptAt 20 ++ failAt 21)

theorem plain_failedOnce :
    Along Service.step (fun w m => m.Enabled w ∧ m.Plain ∧ m.Patient w) (after []) failedOnce := by
  have henabled : Along Service.step Move.Enabled (after []) failedOnce :=
    along_announce.append (.append (along_attemptAt _ 20) (along_failAt _ 21))
  refine henabled.and (Along.and ?_ ?_)
  · have hanswer : (Move.respond 0 ⟨true, "http_500", 0⟩).Plain := ⟨.unreadable, rfl⟩
    exact ⟨trivial, trivial, trivial, trivial, trivial, trivial, trivial, trivial, trivial, hanswer,
      trivial, trivial, trivial, trivial⟩
  · -- the alert that opens the incident finds no delivery
    refine .append ⟨fun _ _ _ h => h.elim, fun _ _ _ h => h.elim, ?_, trivial⟩ ?_
    · exact fun _ _ _ _ _ d hd => absurd hd List.not_mem_nil
    · exact ⟨trivial, trivial, trivial, trivial, trivial, trivial, trivial, trivial, trivial,
        trivial, trivial⟩

theorem plain_handOver (w : Service 8) (at_ : Int) :
    Along Service.step (fun w m => m.Enabled w ∧ m.Plain ∧ m.Patient w) w (handOver at_) :=
  ⟨⟨trivial, trivial, trivial⟩, ⟨trivial, trivial, trivial⟩, ⟨trivial, trivial, trivial⟩, trivial⟩

/-- Undisturbed, the second attempt starts after a minute. -/
theorem backoff_respected_resent :
    starts "del_xff" (after (failedOnce ++ handOver 100)) 0 (100 * second) = true ∧
    ∃ t, tallyAfter "del_xff" (after []) (some {}) (failedOnce ++ handOver 100) = some t ∧
      ∀ o failed, failureAfter "del_xff" (after []) none (failedOnce ++ handOver 100)
        = some (o, failed) → Heeds t.failures o failed (100 * second) := by
  have hstarts : starts "del_xff" (after (failedOnce ++ handOver 100)) 0 (100 * second) = true := by
    decide +kernel
  have hrun : Along Service.step (fun w m => m.Enabled w ∧ m.Plain ∧ m.Patient w) (after [])
      (failedOnce ++ handOver 100 ++ [.claim 0 (100 * second)]) :=
    .append (plain_failedOnce.append (plain_handOver _ 100)) ⟨⟨trivial, trivial, trivial⟩, trivial⟩
  exact ⟨hstarts, backoff_respected "del_xff" hrun (List.prefix_refl _) hstarts⟩

/-- A second alert joins the incident while its message waits: the attempt that failed at 21
seconds is repeated at 50, not after a minute. -/
theorem backoff_cut_short :
    Along Service.step (fun w m => m.Enabled w ∧ m.Plain) (after [])
      (failedOnce ++ (join 30 ++ handOver 50) ++ [.claim 0 (50 * second)]) ∧
    starts "del_xff" (after (failedOnce ++ (join 30 ++ handOver 50))) 0 (50 * second) = true ∧
    tallyAfter "del_xff" (after []) (some {}) (failedOnce ++ (join 30 ++ handOver 50))
      = some ⟨1, 1, false⟩ ∧
    failureAfter "del_xff" (after []) none (failedOnce ++ (join 30 ++ handOver 50))
      = some (⟨true, "http_500", 0⟩, 21 * second) ∧
    ¬ Heeds 1 ⟨true, "http_500", 0⟩ (21 * second) (50 * second) := by
  refine ⟨?_, by decide +kernel, by decide +kernel, by decide +kernel, fun hheeds => ?_⟩
  · have hforget : ∀ (w : Service 8) (m : Move), m.Enabled w ∧ m.Plain ∧ m.Patient w →
        m.Enabled w ∧ m.Plain := fun w m h => ⟨h.1, h.2.1⟩
    refine .append (.append (plain_failedOnce.imp hforget) (.append ?_
      ((plain_handOver _ 50).imp hforget))) ⟨⟨trivial, trivial⟩, trivial⟩
    exact ⟨⟨freshFor_draws (by decide +kernel), trivial⟩, trivial⟩
  · exact absurd (hheeds.1 minute rfl) (by decide)

end Binnacle.Notifications
