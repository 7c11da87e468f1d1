import Binnacle.Notifications.Idempotency

/-!
# How often a delivery is attempted

The number of attempts is a column that `finish` reads and then writes, while other
transactions rewrite the same row. What they do to it is said once (`Carries`); the requests
and failures since a delivery was queued, or retried by hand, are counted beside the service
(`Tally`), and the column follows the count.

- `Change.descends`: a transaction keeps the attempts of a row, queues a new row without any,
  or is a `Retry`;
- `attempts_bounded`: seven requests at most, and where a delivery ends that keeps failing.
-/

namespace Binnacle.Notifications

open Relational Runs Alerts Storage

variable {capacity : Nat} {w : Service capacity} {c : Change} {d x : DeliveryRow}
  {eventType : DeliveryEvent} {db : Database} {id : String}

/-! ## What transactions keep of a row -/

/-- What a transaction other than `Retry` keeps of a row. Only an alert that coalesces with
a waiting row sets a new time for its next attempt. -/
structure Carries (w : Service capacity) (c : Change) (d x : DeliveryRow) : Prop where
  id : x.id = d.id
  event : x.eventType = d.eventType
  incident : x.incidentId = d.incidentId ∨ x.incidentId = none
  attempts : x.attemptCount = d.attemptCount
  status : x.status = d.status ∨ d.status = .pending ∧ x.status = .cancelled
  next : x.status = .cancelled ∨ x.nextAttemptAt = d.nextAttemptAt ∨
    ∃ env eventType incidentID, c.Touches w env eventType incidentID ∧
      coalesces eventType = true ∧ d.incidentId = some incidentID ∧ d.status = .pending ∧
      coalesces d.eventType = true

theorem Carries.refl (w : Service capacity) (c : Change) (d : DeliveryRow) : Carries w c d d :=
  ⟨rfl, rfl, .inl rfl, rfl, .inl rfl, .inr (.inl rfl)⟩

theorem Carries.pending (h : Carries w c d x) (hs : x.status = .pending) : d.status = .pending := by
  rcases h.status with hsame | ⟨hpending, -⟩
  · exact hsame.symm.trans hs
  · exact hpending

theorem Carries.cancel (h : Carries w c d x) (hs : x.status = .pending) (now : Time) :
    Carries w c d (cancelDelivery now x) :=
  ⟨h.id, h.event, h.incident, h.attempts, .inr ⟨h.pending hs, rfl⟩, .inl rfl⟩

theorem Carries.overwrite (h : Carries w c d x) {env : Ambient} {incidentID channelID : String}
    (htouches : c.Touches w env eventType incidentID) (hco : coalesces eventType = true)
    (hw : waiting incidentID channelID x = true) (payload : Payload) (next updated : Int) :
    Carries w c d { x with payload, nextAttemptAt := some next, updatedAt := updated } := by
  obtain ⟨hinc, -, hs, hevent⟩ := waiting_iff.mp hw
  refine ⟨h.id, h.event, h.incident, h.attempts, h.status, .inr (.inr ?_)⟩
  refine ⟨env, eventType, incidentID, htouches, hco, ?_, h.pending hs, h.event ▸ hevent⟩
  rcases h.incident with hsame | hnone
  · exact hsame.symm.trans hinc
  · rw [hnone] at hinc
    cases hinc

structure Newborn (w : Service capacity) (x : DeliveryRow) : Prop where
  absent : w.db.deliveries.has x.id = false
  attempts : x.attemptCount = 0
  status : x.status = .pending ∨ x.status = .cancelled

inductive Descends (w : Service capacity) (c : Change) (x : DeliveryRow) : Prop where
  | carried (d : DeliveryRow) : d ∈ w.db.deliveries.rows → Carries w c d x → Descends w c x
  | queued : Newborn w x → Descends w c x
  | retried (d : DeliveryRow) (now : Time) : d ∈ w.db.deliveries.rows → c = .retry d.id now →
      d.status = .permanentFailure → x = retryDelivery now d → Descends w c x

/-- Rows have their origin; only `Cleanup` loses one. -/
structure Heirs (w : Service capacity) (c : Change) (db : Database) : Prop where
  rows : ∀ x ∈ db.deliveries.rows, Descends w c x
  kept : (∀ now, c ≠ .transact (.cleanupDeliveries now)) → ∀ id,
    db.deliveries.has id = false → w.db.deliveries.has id = false

theorem Heirs.of_eq {a b : Database} (h : Heirs w c a) (heq : b.deliveries = a.deliveries) :
    Heirs w c b := by
  constructor
  · rw [heq]
    exact h.rows
  · rw [heq]
    exact h.kept

theorem Heirs.refl (w : Service capacity) (c : Change) : Heirs w c w.db :=
  ⟨fun x hx => .carried x hx (.refl w c x), fun _ _ h => h⟩

theorem Heirs.update (h : Heirs w c db) {p : DeliveryRow → Bool} {f : DeliveryRow → DeliveryRow}
    (hf : ∀ d, (f d).id = d.id)
    (hstep : ∀ x ∈ db.deliveries.rows, p x = true → Descends w c x → Descends w c (f x)) :
    Heirs w c { db with deliveries := db.deliveries.update p f hf } := by
  constructor
  · intro x hx
    rcases (Table.mem_update hf).mp hx with ⟨hx, -⟩ | ⟨d, hd, hp, rfl⟩
    · exact h.rows x hx
    · exact hstep d hd hp (h.rows d hd)
  · intro hc id hid
    exact h.kept hc id ((Table.has_update db.deliveries p f hf id).symm.trans hid)

theorem Heirs.insert (h : Heirs w c db) {deliveries : Table DeliveryRow.id}
    (hrows : deliveries.rows = db.deliveries.rows ++ [d]) (hnew : Newborn w d) :
    Heirs w c { db with deliveries } := by
  constructor
  · intro x hx
    rcases mem_snoc hrows hx with hx | rfl
    · exact h.rows x hx
    · exact .queued hnew
  · intro hc id hid
    refine h.kept hc id (Table.has_eq_false_iff.mpr fun x hx => ?_)
    refine Table.has_eq_false_iff.mp hid x ?_
    show x ∈ deliveries.rows
    rw [hrows]
    exact List.mem_append_left _ hx

theorem Descends.cancel (h : Descends w c x) (hc : ∀ id now, c ≠ .retry id now)
    (hs : x.status = .pending) (now : Time) : Descends w c (cancelDelivery now x) := by
  cases h with
  | carried d hd hcarries => exact .carried d hd (hcarries.cancel hs now)
  | queued hnew => exact .queued ⟨hnew.absent, hnew.attempts, .inr rfl⟩
  | retried d at_ _ hretry => exact absurd hretry (hc _ _)

theorem Change.Touches.not_retry {env : Ambient} {incidentID : String}
    (h : c.Touches w env eventType incidentID) (id : String) (now : Time) : c ≠ .retry id now := by
  rintro rfl
  exact h

theorem Edit.heirs {env : Ambient} {incidentID channelID : String} {db' : Database}
    (h : Edit env incidentID channelID eventType db db')
    (htouches : c.Touches w env eventType incidentID) (hh : Heirs w c db) : Heirs w c db' := by
  cases h with
  | overwrite d payload next updated hco hd hw _ =>
    refine hh.update _ fun x hx hp hdesc => ?_
    obtain rfl : x = d := Table.eq_of_key_eq hx hd (of_decide_eq_true hp)
    cases hdesc with
    | carried e he hcarries =>
      exact .carried e he (hcarries.overwrite htouches hco hw payload next updated)
    | queued hnew => exact .queued ⟨hnew.absent, hnew.attempts, hnew.status⟩
    | retried e at_ _ hretry => exact absurd hretry (htouches.not_retry _ _)
  | queue d deliveries hnew hfree hrows =>
    refine hh.insert hrows ⟨hh.kept ?_ d.id hfree, hnew.attempts, .inl hnew.pending⟩
    rintro now rfl
    exact htouches
  | cancel now p _ hp =>
    exact hh.update _ fun x _ hpx hdesc =>
      hdesc.cancel htouches.not_retry (waiting_pending (hp x hpx)) now

theorem Change.heirs (hen : c.Enabled w) (hrun : c.run w.db = .ok db) : Heirs w c db := by
  have hsurvives : Survives w c (Heirs w c) := by
    constructor
    case quiet => exact fun db hq => (Heirs.refl w c).of_eq hq.deliveries
    case still => exact fun a b hs ha => ha.of_eq hs.deliveries
    case edit => exact fun _ _ _ htouches _ a b _ hedit ha => hedit.heirs htouches ha
    case expire =>
      intro now hc
      refine ⟨fun x hx => ?_, fun hne => absurd hc (hne now)⟩
      exact .carried x (Table.mem_delete.mp hx).1 (.refl w c x)
    case forget =>
      intro now hc
      have hdetach := (Heirs.refl w c).update
        (p := fun d => d.incidentId.any (forgets w.db now))
        (f := fun d => { d with incidentId := none }) (fun _ => rfl) fun x hx _ _ =>
          .carried x hx ⟨rfl, rfl, .inr rfl, rfl, .inl rfl, .inr (.inl rfl)⟩
      exact hdetach.of_eq rfl
    case cancel =>
      intro id now db hcancels hq
      refine ((Heirs.refl w c).of_eq hq.deliveries).update _ fun x _ hp hdesc => ?_
      simp only [Bool.and_eq_true, decide_eq_true_eq] at hp
      refine hdesc.cancel ?_ hp.2 now
      rintro i n rfl
      cases hcancels
    case test =>
      intro env channelID now deliveries _ _ hrows
      refine (Heirs.refl w c).insert hrows ⟨?_, rfl, .inl rfl⟩
      -- ids are unique in the table with the new row
      have hnodup := deliveries.nodup
      rw [hrows, List.map_append, List.nodup_append] at hnodup
      refine Table.has_eq_false_iff.mpr fun x hx hid => ?_
      exact hnodup.2.2 x.id (List.mem_map_of_mem hx) _ (List.mem_singleton_self _) hid
    case retry =>
      intro id now db' hc h
      rw [retry_ok h]
      refine (Heirs.refl w c).update _ fun x hx hp _ => ?_
      simp only [failedForGood, Bool.and_eq_true, decide_eq_true_eq] at hp
      exact .retried x now hx (hp.1 ▸ hc) hp.2 rfl
  exact hsurvives.keeps hen hrun

/-! ## Counting requests and failures -/

/-- What happened to a delivery since it was queued or retried by hand. -/
structure Tally where
  sends : Nat := 0
  failures : Nat := 0
  /-- One of the failures was not retryable. -/
  hard : Bool := false
  deriving DecidableEq

/-- A request is issued. -/
def Tally.sent (t : Tally) : Tally := { t with sends := t.sends + 1 }

def Tally.ended (t : Tally) (o : Outcome) : Tally :=
  if o.success then t
  else { t with failures := t.failures + 1, hard := t.hard || !o.retryable }

/-- The count after a move. It starts anew for a row that is not there yet and with `Retry`;
with the process it is lost. -/
def tallyStep (id : String) (w : Service capacity) (m : Move) (t : Option Tally) :
    Option Tally :=
  if (w.step m).db.deliveries.has id = false then some {}
  else
    match m with
    | .restart _ _ _ => none
    | .write (.retry i now) =>
      if i = id ∧ (retry w.db i now).isOk = true then some {} else t
    | .send k =>
      match w.workers k with
      | .loaded p => if p.id = id then t.map Tally.sent else t
      | _ => t
    | .finish k _ =>
      match w.workers k with
      | .counted i o _ => if i = id then t.map fun t => t.ended o else t
      | _ => t
    | _ => t

def tallyAfter (id : String) : Service capacity → Option Tally → List Move → Option Tally
  | _, t, [] => t
  | w, t, m :: moves => tallyAfter id (w.step m) (tallyStep id w m t) moves

def Phase.unsent : Phase → Option String
  | .claimed id => some id
  | .loaded p => some p.id
  | _ => none

theorem Phase.held_of_unsent {phase : Phase} (h : phase.unsent = some id) :
    phase.held = some id := by
  cases phase <;> first | exact h | cases h

structure Tallied (id : String) (w : Service capacity) (t : Tally) : Prop where
  absent : w.db.deliveries.has id = false → t = {}
  counts : ∀ d ∈ w.db.deliveries.rows, d.id = id → d.status = .pending ∨ d.status = .inProgress →
    d.attemptCount = t.failures
  waits : ∀ d ∈ w.db.deliveries.rows, d.id = id → d.status = .pending → t.sends ≤ t.failures
  runs : ∀ d ∈ w.db.deliveries.rows, d.id = id → d.status = .inProgress →
    t.sends ≤ t.failures + 1
  spared : ∀ d ∈ w.db.deliveries.rows, d.id = id → d.status ≠ .permanentFailure →
    t.failures ≤ 6 ∧ t.hard = false
  unsent : ∀ k, (w.workers k).unsent = some id → t.sends ≤ t.failures
  counted : ∀ k o attempts, w.workers k = .counted id o attempts → attempts = t.failures + 1
  bound : t.sends ≤ 7

theorem tallied_fresh (hx : Exclusive w) (h : ∀ d ∈ w.db.deliveries.rows, d.id = id →
      d.attemptCount = 0 ∧ (d.status = .pending ∨ d.status = .cancelled)) : Tallied id w {} := by
  have hidle : ∀ k, (w.workers k).held ≠ some id := by
    intro k hk
    obtain ⟨d, hd, hid, hs⟩ := hx.held k id hk
    rcases (h d hd hid).2 with hstatus | hstatus
    · rw [hstatus] at hs
      cases hs
    · rw [hstatus] at hs
      cases hs
  constructor
  case absent => exact fun _ => rfl
  case counts => exact fun d hd hid _ => (h d hd hid).1
  case waits => exact fun _ _ _ _ => Nat.le_refl _
  case runs => exact fun _ _ _ _ => Nat.zero_le _
  case spared => exact fun _ _ _ _ => ⟨Nat.zero_le _, rfl⟩
  case unsent => exact fun _ _ => Nat.le_refl _
  case counted =>
    intro k o attempts hk
    exact absurd (by rw [hk]; rfl) (hidle k)
  case bound => exact Nat.zero_le _

variable {t : Tally}

theorem Tallied.carry {w' : Service capacity} (h : Tallied id w t)
    (hworkers : w'.workers = w.workers)
    (hhas : w'.db.deliveries.has id = false → w.db.deliveries.has id = false)
    (hrows : ∀ x ∈ w'.db.deliveries.rows, x.id = id → ∃ d ∈ w.db.deliveries.rows, d.id = id ∧
      x.attemptCount = d.attemptCount ∧ (x.status = .pending → d.status = .pending) ∧
      (x.status = .inProgress → d.status = .pending ∨ d.status = .inProgress) ∧
      (d.status = .permanentFailure → x.status = .permanentFailure)) : Tallied id w' t := by
  constructor
  case absent => exact fun habsent => h.absent (hhas habsent)
  case counts =>
    intro x hx hid hs
    obtain ⟨d, hd, hdid, hcount, hwaits, hruns, -⟩ := hrows x hx hid
    exact hcount.trans (h.counts d hd hdid (hs.elim (fun hs => .inl (hwaits hs)) hruns))
  case waits =>
    intro x hx hid hs
    obtain ⟨d, hd, hdid, -, hwaits, -⟩ := hrows x hx hid
    exact h.waits d hd hdid (hwaits hs)
  case runs =>
    intro x hx hid hs
    obtain ⟨d, hd, hdid, -, -, hruns, -⟩ := hrows x hx hid
    rcases hruns hs with hs | hs
    · exact Nat.le_succ_of_le (h.waits d hd hdid hs)
    · exact h.runs d hd hdid hs
  case spared =>
    intro x hx hid hs
    obtain ⟨d, hd, hdid, -, -, -, hfailed⟩ := hrows x hx hid
    exact h.spared d hd hdid fun hd => hs (hfailed hd)
  case unsent => exact hworkers ▸ h.unsent
  case counted => exact hworkers ▸ h.counted
  case bound => exact h.bound

theorem Tallied.keep {w' : Service capacity} (h : Tallied id w t)
    (hdeliveries : w'.db.deliveries = w.db.deliveries) (hworkers : w'.workers = w.workers) :
    Tallied id w' t :=
  h.carry hworkers (fun hhas => hdeliveries ▸ hhas) fun x hx hid =>
    ⟨x, hdeliveries ▸ hx, hid, rfl, fun hs => hs, .inr, fun hs => hs⟩

theorem Tallied.enter (h : Tallied id w t) (k : Nat) {phase : Phase}
    (hunsent : phase.unsent = some id → t.sends ≤ t.failures)
    (hcounted : ∀ o attempts, phase = .counted id o attempts → attempts = t.failures + 1) :
    Tallied id (w.enter k phase) t := by
  refine ⟨h.absent, h.counts, h.waits, h.runs, h.spared, fun j hj => ?_,
      fun j o n hj => ?_, h.bound⟩
  · simp only [Service.enter, Function.update_apply] at hj
    split at hj
    · exact hunsent hj
    · exact h.unsent j hj
  · simp only [Service.enter, Function.update_apply] at hj
    split at hj
    · exact hcounted o n hj
    · exact h.counted j o n hj

/-- A transaction other than a `Retry` of the row. -/
theorem Tallied.write (h : Tallied id w t) (hx : Exclusive { w with db }) (hheirs : Heirs w c db)
    (hc : ∀ now, c ≠ .retry id now) (hhas : db.deliveries.has id = true) :
    Tallied id { w with db } t := by
  cases hbefore : w.db.deliveries.has id with
  | false =>
    rw [h.absent hbefore]
    have hnot : ∀ d ∈ w.db.deliveries.rows, d.id ≠ id := Table.has_eq_false_iff.mp hbefore
    refine tallied_fresh hx fun x hxm hid => ?_
    cases hheirs.rows x hxm with
    | carried d hd hcarries => exact absurd (hcarries.id.symm.trans hid) (hnot d hd)
    | queued hnew => exact ⟨hnew.attempts, hnew.status⟩
    | retried d now hd _ _ hrow =>
      subst hrow
      exact absurd hid (hnot d hd)
  | true =>
    refine h.carry rfl (fun habsent => ?_) fun x hxm hid => ?_
    · rw [show db.deliveries.has id = false from habsent] at hhas
      cases hhas
    · cases hheirs.rows x hxm with
      | carried d hd hcarries =>
        refine ⟨d, hd, hcarries.id.symm.trans hid, hcarries.attempts, hcarries.pending, ?_, ?_⟩
        · rcases hcarries.status with hsame | ⟨hpending, -⟩
          · exact fun hs => .inr (hsame.symm.trans hs)
          · exact fun _ => .inl hpending
        · rcases hcarries.status with hsame | ⟨hpending, -⟩
          · exact fun hs => hsame.trans hs
          · exact fun hs => by cases hpending.symm.trans hs
      | queued hnew =>
        rw [← hid, hnew.absent] at hbefore
        cases hbefore
      | retried d now _ hretry _ hrow =>
        subst hrow
        replace hid : d.id = id := hid
        rw [hid] at hretry
        exact absurd hretry (hc now)

/-! ## Attempts -/

theorem retryDelay_eq_some {attempt : Nat} {retryable : Bool} {retryAfter delay : Duration}
    (h : retryDelay attempt retryable retryAfter = some delay) :
    retryable = true ∧ 1 ≤ attempt ∧ attempt ≤ 6 ∧
      ∃ entry, retryDelays[attempt - 1]? = some entry ∧
        delay = if retryAfter > entry then min retryAfter hour else entry := by
  unfold retryDelay at h
  split at h
  · cases h
  · next hguard =>
    simp only [Bool.or_eq_true, Bool.not_eq_true', decide_eq_true_eq, not_or, Bool.not_eq_false,
      Nat.not_lt] at hguard
    obtain ⟨entry, hentry, heq⟩ := Option.map_eq_some_iff.mp h
    exact ⟨hguard.1.1, hguard.1.2, hguard.2, entry, hentry, heq.symm⟩

theorem retryDelay_eq_none {attempt : Nat} {retryAfter : Duration} (hpos : 1 ≤ attempt)
    (h : retryDelay attempt true retryAfter = none) : 6 < attempt := by
  unfold retryDelay at h
  split at h
  · next hguard =>
    simp only [Bool.not_true, Bool.false_or, Bool.or_eq_true, decide_eq_true_eq] at hguard
    have hlength : retryDelays.length = 6 := rfl
    omega
  · next hguard =>
    rw [Option.map_eq_none_iff, List.getElem?_eq_none_iff] at h
    have hlength : retryDelays.length = 6 := rfl
    omega

theorem finishDelivery_cases (attempts : Nat) (o : Outcome) (now : Time) (d : DeliveryRow) :
    (o.success = true ∧ (finishDelivery attempts o now d).status = .succeeded) ∨
    (o.success = false ∧ ∃ delay, retryDelay attempts o.retryable o.retryAfter = some delay ∧
      (finishDelivery attempts o now d).status = .pending ∧
      (finishDelivery attempts o now d).attemptCount = attempts ∧
      (finishDelivery attempts o now d).nextAttemptAt = some (unix (now + delay))) ∨
    (o.success = false ∧ retryDelay attempts o.retryable o.retryAfter = none ∧
      (finishDelivery attempts o now d).status = .permanentFailure) := by
  unfold finishDelivery
  cases hok : o.success with
  | true => exact .inl ⟨rfl, rfl⟩
  | false =>
    cases hdelay : retryDelay attempts o.retryable o.retryAfter with
    | some delay => exact .inr (.inl ⟨rfl, delay, rfl, rfl, rfl, rfl⟩)
    | none => exact .inr (.inr ⟨rfl, rfl, rfl⟩)

theorem Tallied.claim (h : Tallied id w t) (k : Nat) {now : Time} (hd : d ∈ w.db.deliveries.rows)
    (hclaim : claimable w.db now d.id d = true) :
    Tallied id ({ w with db := claimDelivery w.db d.id now }.enter k (.claimed d.id)) t := by
  obtain ⟨-, hdue, -⟩ := claimable_iff.mp hclaim
  have hs := dueAt_pending hdue
  have hrows := @claimDelivery_rows d w.db now d.id hd hclaim
  have hclaimed : Tallied id { w with db := claimDelivery w.db d.id now } t := by
    refine h.carry rfl (fun habsent => ?_) fun x hx hxid => ?_
    · have hsame := Table.has_update w.db.deliveries (claimable w.db now d.id) (startDelivery now)
        (fun _ => rfl) id
      exact hsame.symm.trans habsent
    · rcases hrows.mp hx with ⟨hx, -⟩ | rfl
      · exact ⟨x, hx, hxid, rfl, fun hs => hs, .inr, fun hs => hs⟩
      · exact ⟨d, hd, hxid, rfl, nofun, fun _ => .inl hs, fun hd => by cases hs.symm.trans hd⟩
  exact hclaimed.enter k (fun hu => h.waits d hd (Option.some.inj hu) hs) nofun

theorem Tallied.send (h : Tallied id w t) (hx : Exclusive w) {k : Nat} {p : Parcel}
    (hk : w.workers k = .loaded p) : Tallied id
      ({ w with sent := w.sent ++ [p] }.enter k (.sending p))
        (if p.id = id then t.sent else t) := by
  have hmoved : Tallied id ({ w with sent := w.sent ++ [p] }.enter k (.sending p)) t := by
    have hkept : Tallied id { w with sent := w.sent ++ [p] } t :=
      h.keep rfl rfl
    exact hkept.enter k (fun hu => by cases hu) fun o attempts ho => by cases ho
  split
  · next hid =>
    have hu : (w.workers k).unsent = some id := by
      rw [hk, ← hid]
      rfl
    have hheld := Phase.held_of_unsent hu
    obtain ⟨d, hd, hdid, hs⟩ := hx.held k id hheld
    have hle : t.sends ≤ t.failures := h.unsent k hu
    obtain ⟨hsix, -⟩ := h.spared d hd hdid (by rw [hs]; decide)
    -- the row is in progress, and no other worker has it
    have hrunning : ∀ x ∈ w.db.deliveries.rows, x.id = id → x.status = .inProgress := by
      intro x hxm hxid
      rw [Table.eq_of_key_eq hxm hd (hxid.trans hdid.symm)]
      exact hs
    constructor
    case absent => exact fun habsent => absurd hdid (Table.has_eq_false_iff.mp habsent d hd)
    case counts => exact hmoved.counts
    case waits =>
      intro x hxm hxid hxs
      rw [hrunning x hxm hxid] at hxs
      cases hxs
    case runs => exact fun _ _ _ _ => Nat.succ_le_succ hle
    case spared => exact hmoved.spared
    case unsent =>
      intro j hj
      simp only [Service.enter, Function.update_apply] at hj
      split at hj
      · cases hj
      · next hjk => exact absurd (hx.alone j k id (Phase.held_of_unsent hj) hheld) hjk
    case counted => exact hmoved.counted
    case bound =>
      show t.sends + 1 ≤ 7
      omega
  · exact hmoved

theorem tallied_row (hidle : ∀ k, (w.workers k).held ≠ some id)
    (hrow : ∀ x ∈ w.db.deliveries.rows, x.id = id → x = d) (hd : d ∈ w.db.deliveries.rows)
    (hid : d.id = id) (hstatus : d.status ≠ .inProgress)
    (hwaits : d.status = .pending → d.attemptCount = t.failures ∧ t.sends ≤ t.failures)
    (hspared : d.status ≠ .permanentFailure → t.failures ≤ 6 ∧ t.hard = false)
    (hbound : t.sends ≤ 7) : Tallied id w t := by
  constructor
  case absent => exact fun habsent => absurd hid (Table.has_eq_false_iff.mp habsent d hd)
  case counts =>
    intro x hx hxid hs
    rw [hrow x hx hxid] at hs ⊢
    exact (hwaits (hs.resolve_right hstatus)).1
  case waits => exact fun x hx hxid hs => (hwaits (hrow x hx hxid ▸ hs)).2
  case runs => exact fun x hx hxid hs => absurd (hrow x hx hxid ▸ hs) hstatus
  case spared => exact fun x hx hxid hs => hspared (hrow x hx hxid ▸ hs)
  case unsent => exact fun k hk => absurd (Phase.held_of_unsent hk) (hidle k)
  case counted => exact fun k o n hk => absurd (by rw [hk]; rfl) (hidle k)
  case bound => exact hbound

theorem Tallied.finish (h : Tallied id w t) (hx : Exclusive w) {k : Nat} (now : Time) {i : String}
    {o : Outcome} {attempts : Nat} (hk : w.workers k = .counted i o attempts) :
    Tallied id ({ w with db := writeOutcome w.db i attempts o now }.enter k (.delivered i))
      (if i = id then t.ended o else t) := by
  have hheld : (w.workers k).held = some i := by rw [hk]; rfl
  split
  · next hid =>
    subst hid
    obtain ⟨d, hd, hdid, hs⟩ := hx.held k i hheld
    have hcount : attempts = t.failures + 1 := h.counted k o attempts hk
    have hsends := h.runs d hd hdid hs
    obtain ⟨hsix, hsoft⟩ := h.spared d hd hdid (by rw [hs]; decide)
    have hnobody : ∀ j, (Function.update w.workers k (.delivered i) j).held ≠ some i := by
      intro j hj
      rw [Function.update_apply] at hj
      split at hj
      · cases hj
      · next hjk => exact hjk (hx.alone j k i hj hheld)
    have hrow : ∀ x ∈ (writeOutcome w.db i attempts o now).deliveries.rows, x.id = i →
        x = finishDelivery attempts o now d := by
      intro x hxm hxid
      rcases mem_writeOutcome.mp hxm with ⟨-, hne⟩ | ⟨e, he, heid, rfl⟩
      · exact absurd hxid hne
      · rw [Table.eq_of_key_eq he hd (heid.trans hdid.symm)]
    have hmem : finishDelivery attempts o now d ∈
        (writeOutcome w.db i attempts o now).deliveries.rows :=
      mem_writeOutcome.mpr (.inr ⟨d, hd, hdid, rfl⟩)
    have hsettle := fun t => @tallied_row _
        ({ w with db := writeOutcome w.db i attempts o now }.enter
      k (.delivered i)) _ i t hnobody hrow hmem ((finishDelivery_id attempts o now d).trans hdid)
      (finishDelivery_status attempts o now d)
    have hended : o.success = false → t.ended o =
        ⟨t.sends, t.failures + 1, t.hard || !o.retryable⟩ := fun hfail => if_neg (by simp [hfail])
    rcases finishDelivery_cases attempts o now d with
      ⟨hok, hstatus⟩ | ⟨hfail, delay, hdelay, hstatus, hattempts, -⟩ | ⟨hfail, -, hstatus⟩
    · rw [show t.ended o = t from if_pos hok]
      refine hsettle t (fun hp => ?_) (fun _ => ⟨hsix, hsoft⟩) h.bound
      rw [hstatus] at hp
      cases hp
    · obtain ⟨hretryable, -, hle, -⟩ := retryDelay_eq_some hdelay
      rw [hended hfail, hsoft, hretryable]
      exact hsettle _ (fun _ => ⟨hattempts.trans hcount, hsends⟩) (fun _ => ⟨hcount ▸ hle, rfl⟩)
        h.bound
    · rw [hended hfail]
      refine hsettle _ (fun hp => ?_) (fun hne => absurd hstatus hne) h.bound
      rw [hstatus] at hp
      cases hp
  · next hne =>
    have hwritten : Tallied id { w with db := writeOutcome w.db i attempts o now } t := by
      refine h.carry rfl (fun habsent => ?_) fun x hxm hxid => ?_
      · have hsame := Table.has_update w.db.deliveries (fun d => d.id = i)
          (finishDelivery attempts o now) (finishDelivery_id attempts o now) id
        exact hsame.symm.trans habsent
      · rcases mem_writeOutcome.mp hxm with ⟨hxm, -⟩ | ⟨e, he, heid, rfl⟩
        · exact ⟨x, hxm, hxid, rfl, fun hs => hs, .inr, fun hs => hs⟩
        · exact absurd (heid.symm.trans ((finishDelivery_id attempts o now e).symm.trans hxid)) hne
    exact hwritten.enter k nofun nofun

def Move.calm : Move → Bool
  | .write _ | .restart _ _ _ | .send _ | .finish _ _ => false
  | _ => true

theorem Tallied.calm {m : Move} (h : Tallied id w t) (hx : Exclusive w) (hm : m.calm = true) :
    Tallied id (w.step m) t := by
  cases w.steps m with
  | quiet hworkers _ hdb => exact h.keep (by rw [hdb]) hworkers
  | turn k a b hk hturn hdb _ hworkers =>
    refine (h.enter k (fun hu => h.unsent k ?_) fun o n ho => ?_).keep (by rw [hdb]; rfl) hworkers
    · rw [hk]
      cases hturn with
      | load k d hd => exact hu
      | _ => cases hu
    · cases hturn with
      | count k o d hd =>
        obtain ⟨rfl, -, rfl⟩ := Phase.counted.inj ho
        obtain ⟨e, he, heid, hs⟩ := hx.held k d.id (by rw [hk]; rfl)
        obtain rfl : d = e := Table.eq_of_key_eq hd he heid.symm
        rw [h.counts d hd rfl (.inr hs)]
      | _ => cases ho
  | claim k now d _ hd hclaim heq =>
    rw [heq]
    exact h.claim k hd hclaim
  | write c db heq _ _ | restart r env now heq _ | send k p heq _ _
  | finish k now i o attempts heq _ _ =>
    subst heq
    cases hm

theorem tallied_retry {now : Time} (hx : Exclusive { w with db }) (h : retry w.db id now = .ok db) :
    Tallied id { w with db } {} := by
  refine tallied_fresh hx fun x hxm hid => ?_
  have hok : w.db.deliveries.rows.any (failedForGood id) = true := by
    unfold retry at h
    split_ifs at h with hany
    exact hany
  obtain ⟨d, hd, hfailed⟩ := List.any_eq_true.mp hok
  replace hxm : x ∈ db.deliveries.rows := hxm
  rw [retry_ok h] at hxm
  rcases (Table.mem_update (by intro i; rfl)).mp hxm with ⟨hxm, hnot⟩ | ⟨e, -, -, rfl⟩
  · -- the row of this id had failed for good
    simp only [failedForGood, Bool.and_eq_true, decide_eq_true_eq] at hfailed
    rw [Table.eq_of_key_eq hxm hd (hid.trans hfailed.1.symm)] at hnot
    simp [failedForGood, hfailed] at hnot
  · exact ⟨rfl, .inl rfl⟩

theorem tally_eq {p : Prop} [Decidable p] {t : Option Tally} {f : Tally → Tally} {t' : Tally}
    (h : (if p then t.map f else t) = some t') : ∃ s, t = some s ∧ t' = if p then f s else s := by
  cases t with
  | none => split at h <;> cases h
  | some s =>
    refine ⟨s, rfl, ?_⟩
    split at h
    · next hp => rw [if_pos hp, Option.some.inj h]
    · next hp => rw [if_neg hp, Option.some.inj h]

theorem Tallied.step {t : Option Tally} {t' : Tally} {m : Move} (hx : Exclusive w)
    (hen : m.Enabled w) (h : ∀ s, t = some s → Tallied id w s)
    (heq : tallyStep id w m t = some t') : Tallied id (w.step m) t' := by
  have hx' : Exclusive (w.step m) := hx.step hen
  unfold tallyStep at heq
  cases hhas : (w.step m).db.deliveries.has id with
  | false =>
    rw [if_pos hhas] at heq
    cases heq
    exact tallied_fresh hx' fun d hd hid => absurd hid (Table.has_eq_false_iff.mp hhas d hd)
  | true =>
    rw [if_neg (by rw [hhas]; decide)] at heq
    cases m with
    | write c =>
      cases hrun : c.run w.db with
      | error e =>
        have hstep : w.step (.write c) = w := by
          show w.attempt (c.run w.db) = w
          rw [hrun]
          rfl
        rw [hstep]
        refine h t' ?_
        cases c with
        | retry i now =>
          replace hrun : retry w.db i now = .error e := hrun
          simpa only [hrun, Except.isOk, Except.toBool, and_false, if_false,
            Bool.false_eq_true] using heq
        | _ => exact heq
      | ok db =>
        have hstep : w.step (.write c) = { w with db } := by
          show w.attempt (c.run w.db) = _
          rw [hrun]
          rfl
        rw [hstep] at hx' hhas ⊢
        by_cases hretry : ∃ now, c = .retry id now
        · obtain ⟨now, rfl⟩ := hretry
          replace hrun : retry w.db id now = .ok db := hrun
          replace heq : (if id = id ∧ (retry w.db id now).isOk = true then some {} else t) =
            some t' := heq
          rw [if_pos ⟨rfl, by rw [hrun]; rfl⟩] at heq
          cases heq
          exact tallied_retry hx' hrun
        · rw [not_exists] at hretry
          refine (h t' ?_).write hx' (Change.heirs hen hrun) hretry hhas
          cases c with
          | retry i now =>
            have hne : i ≠ id := fun hi => hretry now (by rw [hi])
            simpa only [hne, false_and, if_false] using heq
          | _ => exact heq
    | restart r env now => cases heq
    | send k =>
      show Tallied id (w.send k) t'
      unfold Service.send
      cases hk : w.workers k with
      | loaded p =>
        simp only [hk] at heq
        obtain ⟨s, rfl, rfl⟩ := tally_eq heq
        exact (h s rfl).send hx hk
      | _ =>
        simp only [hk] at heq
        exact h t' heq
    | finish k now =>
      show Tallied id (w.finish k now) t'
      unfold Service.finish
      cases hk : w.workers k with
      | counted i o attempts =>
        simp only [hk] at heq
        obtain ⟨s, rfl, rfl⟩ := tally_eq heq
        exact (h s rfl).finish hx now hk
      | _ =>
        simp only [hk] at heq
        exact h t' heq
    | _ => exact (h t' heq).calm hx rfl

theorem tallied_after {moves : List Move} {t : Option Tally} {t' : Tally} (hx : Exclusive w)
    (h : ∀ s, t = some s → Tallied id w s) (hen : Along Service.step Move.Enabled w moves)
    (heq : tallyAfter id w t moves = some t') : Tallied id (moves.foldl Service.step w) t' := by
  induction moves generalizing w t with
  | nil => exact h t' heq
  | cons m moves ih =>
    exact ih (hx.step hen.1) (fun s hs => Tallied.step hx hen.1 h hs) hen.2 heq

/-- Since a delivery was queued or last retried by hand, and while the process runs, at most
seven requests are issued for it; after the seventh failure, or one that is not retryable, it
has failed for good. -/
theorem attempts_bounded (id : String) {moves : List Move}
    (hen : Along Service.step Move.Enabled (Service.start Database.empty : Service capacity) moves)
    {t : Tally}
    (ht : tallyAfter id (Service.start Database.empty : Service capacity) (some {}) moves
      = some t) :
    t.sends ≤ 7 ∧ ∀ d ∈ (moves.foldl Service.step
      (Service.start Database.empty : Service capacity)).db.deliveries.rows, d.id = id →
      7 ≤ t.failures ∨ t.hard = true → d.status = .permanentFailure := by
  have hx : Exclusive (Service.start Database.empty : Service capacity) :=
    exclusive_start _ fun d hd => absurd hd List.not_mem_nil
  have hstart : ∀ s, some ({} : Tally) = some s →
      Tallied id (Service.start Database.empty : Service capacity) s := by
    intro s hs
    cases hs
    exact tallied_fresh hx fun d hd => absurd hd List.not_mem_nil
  have hend := tallied_after hx hstart hen ht
  refine ⟨hend.bound, fun d hd hid hover => ?_⟩
  by_contra hstatus
  obtain ⟨hsix, hsoft⟩ := hend.spared d hd hid hstatus
  rcases hover with hseven | hhard
  · omega
  · rw [hsoft] at hhard
    cases hhard

def failing (times : List Int) : List Move :=
  times.flatMap fun at_ => attemptAt at_ ++ failAt at_

theorem along_failing (times : List Int) (w : Service 8) :
    Along Service.step Move.Enabled w (failing times) := by
  induction times generalizing w with
  | nil => trivial
  | cons at_ times ih =>
    exact .append (.append (along_attemptAt w at_) (along_failAt _ at_)) (ih _)

def exhausted : List Move := announce ++ failing [20, 100, 500, 2000, 6000, 21000, 65000]

theorem along_exhausted : Along Service.step Move.Enabled (after []) exhausted :=
  along_announce.append (along_failing _ _)

/-- The seventh failure ends the delivery. -/
theorem attempts_bounded_exhausted :
    tallyAfter "del_xff" (after []) (some {}) exhausted = some ⟨7, 7, false⟩ ∧
    ((after exhausted).db.deliveries.rows.map DeliveryRow.id) = ["del_xff"] ∧
    ∀ d ∈ (after exhausted).db.deliveries.rows, d.id = "del_xff" →
      d.status = .permanentFailure := by
  have htally : tallyAfter "del_xff" (after []) (some {}) exhausted = some ⟨7, 7, false⟩ := by
    decide +kernel
  refine ⟨htally, by decide +kernel, fun d hd hid => ?_⟩
  rw [after] at hd
  exact (attempts_bounded "del_xff" along_exhausted htally).2 d hd hid (.inl (Nat.le_refl 7))

end Binnacle.Notifications
