import Binnacle.Notifications.Deliveries

/-!
# Deliveries are serialized

The dispatcher's check is stale by the time a worker claims, so exclusion rests
on the claim statement alone: it touches a pending row only while no other
delivery of the same incident and channel is in progress. Rows leave
`in_progress` only through the worker that claimed them, or with the process.

- `deliveries_serialized`: the claim takes one row, pairs are exclusive, and no
  row is sent by two workers;
- `held_row_untouched`: until its worker goes on, nobody changes the row.
-/

namespace Binnacle.Notifications

open Relational Runs Alerts Storage

variable {capacity : Nat} {d d' : DeliveryRow} {db db' : Database} {now : Time}
  {w : Service capacity} {p : DeliveryRow → Bool}

/-! ## Rows in progress -/

def Untouched (d d' : DeliveryRow) : Prop := d' = d ∨ d' = { d with incidentId := none }

theorem Untouched.refl (d : DeliveryRow) : Untouched d d := .inl rfl

theorem Untouched.trans {a b c : DeliveryRow} (hab : Untouched a b) (hbc : Untouched b c) :
    Untouched a c := by
  rcases hab with rfl | rfl <;> rcases hbc with rfl | rfl
  · exact .inl rfl
  · exact .inr rfl
  · exact .inr rfl
  · exact .inr rfl

theorem Untouched.parcelOf (h : Untouched d d') : parcelOf d' = parcelOf d := by
  rcases h with rfl | rfl <;> rfl

theorem Untouched.status (h : Untouched d d') : d'.status = d.status := by
  rcases h with rfl | rfl <;> rfl

theorem Untouched.id (h : Untouched d d') : d'.id = d.id :=
  congrArg Parcel.id h.parcelOf

structure Undisturbed (db db' : Database) : Prop where
  keeps : ∀ d ∈ db.deliveries.rows, d.status = .inProgress →
    ∃ d' ∈ db'.deliveries.rows, Untouched d d'
  adds : ∀ d' ∈ db'.deliveries.rows, d'.status = .inProgress →
    ∃ d ∈ db.deliveries.rows, Untouched d d'

theorem Undisturbed.of_eq (h : db'.deliveries = db.deliveries) :
    Undisturbed db db' where
  keeps d hd _ := ⟨d, h ▸ hd, .refl d⟩
  adds d hd _ := ⟨d, h ▸ hd, .refl d⟩

theorem Undisturbed.refl (db : Database) : Undisturbed db db := .of_eq rfl

theorem Undisturbed.trans {a b c : Database} (hab : Undisturbed a b) (hbc : Undisturbed b c) :
    Undisturbed a c := by
  constructor
  · intro d hd hs
    obtain ⟨d₁, hd₁, hu₁⟩ := hab.keeps d hd hs
    obtain ⟨d₂, hd₂, hu₂⟩ := hbc.keeps d₁ hd₁ (hu₁.status.trans hs)
    exact ⟨d₂, hd₂, hu₁.trans hu₂⟩
  · intro d₂ hd₂ hs
    obtain ⟨d₁, hd₁, hu₂⟩ := hbc.adds d₂ hd₂ hs
    obtain ⟨d, hd, hu₁⟩ := hab.adds d₁ hd₁ (hu₂.status.symm.trans hs)
    exact ⟨d, hd, hu₁.trans hu₂⟩

/-- An `UPDATE` that neither finds nor leaves a row in progress. -/
theorem undisturbed_update {f : DeliveryRow → DeliveryRow}
    (hf : ∀ d, (f d).id = d.id) (h : ∀ d ∈ db.deliveries.rows, p d = true →
      d.status ≠ .inProgress ∧ (f d).status ≠ .inProgress) :
    Undisturbed db { db with deliveries := db.deliveries.update p f hf } := by
  constructor
  · intro d hd hs
    refine ⟨d, List.mem_map.mpr ⟨d, hd, if_neg fun hp => (h d hd hp).1 hs⟩, .refl d⟩
  · intro d' hd' hs
    obtain ⟨d, hd, rfl⟩ := List.mem_map.mp hd'
    refine ⟨d, hd, ?_⟩
    split at hs
    · next hp => exact absurd hs (h d hd hp).2
    · next hp =>
      rw [if_neg hp]
      exact .refl d

theorem undisturbed_insert {deliveries : Table DeliveryRow.id}
    (hrows : deliveries.rows = db.deliveries.rows ++ [d]) (hd : d.status = .pending) :
    Undisturbed db { db with deliveries } := by
  constructor
  · intro x hx _
    refine ⟨x, ?_, .refl x⟩
    show x ∈ deliveries.rows
    rw [hrows]
    exact List.mem_append_left _ hx
  · intro x hx hs
    rcases mem_snoc hrows hx with hx | rfl
    · exact ⟨x, hx, .refl x⟩
    · rw [hd] at hs
      cases hs

theorem undisturbed_cancel (h : ∀ d, p d = true → d.status = .pending) :
    Undisturbed db (cancelDeliveries db now p) := by
  refine undisturbed_update _ fun d _ hp => ⟨?_, ?_⟩
  · rw [h d hp]
    decide
  · show DeliveryStatus.cancelled ≠ .inProgress
    decide

theorem Edit.undisturbed {env : Ambient} {incidentID channelID : String} {eventType : DeliveryEvent}
    (h : Edit env incidentID channelID eventType db db') : Undisturbed db db' := by
  cases h with
  | overwrite d payload next updated _ hd hw _ =>
    refine undisturbed_update _ fun x hx hid => ?_
    -- the row that is rewritten is the waiting one
    have hxd : x = d := Table.eq_of_key_eq hx hd (of_decide_eq_true hid)
    subst hxd
    have hne : x.status ≠ .inProgress := by rw [waiting_pending hw]; decide
    exact ⟨hne, hne⟩
  | queue d deliveries hnew _ hrows => exact undisturbed_insert hrows hnew.pending
  | cancel now p _ hp => exact undisturbed_cancel fun d hd => waiting_pending (hp d hd)

theorem undisturbed_cleanupDeliveries (db : Database) (now : Time) :
    Undisturbed db (cleanupDeliveries db now) := by
  constructor
  · intro d hd hs
    exact ⟨d, Table.mem_delete.mpr ⟨hd, by simp [expired, hs, DeliveryStatus.finished]⟩, .refl d⟩
  · exact fun d hd _ => ⟨d, (Table.mem_delete.mp hd).1, .refl d⟩

theorem undisturbed_cleanupIncidents (db : Database) (now : Time) :
    Undisturbed db (cleanupIncidents db now) := by
  constructor
  · intro d hd _
    refine ⟨_, List.mem_map_of_mem hd, ?_⟩
    split
    · exact .inr rfl
    · exact .inl rfl
  · intro d' hd' _
    obtain ⟨d, hd, rfl⟩ := List.mem_map.mp hd'
    refine ⟨d, hd, ?_⟩
    split
    · exact .inr rfl
    · exact .inl rfl

theorem undisturbed_cancelPending (db : Database) (channelID : String) (now : Time) :
    Undisturbed db (cancelPending db channelID now) :=
  undisturbed_cancel fun d hd => by
    simp only [Bool.and_eq_true, decide_eq_true_eq] at hd
    exact hd.2

variable {id : String} {k : Nat} {m : Move}

theorem undisturbed_retry (h : retry db id now = .ok db') :
    Undisturbed db db' := by
  rw [retry_ok h]
  refine undisturbed_update _ fun d _ hp => ?_
  simp only [failedForGood, Bool.and_eq_true, decide_eq_true_eq] at hp
  refine ⟨?_, ?_⟩
  · rw [hp.2]
    decide
  · show DeliveryStatus.pending ≠ .inProgress
    decide

theorem Change.undisturbed (c : Change) (hen : c.Enabled w)
    (hrun : c.run w.db = .ok db') : Undisturbed w.db db' := by
  have hsurvives : Survives w c (Undisturbed w.db) := by
    constructor
    case quiet => exact fun db hq => .of_eq hq.deliveries
    case still => exact fun a b hs hu => hu.trans (.of_eq hs.deliveries)
    case edit => exact fun _ _ _ _ _ a b _ hedit hu => hu.trans hedit.undisturbed
    case expire => exact fun now _ => undisturbed_cleanupDeliveries w.db now
    case forget => exact fun now _ => undisturbed_cleanupIncidents w.db now
    case cancel =>
      intro id now db _ hq
      exact Undisturbed.trans (.of_eq hq.deliveries) (undisturbed_cancelPending db id now)
    case test => exact fun _ _ _ _ _ _ hrows => undisturbed_insert hrows rfl
    case retry => exact fun _ _ _ _ h => undisturbed_retry h
  exact hsurvives.keeps hen hrun

/-! ## What a move does -/

theorem claimable_iff :
    claimable db now id d = true ↔ d.id = id ∧ dueAt now d = true ∧ occupied db d = false := by
  simp [claimable, and_assoc]

theorem claim_cases (now : Time) (hk : w.workers k = .taken id) :
    (∃ d ∈ w.db.deliveries.rows, claimable w.db now id d = true ∧
      w.claim k now = { w with db := claimDelivery w.db id now }.enter k (.claimed id)) ∨
    w.claim k now = w.enter k (.delivered id) := by
  unfold Service.claim
  rw [hk]
  cases hany : w.db.deliveries.rows.any (claimable w.db now id) with
  | true =>
    obtain ⟨d, hd, hc⟩ := List.any_eq_true.mp hany
    exact .inl ⟨d, hd, hc, by simp [hany]⟩
  | false => exact .inr (by simp [hany])

theorem loadDelivery_eq_some {p : Parcel} (h : loadDelivery db id = some p) :
    ∃ d ∈ db.deliveries.rows, d.id = id ∧ parcelOf d = p := by
  obtain ⟨d, hd, hif⟩ := Option.bind_eq_some_iff.mp h
  obtain ⟨hmem, hid⟩ := Table.find?_eq_some_iff.mp hd
  refine ⟨d, hmem, hid, ?_⟩
  split_ifs at hif
  exact Option.some.inj hif

theorem offerNext_frame (w : Service capacity) (now : Time) :
    (w.offerNext now).workers = w.workers ∧ (w.offerNext now).sent = w.sent ∧
      (w.offerNext now).db = { w.db with events := (w.offerNext now).db.events } := by
  unfold Service.offerNext
  split
  · exact ⟨rfl, rfl, rfl⟩
  · split
    · exact ⟨rfl, rfl, rfl⟩
    · split
      · exact ⟨rfl, rfl, rfl⟩
      · exact ⟨rfl, rfl, rfl⟩

inductive Goes (db : Database) : Move → Nat → Phase → Phase → Prop where
  | take (k : Nat) (id : String) : Goes db (.take k) k .idle (.taken id)
  | miss (k : Nat) (now : Time) (id : String) :
      Goes db (.claim k now) k (.taken id) (.delivered id)
  | load (k : Nat) (d : DeliveryRow) : d ∈ db.deliveries.rows →
      Goes db (.load k) k (.claimed d.id) (.loaded (parcelOf d))
  | unavailable (k : Nat) (id : String) :
      Goes db (.load k) k (.claimed id) (.finishing id ⟨false, "channel_unavailable", 0⟩)
  | refuse (k : Nat) (code : String) (p : Parcel) :
      Goes db (.refuse k code) k (.loaded p) (.finishing p.id ⟨false, code, 0⟩)
  | respond (k : Nat) (o : Outcome) (p : Parcel) :
      Goes db (.respond k o) k (.sending p) (.finishing p.id o)
  | count (k : Nat) (o : Outcome) (d : DeliveryRow) : d ∈ db.deliveries.rows →
      Goes db (.count k) k (.finishing d.id o) (.counted d.id o (d.attemptCount + 1))
  | lost (k : Nat) (o : Outcome) (id : String) :
      Goes db (.count k) k (.finishing id o) (.delivered id)
  | release (k : Nat) (id : String) : Goes db (.release k) k (.delivered id) .idle

inductive Steps (w : Service capacity) (m : Move) (w' : Service capacity) : Prop where
  | quiet : w'.workers = w.workers → w'.sent = w.sent →
      w'.db = { w.db with events := w'.db.events } → Steps w m w'
  | write (c : Change) (db : Database) : m = .write c → c.run w.db = .ok db →
      w' = { w with db } → Steps w m w'
  | restart (r : Repository) (env : Ambient) (now : Time) : m = .restart r env now →
      w' = w.restart r env now → Steps w m w'
  | turn (k : Nat) (a b : Phase) : w.workers k = a → Goes w.db m k a b → w'.db = w.db →
      w'.sent = w.sent → w'.workers = (w.enter k b).workers → Steps w m w'
  | claim (k : Nat) (now : Time) (d : DeliveryRow) : m = .claim k now →
      d ∈ w.db.deliveries.rows → claimable w.db now d.id d = true →
      w' = { w with db := claimDelivery w.db d.id now }.enter k (.claimed d.id) → Steps w m w'
  | send (k : Nat) (p : Parcel) : m = .send k → w.workers k = .loaded p →
      w' = { w with sent := w.sent ++ [p] }.enter k (.sending p) → Steps w m w'
  | finish (k : Nat) (now : Time) (id : String) (o : Outcome) (attempts : Nat) :
      m = .finish k now → w.workers k = .counted id o attempts →
      w' = { w with db := writeOutcome w.db id attempts o now }.enter k (.delivered id) →
      Steps w m w'

theorem Service.steps (w : Service capacity) (m : Move) : Steps w m (w.step m) := by
  have hquiet : Steps w m w := .quiet rfl rfl rfl
  cases m with
  | write c =>
    show Steps w _ (w.attempt (c.run w.db))
    unfold Service.attempt
    split
    · next db hrun => exact .write c db rfl hrun rfl
    · exact hquiet
  | restart r env now => exact .restart r env now rfl rfl
  | query order now =>
    simp only [Service.step]
    split
    · exact .quiet rfl rfl rfl
    · exact hquiet
  | offer now =>
    obtain ⟨hworkers, hsent, hdb⟩ := offerNext_frame w now
    exact .quiet hworkers hsent hdb
  | take k =>
    show Steps w _ (w.take k)
    unfold Service.take
    split
    · next id queue hk _ => exact .turn k _ _ hk (.take k id) rfl rfl rfl
    · exact hquiet
  | claim k now =>
    show Steps w _ (w.claim k now)
    cases hk : w.workers k with
    | taken id =>
      rcases claim_cases now hk with ⟨d, hd, hclaim, heq⟩ | heq
      · obtain ⟨rfl, -⟩ := claimable_iff.mp hclaim
        exact .claim k now d rfl hd hclaim heq
      · rw [heq]
        exact .turn k _ _ hk (.miss k now id) rfl rfl rfl
    | _ =>
      unfold Service.claim
      rw [hk]
      exact hquiet
  | load k =>
    show Steps w _ (w.load k)
    unfold Service.load
    split
    · next id hk =>
      split
      · next p hp =>
        obtain ⟨d, hd, rfl, rfl⟩ := loadDelivery_eq_some hp
        exact .turn k _ _ hk (.load k d hd) rfl rfl rfl
      · exact .turn k _ _ hk (.unavailable k id) rfl rfl rfl
    · exact hquiet
  | refuse k code =>
    show Steps w _ (w.refuse k code)
    unfold Service.refuse
    split
    · next p hk => exact .turn k _ _ hk (.refuse k code p) rfl rfl rfl
    · exact hquiet
  | send k =>
    show Steps w _ (w.send k)
    unfold Service.send
    split
    · next p hk => exact .send k p rfl hk rfl
    · exact hquiet
  | respond k o =>
    show Steps w _ (w.respond k o)
    unfold Service.respond
    split
    · next p hk => exact .turn k _ _ hk (.respond k o p) rfl rfl rfl
    · exact hquiet
  | count k =>
    show Steps w _ (w.count k)
    unfold Service.count
    split
    · next id o hk =>
      split
      · next d hfind =>
        obtain ⟨hd, rfl⟩ := Table.find?_eq_some_iff.mp hfind
        exact .turn k _ _ hk (.count k o d hd) rfl rfl rfl
      · exact .turn k _ _ hk (.lost k o id) rfl rfl rfl
    · exact hquiet
  | finish k now =>
    show Steps w _ (w.finish k now)
    unfold Service.finish
    split
    · next id o attempts hk => exact .finish k now id o attempts rfl hk rfl
    · exact hquiet
  | release k =>
    show Steps w _ (w.release k)
    unfold Service.release
    split
    · next id hk => exact .turn k _ _ hk (.release k id) rfl rfl rfl
    · exact hquiet

/-! ## Who holds which row -/

def Phase.held : Phase → Option String
  | .claimed id | .finishing id _ | .counted id _ _ => some id
  | .loaded p | .sending p => some p.id
  | .idle | .taken _ | .delivered _ => none

def Phase.parcel : Phase → Option Parcel
  | .loaded p | .sending p => some p
  | _ => none

/-- A held row is in progress, as its worker read it, and nobody else's; and
rows in progress differ in incident or channel. -/
structure Exclusive (w : Service capacity) : Prop where
  held : ∀ k id, (w.workers k).held = some id →
    ∃ d ∈ w.db.deliveries.rows, d.id = id ∧ d.status = .inProgress
  parcel : ∀ k p, (w.workers k).parcel = some p →
    ∃ d ∈ w.db.deliveries.rows, d.status = .inProgress ∧ parcelOf d = p
  alone : ∀ j k id, (w.workers j).held = some id → (w.workers k).held = some id → j = k
  pair : ∀ d ∈ w.db.deliveries.rows, ∀ e ∈ w.db.deliveries.rows, d.status = .inProgress →
    e.status = .inProgress → d.incidentId ≠ none → d.incidentId = e.incidentId →
    d.channelId = e.channelId → d = e
  /-- `attempt_count+1`. -/
  counted : ∀ k id o attempts, w.workers k = .counted id o attempts → 0 < attempts

theorem exclusive_start (db : Database) (h : ∀ d ∈ db.deliveries.rows, d.status ≠ .inProgress) :
    Exclusive (Service.start db : Service capacity) where
  held k id hk := by cases hk
  parcel k p hk := by cases hk
  alone j k id hj := by cases hj
  pair d hd e _ hs := absurd hs (h d hd)
  counted k id o attempts hk := by cases hk

theorem Exclusive.undisturbed {w' : Service capacity} (h : Exclusive w)
    (hworkers : w'.workers = w.workers) (hu : Undisturbed w.db w'.db) : Exclusive w' := by
  refine ⟨?_, ?_, ?_, ?_, by rw [hworkers]; exact h.counted⟩
  · intro k id hk
    rw [hworkers] at hk
    obtain ⟨d, hd, hid, hs⟩ := h.held k id hk
    obtain ⟨d', hd', huu⟩ := hu.keeps d hd hs
    exact ⟨d', hd', huu.id.trans hid, huu.status.trans hs⟩
  · intro k p hk
    rw [hworkers] at hk
    obtain ⟨d, hd, hs, hp⟩ := h.parcel k p hk
    obtain ⟨d', hd', huu⟩ := hu.keeps d hd hs
    exact ⟨d', hd', huu.status.trans hs, huu.parcelOf.trans hp⟩
  · rw [hworkers]
    exact h.alone
  · intro d' hd' e' he' hds hes hne hinc hch
    obtain ⟨d, hd, hdu⟩ := hu.adds d' hd' hds
    obtain ⟨e, he, heu⟩ := hu.adds e' he' hes
    -- a row that still has its incident is the row it was
    have hdd : d' = d := hdu.resolve_right fun heq => hne (by rw [heq])
    have hee : e' = e := heu.resolve_right fun heq => hne (by rw [hinc, heq])
    subst hdd hee
    exact h.pair _ hd _ he hds hes hne hinc hch

theorem Phase.held_of_parcel {phase : Phase} {p : Parcel} (h : phase.parcel = some p) :
    phase.held = some p.id := by
  cases phase <;> cases h <;> rfl

theorem Exclusive.settle (h : Exclusive w) (k : Nat) {phase : Phase}
    (hstays : ∀ x ∈ w.db.deliveries.rows, x.status = .inProgress →
      (w.workers k).held ≠ some x.id → x ∈ db.deliveries.rows)
    (hown : ∀ id, phase.held = some id → (∀ j, j ≠ k → (w.workers j).held ≠ some id) ∧
      ∃ d ∈ db.deliveries.rows, d.id = id ∧ d.status = .inProgress)
    (hparcel : ∀ p, phase.parcel = some p →
      ∃ d ∈ db.deliveries.rows, d.status = .inProgress ∧ parcelOf d = p)
    (hcounted : ∀ id o attempts, phase = .counted id o attempts → 0 < attempts)
    (hpair : ∀ d ∈ db.deliveries.rows, ∀ e ∈ db.deliveries.rows, d.status = .inProgress →
      e.status = .inProgress → d.incidentId ≠ none → d.incidentId = e.incidentId →
      d.channelId = e.channelId → d = e) : Exclusive ({ w with db }.enter k phase) := by
  have hothers : ∀ j i, j ≠ k → (w.workers j).held = some i → ∀ x ∈ w.db.deliveries.rows,
      x.id = i → x.status = .inProgress → x ∈ db.deliveries.rows := by
    intro j i hjk hj x hx hxid hs
    refine hstays x hx hs fun hk => hjk (h.alone j k i hj ?_)
    rw [hk, hxid]
  refine ⟨fun j i hj => ?_, fun j p hj => ?_, fun j j' i hj hj' => ?_, hpair,
    fun j i o attempts hj => ?_⟩
  · simp only [Service.enter, Function.update_apply] at hj
    split at hj
    · exact (hown i hj).2
    · next hjk =>
      obtain ⟨x, hx, hxid, hs⟩ := h.held j i hj
      exact ⟨x, hothers j i hjk hj x hx hxid hs, hxid, hs⟩
  · simp only [Service.enter, Function.update_apply] at hj
    split at hj
    · exact hparcel p hj
    · next hjk =>
      obtain ⟨x, hx, hs, hp⟩ := h.parcel j p hj
      exact ⟨x, hothers j _ hjk (Phase.held_of_parcel hj) x hx (congrArg Parcel.id hp) hs, hs, hp⟩
  · simp only [Service.enter, Function.update_apply] at hj hj'
    split at hj <;> split at hj'
    · next h₁ h₂ => exact h₁.trans h₂.symm
    · next hne => exact absurd hj' ((hown i hj).1 j' hne)
    · next hne _ => exact absurd hj ((hown i hj').1 j hne)
    · exact h.alone j j' i hj hj'
  · simp only [Service.enter, Function.update_apply] at hj
    split at hj
    · exact hcounted i o attempts hj
    · exact h.counted j i o attempts hj

theorem Exclusive.enter (h : Exclusive w) (k : Nat) {phase : Phase}
    (hheld : ∀ id, phase.held = some id → (w.workers k).held = some id)
    (hparcel : ∀ p, phase.parcel = some p →
      ∃ d ∈ w.db.deliveries.rows, d.status = .inProgress ∧ parcelOf d = p)
    (hcounted : ∀ id o attempts, phase = .counted id o attempts → 0 < attempts) :
    Exclusive (w.enter k phase) := by
  refine h.settle k (fun x hx _ _ => hx) (fun id hid => ⟨fun j hjk hj => ?_, ?_⟩) hparcel hcounted
    h.pair
  · exact hjk (h.alone j k id hj (hheld id hid))
  · exact h.held k id (hheld id hid)

theorem dueAt_pending (h : dueAt now d = true) : d.status = .pending := by
  simp only [dueAt, Bool.and_eq_true, decide_eq_true_eq] at h
  exact h.1

theorem claimDelivery_rows (hd : d ∈ db.deliveries.rows) (hclaim : claimable db now id d = true)
    {x : DeliveryRow} :
    x ∈ (claimDelivery db id now).deliveries.rows ↔
      (x ∈ db.deliveries.rows ∧ x.id ≠ d.id) ∨ x = startDelivery now d := by
  have hid := (claimable_iff.mp hclaim).1
  show x ∈ db.deliveries.rows.map (fun y =>
    if claimable db now id y then startDelivery now y else y) ↔ _
  rw [List.mem_map]
  constructor
  · rintro ⟨y, hy, rfl⟩
    by_cases hyd : y.id = d.id
    · rw [Table.eq_of_key_eq hy hd hyd, if_pos hclaim]
      exact .inr rfl
    · rw [if_neg fun hc => hyd ((claimable_iff.mp hc).1.trans hid.symm)]
      exact .inl ⟨hy, hyd⟩
  · rintro (⟨hx, hne⟩ | rfl)
    · exact ⟨x, hx, if_neg fun hc => hne ((claimable_iff.mp hc).1.trans hid.symm)⟩
    · exact ⟨d, hd, if_pos hclaim⟩

theorem occupied_eq_false {e : DeliveryRow} (h : occupied db d = false)
    (he : e ∈ db.deliveries.rows) (hch : e.channelId = d.channelId) (hne : e.incidentId ≠ none)
    (hinc : e.incidentId = d.incidentId) (hid : e.id ≠ d.id) : e.status ≠ .inProgress := by
  intro hs
  have hfalse := List.any_eq_false.mp h e he
  simp only [hch, hinc, hs, decide_true, Bool.true_and, Bool.and_true, Bool.and_eq_true,
    decide_eq_true_eq, not_and] at hfalse
  exact hfalse (by rw [← hinc, Option.isSome_iff_ne_none]; exact hne) hid

theorem Exclusive.claim (h : Exclusive w) (k : Nat) (hd : d ∈ w.db.deliveries.rows)
    (hclaim : claimable w.db now d.id d = true) :
    Exclusive ({ w with db := claimDelivery w.db d.id now }.enter k (.claimed d.id)) := by
  obtain ⟨-, hdue, hfree⟩ := claimable_iff.mp hclaim
  have hrows := @claimDelivery_rows d w.db now d.id hd hclaim
  -- the row was pending, so no worker held it
  have hother : ∀ x ∈ w.db.deliveries.rows, x.status = .inProgress → x.id ≠ d.id := by
    intro x hx hs hxd
    rw [Table.eq_of_key_eq hx hd hxd, dueAt_pending hdue] at hs
    cases hs
  refine h.settle k (fun x hx hs _ => hrows.mpr (.inl ⟨hx, hother x hx hs⟩)) (fun id hid => ?_)
    (fun _ hp => by cases hp) (fun _ _ _ hc => by cases hc) fun x hx y hy hxs hys hne hinc hch => ?_
  · cases hid
    refine ⟨fun j _ hj => ?_, _, hrows.mpr (.inr rfl), rfl, rfl⟩
    obtain ⟨x, hx, hxid, hs⟩ := h.held j d.id hj
    exact hother x hx hs hxid
  · rcases hrows.mp hx with ⟨hx, hxd⟩ | rfl <;> rcases hrows.mp hy with ⟨hy, hyd⟩ | rfl
    · exact h.pair x hx y hy hxs hys hne hinc hch
    · exact absurd hxs (occupied_eq_false hfree hx hch hne hinc hxd)
    · refine absurd hys (occupied_eq_false hfree hy hch.symm ?_ hinc.symm hyd)
      rw [← hinc]
      exact hne
    · rfl

theorem finishDelivery_status (attempts : Nat) (o : Outcome) (now : Time) (d : DeliveryRow) :
    (finishDelivery attempts o now d).status ≠ .inProgress := by
  unfold finishDelivery
  split
  · simp
  · split <;> simp

theorem mem_writeOutcome {attempts : Nat} {o : Outcome} {x : DeliveryRow} :
    x ∈ (writeOutcome db id attempts o now).deliveries.rows ↔
      (x ∈ db.deliveries.rows ∧ x.id ≠ id) ∨
        ∃ d ∈ db.deliveries.rows, d.id = id ∧ x = finishDelivery attempts o now d :=
  Table.mem_update_key (finishDelivery_id attempts o now)

theorem Exclusive.finish (h : Exclusive w) (now : Time) {o : Outcome} {attempts : Nat}
    (hk : w.workers k = .counted id o attempts) : Exclusive
      ({ w with db := writeOutcome w.db id attempts o now }.enter k (.delivered id)) := by
  refine h.settle k (fun x hx _ hother => mem_writeOutcome.mpr (.inl ⟨hx, ?_⟩))
    (fun _ hi => by cases hi)
    (fun _ hp => by cases hp) (fun _ _ _ hc => by cases hc) fun x hx y hy hxs hys => ?_
  · rintro rfl
    rw [hk] at hother
    exact hother rfl
  · rcases mem_writeOutcome.mp hx with ⟨hx, -⟩ | ⟨d, -, -, rfl⟩
    · rcases mem_writeOutcome.mp hy with ⟨hy, -⟩ | ⟨d, -, -, rfl⟩
      · exact h.pair x hx y hy hxs hys
      · exact absurd hys (finishDelivery_status _ _ _ _)
    · exact absurd hxs (finishDelivery_status _ _ _ _)

theorem Goes.held {a b : Phase} (h : Goes db m k a b)
    (hb : b.held = some id) : a.held = some id := by
  cases h <;> first | exact hb | cases hb

theorem Exclusive.turn (h : Exclusive w) {a b : Phase}
    (hk : w.workers k = a) (hturn : Goes w.db m k a b) : Exclusive (w.enter k b) := by
  refine h.enter k (fun i hi => hk ▸ hturn.held hi) (fun p hp => ?_) fun i o n hn => ?_
  · cases hturn with
    | load k d hd =>
      cases hp
      obtain ⟨x, hx, hxid, hs⟩ := h.held k d.id (by rw [hk]; rfl)
      rw [Table.eq_of_key_eq hx hd hxid] at hs
      exact ⟨d, hd, hs, rfl⟩
    | _ => cases hp
  · cases hturn with
    | count k o d hd =>
      cases hn
      exact Nat.succ_pos _
    | _ => cases hn

theorem recoverDeliveries_status (hd : d ∈ (recoverDeliveries db now).deliveries.rows) :
    d.status ≠ .inProgress := by
  obtain ⟨x, -, rfl⟩ := List.mem_map.mp hd
  split
  · simp
  · next hx => simpa using hx

/-- A restart gives back the recovered rows, whatever `Reconcile` answers. -/
theorem restart_frame (w : Service capacity) (r : Repository) (env : Ambient) (now : Time) :
    (w.restart r env now).workers = (fun _ => .idle) ∧ (w.restart r env now).sent = w.sent ∧
      MovesOn env (recoverDeliveries w.db now) (w.restart r env now).db := by
  unfold Service.restart Service.attempt
  split
  · next db hrun => exact ⟨rfl, rfl, reconcile_movesOn hrun⟩
  · exact ⟨rfl, rfl, .refl env _⟩

theorem Exclusive.step (h : Exclusive w) (hen : m.Enabled w) : Exclusive (w.step m) := by
  cases w.steps m with
  | quiet hworkers _ hdb => exact h.undisturbed hworkers (.of_eq (by rw [hdb]))
  | write c db hm hrun heq =>
    subst hm
    rw [heq]
    exact h.undisturbed rfl (c.undisturbed hen hrun)
  | restart r env now _ heq =>
    obtain ⟨hworkers, -, hmoves⟩ := restart_frame w r env now
    rw [heq]
    exact (@exclusive_start capacity (recoverDeliveries w.db now)
      fun d hd => recoverDeliveries_status hd).undisturbed hworkers (.of_eq hmoves.deliveries)
  | turn k a b hk hturn hdb _ hworkers =>
    exact (h.turn hk hturn).undisturbed hworkers (.of_eq (by rw [hdb]; rfl))
  | claim k now d _ hd hclaim heq =>
    rw [heq]
    exact h.claim k hd hclaim
  | send k p _ hk heq =>
    rw [heq]
    have hsent : Exclusive { w with sent := w.sent ++ [p] } := h.undisturbed rfl (.refl _)
    refine hsent.enter k (fun i hi => ?_) (fun q hq => ?_) (by simp)
    · show (w.workers k).held = some i
      rw [hk]
      exact hi
    · refine h.parcel k q ?_
      rw [hk]
      exact hq
  | finish k now id o attempts _ hk heq =>
    rw [heq]
    exact h.finish now hk

theorem exclusive_of_reachable (h : (services capacity).Reachable w) : Exclusive w := by
  refine h.invariant Exclusive (exclusive_start _ fun d hd => absurd hd List.not_mem_nil) ?_
  rintro w m w' hw ⟨hen, rfl⟩
  exact hw.step hen

/-- Deliveries of one incident to one channel are serialized: at most one is in
progress, a claim turns exactly one pending due row into a row in progress or
changes nothing, and no row is being sent by two workers. -/
theorem deliveries_serialized {w : Service capacity} (h : (services capacity).Reachable w) :
    (∀ d ∈ w.db.deliveries.rows, ∀ e ∈ w.db.deliveries.rows, d.status = .inProgress →
      e.status = .inProgress → d.incidentId ≠ none → d.incidentId = e.incidentId →
      d.channelId = e.channelId → d = e) ∧
    (∀ k id now, w.workers k = .taken id →
      ((w.claim k now).workers k = .claimed id ∧
        ∃ d ∈ w.db.deliveries.rows, d.id = id ∧ d.status = .pending ∧
          (∃ at_ ∈ d.nextAttemptAt, at_ ≤ unix now) ∧
          ∀ x, x ∈ (w.claim k now).db.deliveries.rows ↔
            (x ∈ w.db.deliveries.rows ∧ x.id ≠ id) ∨ x = startDelivery now d) ∨
      ((w.claim k now).workers k = .delivered id ∧ (w.claim k now).db = w.db)) ∧
    ∀ j k p q, w.workers j = .sending p → w.workers k = .sending q → p.id = q.id → j = k := by
  have hx := exclusive_of_reachable h
  refine ⟨hx.pair, fun k id now hk => ?_, fun j k p q hj hk hid => ?_⟩
  · rcases claim_cases now hk with ⟨d, hd, hclaim, heq⟩ | heq
    · obtain ⟨hid, hdue, -⟩ := claimable_iff.mp hclaim
      refine .inl ⟨by rw [heq]; simp [Service.enter], d, hd, hid, dueAt_pending hdue, ?_, ?_⟩
      · exact (Option.any_eq_true _ _).mp (Bool.and_eq_true _ _ ▸ hdue).2 |>.imp
          fun at_ hat => ⟨hat.1, of_decide_eq_true hat.2⟩
      · rw [heq, ← hid]
        exact fun x => claimDelivery_rows hd (hid ▸ hclaim)
    · exact .inr ⟨by rw [heq]; simp [Service.enter], by rw [heq]; rfl⟩
  · refine hx.alone j k p.id ?_ ?_
    · rw [hj]
      rfl
    · rw [hk, hid]
      rfl

/-! ## A row that is held -/

/-- Whoever holds a row and makes no move finds it as it was, but for its incident. -/
theorem Exclusive.keeps_held (h : Exclusive w) (hen : m.Enabled w)
    (hk : (w.workers k).held = some d.id) (hstay : (w.step m).workers k = w.workers k)
    (hd : d ∈ w.db.deliveries.rows) (hs : d.status = .inProgress) :
    ∃ d' ∈ (w.step m).db.deliveries.rows, Untouched d d' := by
  cases w.steps m with
  | quiet _ _ hdb => exact ⟨d, by rw [hdb]; exact hd, .refl d⟩
  | write c db hm hrun heq =>
    subst hm
    rw [heq]
    exact (c.undisturbed hen hrun).keeps d hd hs
  | restart r env now _ heq =>
    rw [heq, (restart_frame w r env now).1] at hstay
    rw [← hstay] at hk
    cases hk
  | turn j a b _ _ hdb => exact ⟨d, by rw [hdb]; exact hd, .refl d⟩
  | claim j now x _ hx hclaim heq =>
    rw [heq]
    refine ⟨d, (claimDelivery_rows hx hclaim).mpr (.inl ⟨hd, fun hid => ?_⟩), .refl d⟩
    -- a row in progress is not due
    have hdue := dueAt_pending (claimable_iff.mp hclaim).2.1
    rw [← Table.eq_of_key_eq hd hx hid, hs] at hdue
    cases hdue
  | send j q _ _ heq => exact ⟨d, by rw [heq]; exact hd, .refl d⟩
  | finish j now i o attempts _ hj heq =>
    rw [heq]
    refine ⟨d, mem_writeOutcome.mpr (.inl ⟨hd, ?_⟩), .refl d⟩
    rintro rfl
    -- the worker that finishes the row is the one that holds it
    obtain rfl := h.alone j k d.id (by rw [hj]; rfl) hk
    rw [heq] at hstay
    simp [Service.enter, hj] at hstay

/-- In every run from a reachable service in which a worker that holds a row makes no move,
nothing changes the row, except that a cleanup may take its incident away. -/
theorem held_row_untouched {w : Service capacity} (h : (services capacity).Reachable w)
    (hk : (w.workers k).held = some d.id) (hd : d ∈ w.db.deliveries.rows) {moves : List Move}
    (hmoves : Along Service.step
      (fun s m => m.Enabled s ∧ (s.step m).workers k = s.workers k) w moves) :
    ∃ d' ∈ (moves.foldl Service.step w).db.deliveries.rows, Untouched d d' := by
  have hx := exclusive_of_reachable h
  obtain ⟨x, hmem, hid, hs⟩ := hx.held k d.id hk
  obtain rfl := Table.eq_of_key_eq hmem hd hid
  have hrun := hmoves.invariant (I := fun s => Exclusive s ∧ (s.workers k).held = some x.id ∧
    ∃ d' ∈ s.db.deliveries.rows, Untouched x d') ?_ ⟨hx, hk, x, hd, .refl x⟩
  · exact hrun.2.2
  · rintro s m ⟨hsx, hsk, d', hd', hu⟩ ⟨hen, hstay⟩
    obtain ⟨y, hy, hu'⟩ := hsx.keeps_held hen (hu.id ▸ hsk) hstay hd' (hu.status.trans hs)
    exact ⟨hsx.step hen, hstay ▸ hsk, y, hy, hu.trans hu'⟩

/-! ## A first delivery -/

/-- Every id in the database and in messages. -/
def Service.names (w : Service capacity) : List String :=
  idsInUse w.db ++ w.sent.map Parcel.key ++ w.mentioned

theorem ne_draws {letter : Char} {s : String} (h : s.toList.contains letter = false)
    (start : String) (n : Nat) : s ≠ start ++ (draws letter).ids n := by
  rintro rfl
  simp [draws] at h

theorem freshFor_draws {letter : Char}
    (h : (w.names.all fun s => !s.toList.contains letter) = true) :
    FreshFor (draws letter) w := by
  have hne : ∀ s ∈ w.names, ∀ start n, s ≠ start ++ (draws letter).ids n := by
    intro s hs start n
    exact ne_draws (by simpa using List.all_eq_true.mp h s hs) start n
  have hdb : ∀ s ∈ idsInUse w.db, ∀ start n, s ≠ start ++ (draws letter).ids n := by
    intro s hs
    exact hne s (by simp [Service.names, hs])
  refine ⟨⟨?_, ?_, ?_, ?_, ?_, ?_, ?_⟩, ?_, ?_⟩
  · intro n m hnm
    have := congrArg (fun s => s.toList.length) hnm
    simpa [draws] using this
  · refine fun n => Table.has_eq_false_iff.mpr fun a ha => ?_
    simpa using hdb a.id (by simp only [idsInUse, List.mem_append]; grind) "" n
  · exact fun n => Table.has_eq_false_iff.mpr fun e he =>
      hdb e.id (by simp only [idsInUse, List.mem_append]; grind) "alert-" n
  · exact fun n => Table.has_eq_false_iff.mpr fun i hi =>
      hdb i.id (by simp only [idsInUse, List.mem_append]; grind) "inc_" n
  · intro n m hm
    simpa using hdb m.alertId (by simp only [idsInUse, List.mem_append]; grind) "" n
  · exact fun n d hd => hdb d.id (by simp only [idsInUse, List.mem_append]; grind) "del_" n
  · exact fun n d hd =>
      hdb d.idempotencyKey (by simp only [idsInUse, List.mem_append]; grind) "idem_" n
  · exact fun n p hp => hne p.key (by simp only [Service.names, List.mem_append]; grind) "idem_" n
  · exact fun n id hid => hne id (by simp only [Service.names, List.mem_append]; grind) "inc_" n

def memoryHigh (at_ : Int) : Observation where
  rule := builtinRule "builtin-host-memory-warning" familyHostMemory "Host memory warning" .warning
  targetType := "host"
  target := "server"
  value := 92
  failing := true
  recovered := false
  now := at_ * second

def hostRules : Database :=
  { Database.empty with
    alertRules := ⟨[ruleRow (cpuHigh 0).rule .warning true 0 0 0,
      ruleRow (memoryHigh 0).rule .warning true 0 0 0], by decide⟩ }

def announce : List Move :=
  [.write (.elsewhere hostRules), .write (.createChannel "ops" true .warning true),
   .write (.transact (.fire (some {}) (draws 'x') (cpuHigh 0)))]

/-- Worker 0 issues the request for the delivery that is due. -/
def attemptAt (at_ : Int) : List Move :=
  [.query .stored (at_ * second), .offer (at_ * second), .take 0, .claim 0 (at_ * second),
   .load 0, .send 0]

def after (moves : List Move) : Service 8 := moves.foldl Service.step (.start Database.empty)

theorem along_announce : Along Service.step Move.Enabled (after []) announce :=
  ⟨⟨rfl, rfl, rfl, rfl, rfl⟩, trivial, freshFor_draws (by decide +kernel), trivial⟩

theorem along_attemptAt (w : Service 8) (at_ : Int) :
    Along Service.step Move.Enabled w (attemptAt at_) :=
  ⟨trivial, trivial, trivial, trivial, trivial, trivial, trivial⟩

theorem reachable_after {moves : List Move}
    (h : Along Service.step Move.Enabled (after []) moves) : (services 8).Reachable (after moves) :=
  h.reachable .init

/-- The opened incident is being sent, by one worker. -/
theorem deliveries_serialized_sending :
    ((after (announce ++ attemptAt 20)).db.deliveries.rows.map fun d => (d.eventType, d.status))
      = [(.opened, .inProgress)] ∧
    ∀ j k p q, (after (announce ++ attemptAt 20)).workers j = .sending p →
      (after (announce ++ attemptAt 20)).workers k = .sending q → p.id = q.id → j = k :=
  ⟨by decide +kernel,
    (deliveries_serialized (reachable_after
      (along_announce.append (along_attemptAt _ 20)))).2.2⟩

theorem held_row_untouched_sending :
    ∃ d ∈ (after (announce ++ attemptAt 20)).db.deliveries.rows,
      ∃ d' ∈ ([.query .stored 0, .take 1].foldl Service.step
        (after (announce ++ attemptAt 20))).db.deliveries.rows, Untouched d d' := by
  have hw := reachable_after (along_announce.append (along_attemptAt _ 20))
  have hk : ((after (announce ++ attemptAt 20)).workers 0).held.isSome = true := by decide +kernel
  obtain ⟨id, hid⟩ := Option.isSome_iff_exists.mp hk
  obtain ⟨d, hd, rfl, -⟩ := (exclusive_of_reachable hw).held 0 id hid
  exact ⟨d, hd, held_row_untouched hw hid hd
    ⟨⟨trivial, by decide +kernel⟩, ⟨trivial, by decide +kernel⟩, trivial⟩⟩

end Binnacle.Notifications
