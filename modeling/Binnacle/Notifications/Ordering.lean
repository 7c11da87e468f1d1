import Binnacle.Notifications.Idempotency

/-!
# Versions of one incident at one channel

Each message tells the version of its incident. The waiting delivery of a pair
of incident and channel is overwritten in place, and while one is in progress
the next is not claimed, so the versions a channel sees grow, unless two
deliveries of a pair wait beside each other: an attempt that returns to
`pending` while a newer delivery was queued, or a reminder that is queued
beside, or left behind by, another delivery.

- `versions_nondecreasing`: runs in which deliveries do not pass each other;
- `versions_go_back`: a failed attempt is repeated after the newer message.
-/

namespace Binnacle.Notifications

open Relational Runs Alerts Storage

variable {capacity : Nat} {db db' : Database} {w : Service capacity} {incidentID channelID : String}
  {d e x : DeliveryRow} {sent : List Parcel} {eventType : DeliveryEvent} {named : String → Prop}
  {p : Payload} {now : Time}

/-! ## Messages and versions -/

def Older (p q : Parcel) : Prop :=
  p.channelId = q.channelId → ∀ told ∈ p.payload.incident, ∀ told' ∈ q.payload.incident,
    told.id = told'.id → told.version ≤ told'.version

theorem Older.refl (p : Parcel) : Older p p := by
  intro _ told htold told' htold' _
  rw [Option.mem_def] at htold htold'
  rw [Option.some.inj (htold.symm.trans htold')]

def Bounded (db : Database) (p : Payload) : Prop :=
  ∀ told ∈ p.incident, ∀ i ∈ db.incidents.rows, i.id = told.id → told.version ≤ i.version

/-- Among the incidents with certain ids there are only known ones: their versions
did not go back, and what was resolved still is. -/
def Advances (named : String → Prop) (db db' : Database) : Prop :=
  ∀ i' ∈ db'.incidents.rows, named i'.id → ∃ i ∈ db.incidents.rows, i.id = i'.id ∧
    i.version ≤ i'.version ∧ (i.status = .resolved → i'.status = .resolved)

/-- Every id: what a step that leaves incidents alone advances. -/
def anyId (_ : String) : Prop := True

theorem Advances.of_subset (h : ∀ i ∈ db'.incidents.rows, i ∈ db.incidents.rows) :
    Advances anyId db db' :=
  fun i hi _ => ⟨i, h i hi, rfl, Nat.le_refl _, fun hs => hs⟩

theorem Quiet.advances (h : Quiet w db db') : Advances (fun id => id ∈ w.mentioned) db db' := by
  intro i' hi' hmentioned
  obtain ⟨i, hi, hid⟩ := (h.known i' hi').resolve_right fun hnot => hnot hmentioned
  obtain ⟨j, hj, hjid, hversion, hstatus⟩ := h.kept.incident i hi
  rw [Table.eq_of_key_eq hi' hj (hid.symm.trans hjid.symm)]
  exact ⟨i, hi, hjid.symm, hversion, hstatus⟩

theorem Still.advances (h : Still db db') : Advances anyId db db' := by
  obtain ⟨f, hrows, hf⟩ := h.incidents
  intro i' hi' _
  rw [hrows] at hi'
  obtain ⟨i, hi, rfl⟩ := List.mem_map.mp hi'
  obtain ⟨hid, hversion, hstatus⟩ := hf i
  exact ⟨i, hi, hid.symm, Nat.le_of_eq hversion.symm, fun hs => hstatus.trans hs⟩

theorem Bounded.mono (h : Bounded db p)
    (hadv : Advances named db db') (hnamed : ∀ told ∈ p.incident, named told.id) :
    Bounded db' p := by
  intro told htold i' hi' hid
  obtain ⟨i, hi, hii, hversion, -⟩ := hadv i' hi' (hid ▸ hnamed told htold)
  exact (h told htold i hi (hii.trans hid)).trans hversion

theorem Describes.bounded (h : Describes db incidentID p) : Bounded db p := by
  obtain ⟨i, hi, hid, told, htold, htid, hversion⟩ := h
  intro told' htold' j hj hjid
  rw [htold, Option.mem_def, Option.some.injEq] at htold'
  subst htold'
  rw [Table.eq_of_key_eq hj hi (hjid.trans (htid.trans hid.symm)), hversion]

theorem Describes.newest {p q : Parcel} (h : Describes db incidentID q.payload)
    (hp : Bounded db p.payload) : Older p q := by
  intro _ told htold told' htold' hid
  obtain ⟨i, hi, hiid, toldq, htoldq, htid, hversion⟩ := h
  rw [htoldq, Option.mem_def, Option.some.injEq] at htold'
  subst htold'
  rw [hversion]
  exact hp told htold i hi (by rw [hid, htid, hiid])

/-! ## The invariant -/

def Beside (d e : DeliveryRow) : Prop :=
  d.incidentId ≠ none ∧ d.incidentId = e.incidentId ∧ d.channelId = e.channelId

def Attached (d : DeliveryRow) : Prop := ∀ told ∈ d.payload.incident, d.incidentId = some told.id

theorem older_of_beside (hd : Attached d) (he : Attached e)
    (h : Beside d e → Older (parcelOf d) (parcelOf e)) : Older (parcelOf d) (parcelOf e) := by
  intro hch told htold told' htold' hid
  have hdi := hd told htold
  have hei := he told' htold'
  refine h ⟨?_, ?_, hch⟩ hch told htold told' htold' hid
  · rw [hdi]
    exact Option.some_ne_none _
  · rw [hdi, hei, hid]

structure Ordered (db : Database) (sent : List Parcel) : Prop where
  linked : ∀ d ∈ db.deliveries.rows, d.status.finished = false → Attached d
  rowsBounded : ∀ d ∈ db.deliveries.rows, Bounded db d.payload
  sentBounded : ∀ p ∈ sent, Bounded db p.payload
  single : ∀ i c, ∀ d ∈ db.deliveries.rows, ∀ e ∈ db.deliveries.rows,
    waiting i c d = true → waiting i c e = true → d = e
  rows : ∀ d ∈ db.deliveries.rows, ∀ e ∈ db.deliveries.rows, d.status.finished = false →
    e.status = .pending → Older (parcelOf d) (parcelOf e)
  ahead : ∀ p ∈ sent, ∀ d ∈ db.deliveries.rows, d.status.finished = false → Older p (parcelOf d)
  sorted : sent.Pairwise Older

/-- A row with the message of an earlier one; `again` holds of those that may
return to `pending`, and only finished ones may have lost their incident. -/
structure Follows (again : DeliveryRow → Prop) (d x : DeliveryRow) : Prop where
  id : x.id = d.id
  incident : x.status.finished = false → x.incidentId = d.incidentId
  channel : x.channelId = d.channelId
  event : x.eventType = d.eventType
  payload : x.payload = d.payload
  pending : x.status = .pending → d.status = .pending ∨ (d.status = .inProgress ∧ again d)
  unfinished : x.status.finished = false → d.status.finished = false

theorem Follows.refl (again : DeliveryRow → Prop) (d : DeliveryRow) : Follows again d d :=
  ⟨rfl, fun _ => rfl, rfl, rfl, rfl, .inl, fun h => h⟩

theorem Follows.older {again again' : DeliveryRow → Prop} {y : DeliveryRow} (hx : Follows again d x)
    (hy : Follows again' e y) (h : Older (parcelOf d) (parcelOf e)) :
    Older (parcelOf x) (parcelOf y) := by
  unfold Older parcelOf at h ⊢
  rw [hx.channel, hx.payload, hy.channel, hy.payload]
  exact h

theorem Follows.waiting {again : DeliveryRow → Prop} {i c : String} (h : Follows again d x)
    (hw : waiting i c x = true) :
    (d.status = .pending → Notifications.waiting i c d = true) ∧ d.incidentId = some i ∧
      d.channelId = c := by
  obtain ⟨hinc, hch, hs, hco⟩ := waiting_iff.mp hw
  rw [h.incident (by rw [hs]; rfl)] at hinc
  rw [h.channel] at hch
  rw [h.event] at hco
  exact ⟨fun hs => waiting_iff.mpr ⟨hinc, hch, hs, hco⟩, hinc, hch⟩

theorem Beside.symm (h : Beside d e) : Beside e d :=
  ⟨h.2.1 ▸ h.1, h.2.1.symm, h.2.2.symm⟩

theorem beside_of_waiting {i c : String} (hd : d.incidentId = some i) (hdc : d.channelId = c)
    (he : e.incidentId = some i) (hec : e.channelId = c) : Beside d e :=
  ⟨by rw [hd]; exact Option.some_ne_none i, hd.trans he.symm, hdc.trans hec.symm⟩

structure Named (named : String → Prop) (db : Database) (sent : List Parcel) : Prop where
  rows : ∀ d ∈ db.deliveries.rows, ∀ told ∈ d.payload.incident, named told.id
  sent : ∀ p ∈ sent, ∀ told ∈ p.payload.incident, named told.id

theorem named_anyId (db : Database) (sent : List Parcel) : Named anyId db sent :=
  ⟨fun _ _ _ _ => trivial, fun _ _ _ _ => trivial⟩

theorem named_mentioned (w : Service capacity) :
    Named (fun id => id ∈ w.mentioned) w.db w.sent := by
  constructor
  · intro d hd told htold
    refine List.mem_filterMap.mpr ⟨d.payload, ?_, by rw [Option.mem_def.mp htold]; rfl⟩
    exact List.mem_append_right _ (List.mem_map_of_mem hd)
  · intro p hp told htold
    refine List.mem_filterMap.mpr ⟨p.payload, ?_, by rw [Option.mem_def.mp htold]; rfl⟩
    exact List.mem_append_left _ (List.mem_map_of_mem hp)

theorem Follows.cancel (d : DeliveryRow) (now : Time) :
    Follows (fun _ => False) d (cancelDelivery now d) :=
  ⟨rfl, fun _ => rfl, rfl, rfl, rfl, nofun, nofun⟩

/-! ## Statements that keep messages -/

/-- Such statements keep the property, if the rows that return to `pending` meet a condition. -/
def Evolves (I : Database → List Parcel → Prop) (Free : Database → DeliveryRow → Prop) : Prop :=
  ∀ {named : String → Prop} {db db' : Database} {sent : List Parcel} (again : DeliveryRow → Prop),
    I db sent → Advances named db db' → Named named db sent →
    (∀ x ∈ db'.deliveries.rows, ∃ d ∈ db.deliveries.rows, Follows again d x) →
    (∀ d ∈ db.deliveries.rows, d.status = .inProgress → again d → Free db d) → I db' sent

variable {I : Database → List Parcel → Prop} {Free : Database → DeliveryRow → Prop}

/-- Statements after which no row is pending or in progress that was not. -/
theorem Evolves.keep (hI : Evolves I Free) (h : I db sent) (hadv : Advances anyId db db')
    (hrows : ∀ x ∈ db'.deliveries.rows, ∃ d ∈ db.deliveries.rows, Follows (fun _ => False) d x) :
    I db' sent :=
  hI _ h hadv (named_anyId db sent) hrows fun _ _ _ hfalse => hfalse.elim

theorem Evolves.quiet (hI : Evolves I Free) (h : I w.db w.sent) (hq : Quiet w w.db db) :
    I db w.sent :=
  hI (fun _ => False) h hq.advances (named_mentioned w)
    (fun x hx => ⟨x, hq.deliveries ▸ hx, .refl _ x⟩) fun _ _ _ hfalse => hfalse.elim

theorem Evolves.cancel (hI : Evolves I Free) (h : I db sent) (now : Time)
    (p : DeliveryRow → Bool) : I (cancelDeliveries db now p) sent := by
  refine hI.keep h (.of_subset fun i hi => hi) fun x hx => ?_
  rcases (Table.mem_update (by intro i; rfl)).mp hx with ⟨hx, -⟩ | ⟨d, hd, -, rfl⟩
  · exact ⟨x, hx, .refl _ x⟩
  · exact ⟨d, hd, .cancel d now⟩

def Alone (db : Database) (d : DeliveryRow) : Prop :=
  ∀ e ∈ db.deliveries.rows, e.status.finished = false → Beside d e → e = d

theorem Ordered.evolves : Evolves Ordered Alone := by
  intro named db db' sent again h hadv hnamed hrows halone
  refine ⟨?_, ?_, fun p hp => (h.sentBounded p hp).mono hadv (hnamed.sent p hp), ?_, ?_, ?_,
    h.sorted⟩
  · intro x hx hxu told htold
    obtain ⟨d, hd, hf⟩ := hrows x hx
    rw [hf.incident hxu]
    exact h.linked d hd (hf.unfinished hxu) told (hf.payload ▸ htold)
  · intro x hx
    obtain ⟨d, hd, hf⟩ := hrows x hx
    rw [hf.payload]
    exact (h.rowsBounded d hd).mono hadv (hnamed.rows d hd)
  · intro i c x hx y hy hwx hwy
    obtain ⟨d, hd, hfx⟩ := hrows x hx
    obtain ⟨e, he, hfy⟩ := hrows y hy
    obtain ⟨hwd, hdi, hdc⟩ := hfx.waiting hwx
    obtain ⟨hwe, hei, hec⟩ := hfy.waiting hwy
    have hxp := (waiting_iff.mp hwx).2.2.1
    have hyp := (waiting_iff.mp hwy).2.2.1
    have hdu := hfx.unfinished (by rw [hxp]; rfl)
    have heu := hfy.unfinished (by rw [hyp]; rfl)
    have hbeside : Beside d e := beside_of_waiting hdi hdc hei hec
    have hde : d = e := by
      rcases hfx.pending hxp with hds | ⟨hds, hda⟩
      · rcases hfy.pending hyp with hes | ⟨hes, hea⟩
        · exact h.single i c d hd e he (hwd hds) (hwe hes)
        · exact halone e he hes hea d hd hdu hbeside.symm
      · exact (halone d hd hds hda e he heu hbeside).symm
    subst hde
    exact Table.eq_of_key_eq hx hy (hfx.id.trans hfy.id.symm)
  · intro x hx y hy hxu hyp
    obtain ⟨d, hd, hfx⟩ := hrows x hx
    obtain ⟨e, he, hfy⟩ := hrows y hy
    refine hfx.older hfy ?_
    rcases hfy.pending hyp with hes | ⟨hes, hea⟩
    · exact h.rows d hd e he (hfx.unfinished hxu) hes
    · have hdu := hfx.unfinished hxu
      have heu : e.status.finished = false := by rw [hes]; rfl
      refine older_of_beside (h.linked d hd hdu) (h.linked e he heu) fun hbeside => ?_
      rw [halone e he hes hea d hd (hfx.unfinished hxu) hbeside.symm]
      exact .refl _
  · intro p hp x hx hxu
    obtain ⟨d, hd, hf⟩ := hrows x hx
    have hahead := h.ahead p hp d hd (hf.unfinished hxu)
    unfold Older parcelOf at hahead ⊢
    rw [hf.channel, hf.payload]
    exact hahead

/-- One row is new, or rewritten: it is not older than anything, and not newer
than what is pending beside it. -/
theorem Ordered.put (h : Ordered db sent) (hincidents : db'.incidents = db.incidents)
    (hrows : ∀ x ∈ db'.deliveries.rows, (x ∈ db.deliveries.rows ∧ x.id ≠ d.id) ∨ x = d)
    (hlinked : Attached d) (hbounded : Bounded db d.payload)
    (hsingle : ∀ i c, waiting i c d = true →
      ∀ x ∈ db.deliveries.rows, x.id ≠ d.id → waiting i c x = false)
    (hnewest : ∀ p, Bounded db p.payload → Older p (parcelOf d))
    (hlevel : ∀ x ∈ db.deliveries.rows, x.id ≠ d.id → x.status = .pending → Beside d x →
      Older (parcelOf d) (parcelOf x)) : Ordered db' sent := by
  have hadv : ∀ p, Bounded db p → Bounded db' p := by
    intro p hp
    unfold Bounded at hp ⊢
    rwa [hincidents]
  refine ⟨?_, ?_, fun p hp => hadv _ (h.sentBounded p hp), ?_, ?_, ?_, h.sorted⟩
  · intro x hx hxu
    rcases hrows x hx with ⟨hx, -⟩ | rfl
    · exact h.linked x hx hxu
    · exact hlinked
  · intro x hx
    rcases hrows x hx with ⟨hx, -⟩ | rfl
    · exact hadv _ (h.rowsBounded x hx)
    · exact hadv _ hbounded
  · intro i c x hx y hy hwx hwy
    rcases hrows x hx with ⟨hx, hxd⟩ | rfl <;> rcases hrows y hy with ⟨hy, hyd⟩ | rfl
    · exact h.single i c x hx y hy hwx hwy
    · rw [hsingle i c hwy x hx hxd] at hwx
      cases hwx
    · rw [hsingle i c hwx y hy hyd] at hwy
      cases hwy
    · rfl
  · intro x hx y hy hxu hyp
    rcases hrows x hx with ⟨hx, -⟩ | rfl <;> rcases hrows y hy with ⟨hy, hyd⟩ | rfl
    · exact h.rows x hx y hy hxu hyp
    · exact hnewest (parcelOf x) (h.rowsBounded x hx)
    · have hyu : y.status.finished = false := by rw [hyp]; rfl
      refine older_of_beside hlinked (h.linked y hy hyu) fun hbeside => ?_
      exact hlevel y hy hyd hyp hbeside
    · exact .refl _
  · intro p hp x hx hxu
    rcases hrows x hx with ⟨hx, -⟩ | rfl
    · exact h.ahead p hp x hx hxu
    · exact hnewest p (h.sentBounded p hp)

/-! ## Edits -/

/-- What is pending of the incident, the event can coalesce with or cancel, or
tells the incident as it is. -/
def Fit (eventType : DeliveryEvent) (incidentID : String) (db : Database) : Prop :=
  ∀ d ∈ db.deliveries.rows, d.incidentId = some incidentID → d.status = .pending →
    (eventType ≠ .reminder ∧ coalesces d.eventType = true) ∨ Describes db incidentID d.payload

theorem Describes.transfer {a b : Database} (h : Describes a incidentID p)
    (heq : b.incidents = a.incidents) : Describes b incidentID p := by
  unfold Describes at h ⊢
  rw [heq]
  exact h

theorem Describes.still {a b : Database} (h : Describes a incidentID p)
    (hs : Still a b) : Describes b incidentID p := by
  obtain ⟨i, hi, hid, told, htold, htid, hversion⟩ := h
  obtain ⟨f, hrows, hf⟩ := hs.incidents
  refine ⟨f i, ?_, (hf i).1.trans hid, told, htold, htid, hversion.trans (hf i).2.1.symm⟩
  rw [hrows]
  exact List.mem_map_of_mem hi

theorem Edit.fit {env : Ambient}
    (h : Edit env incidentID channelID eventType db db') {e : DeliveryEvent} {id : String}
    (hfit : Fit e id db) : Fit e id db' := by
  have hincidents : db'.incidents = db.incidents := by rw [h.frame]
  intro x hx hinc hs
  rcases h.row_cases hx with hx | ⟨d, hd, payload, next, updated, hw, -, hdesc, rfl⟩ | hnew |
    ⟨d, hd, now, -, -, rfl⟩
  · exact (hfit x hx hinc hs).imp_right fun hdesc => hdesc.transfer hincidents
  · have hid : incidentID = id := Option.some.inj ((waiting_iff.mp hw).1.symm.trans hinc)
    exact .inr (hid ▸ hdesc.transfer hincidents)
  · have hid : incidentID = id := Option.some.inj (hnew.incident.symm.trans hinc)
    exact .inr (hid ▸ hnew.describes.transfer hincidents)
  · cases hs

theorem Describes.linked (h : Describes db incidentID d.payload)
    (hinc : d.incidentId = some incidentID) : Attached d := by
  intro told htold
  obtain ⟨i, -, -, told', htold', hid, -⟩ := h
  rw [htold', Option.mem_def, Option.some.injEq] at htold
  rw [hinc, ← htold, hid]

/-- A row that tells the incident as it is, when nothing else waits that the
event could coalesce with or cancel. -/
theorem Ordered.putDescribed (h : Ordered db sent) (hincidents : db'.incidents = db.incidents)
    (hrows : ∀ x ∈ db'.deliveries.rows, (x ∈ db.deliveries.rows ∧ x.id ≠ d.id) ∨ x = d)
    (hinc : d.incidentId = some incidentID) (hdesc : Describes db incidentID d.payload)
    (hfit : Fit eventType incidentID db) (hevent : eventType = .reminder → d.eventType = .reminder)
    (halone : eventType ≠ .reminder → ∀ x ∈ db.deliveries.rows, x.id ≠ d.id →
      waiting incidentID d.channelId x = false) : Ordered db' sent := by
  refine h.put hincidents hrows (hdesc.linked hinc) hdesc.bounded ?_
    (fun p hp => hdesc.newest hp) ?_
  · intro i c hw x hx hxd
    obtain ⟨hwinc, rfl, -, hco⟩ := waiting_iff.mp hw
    have hii : incidentID = i := Option.some.inj (hinc.symm.trans hwinc)
    subst hii
    refine halone ?_ x hx hxd
    intro he
    rw [hevent he] at hco
    cases hco
  · intro x hx hxd hs hbeside
    have hxinc : x.incidentId = some incidentID := hbeside.2.1.symm.trans hinc
    rcases hfit x hx hxinc hs with ⟨hne, hco⟩ | hdesc'
    · have hw := waiting_iff.mpr ⟨hxinc, hbeside.2.2.symm, hs, hco⟩
      rw [halone hne x hx hxd] at hw
      cases hw
    · exact hdesc'.newest hdesc.bounded

theorem Edit.ordered {env : Ambient}
    (h : Edit env incidentID channelID eventType db db') (hfit : Fit eventType incidentID db)
    (ho : Ordered db sent) : Ordered db' sent := by
  cases h with
  | overwrite d payload next updated hco hd hw hdesc =>
    obtain ⟨hinc, hch, hpending, -⟩ := waiting_iff.mp hw
    refine ho.putDescribed
      (d := { d with payload, nextAttemptAt := some next, updatedAt := updated })
      rfl (fun x hx => ?_) hinc hdesc hfit ?_ ?_
    · have hcases := mem_overwriteDelivery hd hx
      exact hcases
    · rintro rfl
      cases hco
    · -- the overwritten delivery was the only one that waited
      intro _ x hx hxd
      by_contra hwx
      rw [Bool.not_eq_false] at hwx
      have hxeq : x = d := ho.single incidentID channelID x hx d hd (hch ▸ hwx) hw
      exact hxd (by rw [hxeq])
  | queue d deliveries hnew hfree hrows =>
    exact ho.putDescribed (d := d) rfl (fun x hx => mem_queued hfree hrows hx) hnew.incident
      hnew.describes hfit (fun he => hnew.event.trans he)
      fun hne x hx _ => hnew.channel ▸ hnew.alone hne x hx
  | cancel now p => exact Ordered.evolves.cancel ho now p

/-! ## Moves that keep the order -/

/-- Whether an attempt returns to `pending`. -/
def returns (attempts : Nat) (o : Outcome) : Bool :=
  !o.success && (retryDelay attempts o.retryable o.retryAfter).isSome

theorem finishDelivery_pending {attempts : Nat} {o : Outcome}
    (h : (finishDelivery attempts o now d).status = .pending) : returns attempts o = true := by
  unfold finishDelivery at h
  split at h
  · cases h
  · next hs =>
    split at h
    · next delay hdelay => simp [returns, hs, hdelay]
    · cases h

def SparesUnfinished (db : Database) (now : Time) : Prop :=
  ∀ d ∈ db.deliveries.rows, d.status.finished = false →
    ∀ i, d.incidentId = some i → forgets db now i = false

/-- No delivery passes another of its incident and channel: alert transactions
find only deliveries pending that they coalesce with or cancel, reminders find
none, and an attempt returns to `pending` only where nothing else is pending.
Cleanups spare the incidents of unfinished deliveries, and nothing is retried by
hand. -/
def Orderly (w : Service capacity) : Move → Prop
  | .write c =>
    (∀ env eventType id, c.Touches w env eventType id →
      ∀ d ∈ w.db.deliveries.rows, d.incidentId = some id → d.status = .pending →
        eventType ≠ .reminder ∧ coalesces d.eventType = true) ∧
    (∀ now, c = .transact (.cleanupIncidents now) → SparesUnfinished w.db now) ∧
    ∀ id now, c ≠ .retry id now
  | .restart _ _ _ => ∀ d ∈ w.db.deliveries.rows, ∀ e ∈ w.db.deliveries.rows,
      d.status = .inProgress → e.status = .pending → ¬ Beside d e
  | .finish k _ => ∀ id o attempts, w.workers k = .counted id o attempts →
      returns attempts o = true → ∀ d ∈ w.db.deliveries.rows, d.id = id →
      ∀ e ∈ w.db.deliveries.rows, e.status = .pending → ¬ Beside d e
  | _ => True

theorem mem_cleanupIncidents_follows (hspared : SparesUnfinished db now)
    (hx : x ∈ (cleanupIncidents db now).deliveries.rows) :
    ∃ d ∈ db.deliveries.rows, Follows (fun _ => False) d x := by
  obtain ⟨d, hd, rfl | ⟨⟨i, hi, hforgets⟩, rfl⟩⟩ := mem_cleanupIncidents hx
  · exact ⟨x, hd, .refl _ x⟩
  · -- a delivery that lost its incident is finished
    have hfinished : d.status.finished ≠ false := by
      intro hu
      rw [hspared d hd hu i hi] at hforgets
      cases hforgets
    exact ⟨d, hd, rfl, fun hu => absurd hu hfinished, rfl, rfl, rfl, .inl, fun hu => hu⟩

/-- A change that retries nothing and spares unfinished deliveries: what it does beside the
edits keeps messages. `C` is what the edits need of the database. -/
theorem Evolves.change {c : Change} {C : Database → Prop} (hI : Evolves I Free)
    (hen : c.Enabled w) (hrun : c.run w.db = .ok db) (h : I w.db w.sent)
    (hspared : ∀ now, c = .transact (.cleanupIncidents now) → SparesUnfinished w.db now)
    (hretry : ∀ id now, c ≠ .retry id now)
    (hnone : ∀ {db}, (∀ env e id, ¬ c.Touches w env e id) → C db)
    (hquiet : ∀ {db}, Quiet w w.db db → C db) (hstill : ∀ {a b}, Still a b → C a → C b)
    (hedit : ∀ {env e id}, c.Touches w env e id → ∀ {channelID a b}, Stands e id a →
      Edit env id channelID e a b → I a w.sent → C a → I b w.sent ∧ C b)
    (htest : ∀ {env channelID now db}, db.incidents = w.db.incidents →
      (∀ x ∈ db.deliveries.rows,
        (x ∈ w.db.deliveries.rows ∧ x.id ≠ (testDelivery env channelID now).id) ∨
          x = testDelivery env channelID now) → I db w.sent) : I db w.sent := by
  have hsurvives : Survives w c fun db => I db w.sent ∧ C db := by
    constructor
    case quiet => exact fun db hq => ⟨hI.quiet h hq, hquiet hq⟩
    case still =>
      rintro a b hs ⟨ha, hclear⟩
      exact ⟨hI.keep ha hs.advances fun x hx => ⟨x, hs.deliveries ▸ hx, .refl _ x⟩,
        hstill hs hclear⟩
    case edit =>
      rintro env e id htouches channelID a b hstands hed ⟨ha, hclear⟩
      exact hedit htouches hstands hed ha hclear
    case expire =>
      rintro now rfl
      refine ⟨hI.keep h (.of_subset fun i hi => hi) fun x hx => ?_, hnone fun _ _ _ h => h⟩
      exact ⟨x, (Table.mem_delete.mp hx).1, .refl _ x⟩
    case forget =>
      rintro now rfl
      refine ⟨hI.keep h (.of_subset fun i hi => (Table.mem_delete.mp hi).1) fun x hx => ?_,
        hnone fun _ _ _ h => h⟩
      exact mem_cleanupIncidents_follows (hspared now rfl) hx
    case cancel =>
      intro id now db hcancel hq
      exact ⟨hI.cancel (hI.quiet h hq) now _,
        hnone fun env e id h => Change.not_touches_of_cancels hcancel h⟩
    case test =>
      rintro env channelID now deliveries rfl - hrows
      refine ⟨htest rfl fun x hx => mem_queued ?_ hrows hx, hnone fun _ _ _ h => h⟩
      exact Table.has_eq_false_iff.mpr fun x hx => hen.db.deliveries 0 x hx
    case retry => exact fun id now db' hc _ => absurd hc (hretry id now)
  exact (hsurvives.keeps hen hrun).1

theorem Change.ordered {c : Change} (hen : c.Enabled w) (horderly : Orderly w (.write c))
    (hrun : c.run w.db = .ok db) (ho : Ordered w.db w.sent) : Ordered db w.sent := by
  obtain ⟨hfit, hspared, hretry⟩ := horderly
  -- while channels are served, what is pending stays fit for the event
  refine Ordered.evolves.change (C := fun db => ∀ env eventType id, c.Touches w env eventType id →
    Fit eventType id db) hen hrun ho hspared hretry ?_ ?_ ?_ ?_ ?_
  · exact fun hne env e id htouches => absurd htouches (hne env e id)
  · intro db hq env e id htouches d hd hinc hs
    exact .inl (hfit env e id htouches d (hq.deliveries ▸ hd) hinc hs)
  · intro a b hs hclear env e id htouches d hd hinc hd'
    rw [hs.deliveries] at hd
    exact (hclear env e id htouches d hd hinc hd').imp_right fun h => h.still hs
  · intro env e id htouches channelID a b _ hedit ha hclear
    refine ⟨hedit.ordered (hclear env e id htouches) ha, ?_⟩
    exact fun env' e' id' h' => hedit.fit (hclear env' e' id' h')
  · intro env channelID now db hincidents hrows
    refine ho.put hincidents hrows nofun nofun ?_ ?_ ?_
    · exact fun i c hw => by cases (waiting_iff.mp hw).2.2.2
    · exact fun p _ _ told _ told' htold' => by cases htold'
    · exact fun x _ _ _ hbeside => absurd rfl hbeside.1

theorem Exclusive.beside_cases (hx : Exclusive w) (hd : d ∈ w.db.deliveries.rows)
    (hs : d.status = .inProgress) (he : e ∈ w.db.deliveries.rows)
    (heu : e.status.finished = false) (hbeside : Beside d e) : e.status = .pending ∨ e = d := by
  cases hes : e.status with
  | pending => exact .inl rfl
  | inProgress => exact .inr (hx.pair d hd e he hs hes hbeside.1 hbeside.2.1 hbeside.2.2).symm
  | succeeded | permanentFailure | cancelled =>
    rw [hes] at heu
    cases heu

theorem Ordered.send (h : Ordered w.db w.sent) (hx : Exclusive w) (hd : d ∈ w.db.deliveries.rows)
    (hs : d.status = .inProgress) : Ordered w.db (w.sent ++ [parcelOf d]) := by
  have hdu : d.status.finished = false := by rw [hs]; rfl
  constructor
  case linked => exact h.linked
  case single => exact h.single
  case rows => exact h.rows
  case rowsBounded => exact h.rowsBounded
  case sentBounded =>
    intro p hp
    rcases mem_snoc rfl hp with hp | rfl
    · exact h.sentBounded p hp
    · exact h.rowsBounded d hd
  case ahead =>
    intro p hp e he heu
    rcases mem_snoc rfl hp with hp | rfl
    · exact h.ahead p hp e he heu
    · refine older_of_beside (h.linked d hd hdu) (h.linked e he heu) fun hbeside => ?_
      rcases hx.beside_cases hd hs he heu hbeside with hes | rfl
      · exact h.rows d hd e he hdu hes
      · exact .refl _
  case sorted =>
    refine List.pairwise_append.mpr ⟨h.sorted, List.pairwise_singleton _ _, fun p hp q hq => ?_⟩
    rw [List.mem_singleton] at hq
    rw [hq]
    exact h.ahead p hp d hd hdu

/-! ## What workers do to rows -/

theorem mem_recoverDeliveries_follows (hx : x ∈ (recoverDeliveries db now).deliveries.rows) :
    ∃ d ∈ db.deliveries.rows, Follows (fun _ => True) d x := by
  obtain ⟨d, hd, ⟨rfl, -⟩ | ⟨hs, rfl⟩⟩ := mem_recoverDeliveries hx
  · exact ⟨x, hd, .refl _ x⟩
  · exact ⟨d, hd, rfl, fun _ => rfl, rfl, rfl, rfl, fun _ => .inr ⟨hs, trivial⟩,
      fun _ => by rw [hs]; rfl⟩

theorem claimDelivery_follows (hd : d ∈ db.deliveries.rows)
    (hclaim : claimable db now d.id d = true)
    (hx : x ∈ (claimDelivery db d.id now).deliveries.rows) :
    ∃ e ∈ db.deliveries.rows, Follows (fun _ => False) e x := by
  obtain ⟨-, hdue, -⟩ := claimable_iff.mp hclaim
  rcases (claimDelivery_rows hd hclaim).mp hx with ⟨hx, -⟩ | rfl
  · exact ⟨x, hx, .refl _ x⟩
  · exact ⟨d, hd, rfl, fun _ => rfl, rfl, rfl, rfl, nofun,
      fun _ => by rw [dueAt_pending hdue]; rfl⟩

theorem writeOutcome_follows {o : Outcome} {attempts : Nat}
    (hd : d ∈ db.deliveries.rows) (hs : d.status = .inProgress)
    (hx : x ∈ (writeOutcome db d.id attempts o now).deliveries.rows) :
    ∃ e ∈ db.deliveries.rows, Follows (fun e => e.id = d.id ∧ returns attempts o = true) e x := by
  rcases mem_writeOutcome.mp hx with ⟨hx, -⟩ | ⟨e, he, hid, rfl⟩
  · exact ⟨x, hx, .refl _ x⟩
  · obtain ⟨-, hpayload, hinc, hch, hevent⟩ := finishDelivery_keeps attempts o now e
    have hes : e.status = .inProgress := by rw [Table.eq_of_key_eq he hd hid]; exact hs
    refine ⟨e, he, finishDelivery_id attempts o now e, fun _ => hinc, hch, hevent, hpayload, ?_, ?_⟩
    · exact fun hp => .inr ⟨hes, hid, finishDelivery_pending hp⟩
    · exact fun _ => by rw [hes]; rfl

theorem Evolves.step {m : Move} (hI : Evolves I Free) (hx : Exclusive w) (hen : m.Enabled w)
    (h : I w.db w.sent) (hwrite : ∀ {c db}, m = .write c → c.run w.db = .ok db → I db w.sent)
    (hrestart : ∀ {r env now}, m = .restart r env now → ∀ d ∈ w.db.deliveries.rows,
      d.status = .inProgress → Free w.db d)
    (hsend : ∀ d ∈ w.db.deliveries.rows, d.status = .inProgress →
      I w.db (w.sent ++ [parcelOf d]))
    (hfinish : ∀ {k now}, m = .finish k now → ∀ {o attempts}, ∀ d ∈ w.db.deliveries.rows,
      w.workers k = .counted d.id o attempts → returns attempts o = true →
      d.status = .inProgress → Free w.db d) : I (w.step m).db (w.step m).sent := by
  have hpreserves : Preserves w m I := by
    constructor
    case quiet => exact fun db hq => hI.quiet h hq
    case write => exact fun c db hm hrun => hwrite hm hrun
    case restart =>
      intro r env now db hm hq
      refine hI (fun _ => True) h hq.advances (named_mentioned w) (fun x hx => ?_) ?_
      · exact mem_recoverDeliveries_follows (hq.deliveries ▸ hx)
      · exact fun d hd hs _ => hrestart hm d hd hs
    case claim =>
      intro k now _ d hd hclaim
      exact hI.keep h (.of_subset fun i hi => hi) fun x hx => claimDelivery_follows hd hclaim hx
    case send => exact fun k _ d hd hs => hsend d hd hs
    case finish =>
      intro k now hm o attempts d hd hk _ hs
      refine hI (fun e => e.id = d.id ∧ returns attempts o = true) h
        (.of_subset fun i hi => hi) (named_anyId _ _) (fun x hx => writeOutcome_follows hd hs hx) ?_
      rintro e he hes ⟨hid, hreturns⟩
      exact hfinish hm e he (hid ▸ hk) hreturns hes
  exact hpreserves.step hx hen h

theorem ordered_step {m : Move} (hx : Exclusive w) (hen : m.Enabled w) (horderly : Orderly w m)
    (ho : Ordered w.db w.sent) : Ordered (w.step m).db (w.step m).sent := by
  refine Ordered.evolves.step hx hen ho ?_ ?_ (fun d hd hs => ho.send hx hd hs) ?_
  · rintro c db rfl hrun
    exact Change.ordered hen horderly hrun ho
  · rintro r env now rfl d hd hs e he heu hbeside
    refine (hx.beside_cases hd hs he heu hbeside).resolve_left fun hes => ?_
    exact horderly d hd e he hs hes hbeside
  · rintro k now rfl o attempts d hd hk hreturns hs e he heu hbeside
    refine (hx.beside_cases hd hs he heu hbeside).resolve_left fun hes => ?_
    exact horderly d.id o attempts hk hreturns d hd rfl e he hes hbeside

/-- The versions of one incident that a channel is sent do not decrease, in
every run in which no delivery passes another of its incident and channel. -/
theorem versions_nondecreasing {moves : List Move}
    (h : Along Service.step (fun w m => m.Enabled w ∧ Orderly w m)
      (Service.start Database.empty : Service capacity) moves) :
    (moves.foldl Service.step (Service.start Database.empty : Service capacity)).sent.Pairwise
      fun p q => p.channelId = q.channelId → ∀ told ∈ p.payload.incident,
        ∀ told' ∈ q.payload.incident, told.id = told'.id → told.version ≤ told'.version := by
  refine (along_invariant (I := Ordered) ?_ ?_ h).sorted
  · refine ⟨?_, ?_, ?_, fun i c => ?_, ?_, ?_, List.Pairwise.nil⟩ <;>
      exact fun x hx => absurd hx List.not_mem_nil
  · exact fun w m hx _ hen horderly ho => ordered_step hx hen horderly ho

/-! ## A second alert -/

/-- Worker 0's receiver accepts. -/
def succeedAt (at_ : Int) : List Move :=
  [.respond 0 ⟨false, "", 0⟩, .count 0, .finish 0 (at_ * second), .release 0]

theorem along_succeedAt (w : Service 8) (at_ : Int) :
    Along Service.step Move.Enabled w (succeedAt at_) :=
  ⟨trivial, trivial, trivial, trivial, trivial⟩

def join (at_ : Int) : List Move :=
  [.write (.transact (.fire (some {}) (draws 'y') (memoryHigh at_)))]

def updated : List Move :=
  announce ++ (attemptAt 20 ++ (succeedAt 21 ++ (join 30 ++ attemptAt 50)))

theorem along_updated : Along Service.step Move.Enabled (after []) updated := by
  refine along_announce.append (.append (along_attemptAt _ 20) (.append (along_succeedAt _ 21) ?_))
  exact Along.append ⟨freshFor_draws (by decide +kernel), trivial⟩ (along_attemptAt _ 50)

/-- The channel sees versions 1 and 2, in this order. -/
theorem versions_nondecreasing_updated :
    (after updated).sent.map (fun p => p.payload.incident.map Incident.version)
      = [some 1, some 2] ∧
    (after updated).sent.Pairwise fun p q => p.channelId = q.channelId →
      ∀ told ∈ p.payload.incident, ∀ told' ∈ q.payload.incident, told.id = told'.id →
        told.version ≤ told'.version := by
  have hattempt : ∀ (w : Service 8) (at_ : Int), Along Service.step Orderly w (attemptAt at_) :=
    fun _ _ => ⟨trivial, trivial, trivial, trivial, trivial, trivial, trivial⟩
  -- alerts and answers find nothing pending
  have hfire : ∀ {w : Service 8} {r env o}, (∀ e ∈ w.db.deliveries.rows, e.status ≠ .pending) →
      Orderly w (.write (.transact (.fire r env o))) := by
    intro w r env o hnone
    exact ⟨fun _ _ _ _ d hd _ hs => absurd hs (hnone d hd), by simp, by simp⟩
  have hfinish : ∀ {w : Service 8} {k now}, (∀ e ∈ w.db.deliveries.rows, e.status ≠ .pending) →
      Orderly w (.finish k now) :=
    fun hnone _ _ _ _ _ _ _ _ e he hs => absurd hs (hnone e he)
  have horderly : Along Service.step Orderly (after []) updated := by
    refine .append ⟨⟨?_, ?_, ?_⟩, ⟨?_, ?_, ?_⟩, hfire (by decide +kernel), trivial⟩
      (.append (hattempt _ 20) (.append ?_ (.append ?_ (hattempt _ 50))))
    · exact fun _ _ _ h => h.elim
    · simp
    · simp
    · exact fun _ _ _ h => h.elim
    · simp
    · simp
    · exact ⟨trivial, trivial, hfinish (by decide +kernel), trivial, trivial⟩
    · exact ⟨hfire (by decide +kernel), trivial⟩
  exact ⟨by decide +kernel, versions_nondecreasing (along_updated.and horderly)⟩

/-- The second alert fires while the first message is on its way, and that
attempt fails. -/
def overtaken : List Move :=
  announce ++ (attemptAt 20 ++ (join 22 ++ (failAt 25 ++ (attemptAt 40 ++ (succeedAt 41 ++
    attemptAt 100)))))

/-- The channel sees version 1, then 2, then 1 again. -/
theorem versions_go_back :
    Along Service.step Move.Enabled (after []) overtaken ∧
    (after overtaken).sent.map (fun p => (p.channelId, p.payload.incident.map fun i =>
      (i.id, i.version))) = [("ops", some ("inc_xf", 1)), ("ops", some ("inc_xf", 2)),
        ("ops", some ("inc_xf", 1))] := by
  refine ⟨along_announce.append (.append (along_attemptAt _ 20) (.append ?_ (.append
    (along_failAt _ 25) (.append (along_attemptAt _ 40) (.append (along_succeedAt _ 41)
    (along_attemptAt _ 100)))))), by decide +kernel⟩
  exact ⟨freshFor_draws (by decide +kernel), trivial⟩

end Binnacle.Notifications
