import Binnacle.Notifications.Farewell

/-!
# Transient incidents

An incident that resolves before an attempt of one of its deliveries started should not be
heard of at all. `enqueueResolutionTx` sees to it channel by channel, for the channels that
want resolutions, and cancels what is `opened` or `updated`. A channel that does not want
resolutions keeps its pending announcement, and every channel keeps its pending reminders.

- `Untold`: nothing about the incident was sent, and its deliveries are as they were queued or
  cancelled; once it is over, none is pending;
- `transient_incident_silent_iff`: when nothing of the incident is left and nothing is ever sent.
-/

namespace Binnacle.Notifications

open Relational Runs Alerts Storage

variable {capacity : Nat} {w : Service capacity} {db : Database} {incidentID id : String}
  {env : Ambient} {c : Change} {m : Move} {d : DeliveryRow} {eventType : DeliveryEvent}
  {alive : Prop}

/-! ## The structure of incidents in a service -/

theorem Change.structured (hen : c.Enabled w) (hrun : c.run w.db = .ok db)
    (h : Structured w.db) : Structured db := by
  cases c with
  | transact t => exact t.structured h hrun
  | elsewhere db' =>
    cases hrun
    exact h.congr hen.1 hen.2.2.1 hen.2.1
  | createChannel id enabled minimumSeverity notifyResolved =>
    have hframe := createChannel_ok hrun
    exact h.congr (by rw [hframe]) (by rw [hframe]) (by rw [hframe])
  | patchChannel id enabled minimumSeverity notifyResolved now =>
    obtain ⟨channels, ⟨-, rfl⟩ | ⟨-, rfl⟩⟩ := patchChannel_ok hrun <;> exact h.congr rfl rfl rfl
  | deleteChannel id now =>
    obtain ⟨channels, rfl⟩ := deleteChannel_ok hrun
    exact h.congr rfl rfl rfl
  | test env channelID now =>
    obtain ⟨-, -, -, hframe⟩ := insertDelivery_ok (test_ok hrun)
    rw [hframe]
    exact h.congr rfl rfl rfl
  | retry id now =>
    rw [retry_ok hrun]
    exact h.congr rfl rfl rfl

theorem structured_step (hen : m.Enabled w) (h : Structured w.db) :
    Structured (w.step m).db := by
  cases w.steps m with
  | quiet _ _ hdb =>
    rw [hdb]
    exact h.congr rfl rfl rfl
  | write c db hm hrun heq =>
    subst hm
    rw [heq]
    exact Change.structured hen hrun h
  | restart r env now _ heq =>
    have hrecovered : Structured (recoverDeliveries w.db now) := h.congr rfl rfl rfl
    rw [heq]
    unfold Service.restart Service.attempt
    split
    · next db hrun => exact Transaction.structured (.reconcile r env now) hrecovered hrun
    · exact hrecovered
  | turn k a b _ _ hdb _ _ =>
    rw [hdb]
    exact h
  | claim k now d _ _ _ heq =>
    rw [heq]
    exact h.congr rfl rfl rfl
  | send k p _ _ heq =>
    rw [heq]
    exact h
  | finish k now id o attempts _ _ heq =>
    rw [heq]
    exact h.congr rfl rfl rfl

/-! ## Nothing is told -/

def Move.Starts (incidentID : String) (w : Service capacity) : Move → Prop
  | .claim k now => ∃ d ∈ w.db.deliveries.rows, w.workers k = .taken d.id ∧
      claimable w.db now d.id d = true ∧ (parcelOf d).about = some incidentID
  | _ => False

/-- Nothing about the incident was sent. Its deliveries wait as they were queued, as long as it
is `alive`, or are cancelled. While it is open, they are its own and speak of it as open. -/
structure Untold (alive : Prop) (incidentID : String) (db : Database) (sent : List Parcel) :
    Prop where
  rows : ∀ d ∈ db.deliveries.rows, (parcelOf d).about = some incidentID →
    d.status = .cancelled ∨ alive ∧ d.status = .pending ∧ d.attemptCount = 0
  linked : ∀ d ∈ db.deliveries.rows, (parcelOf d).about = some incidentID →
    Over db incidentID ∨ d.incidentId = some incidentID ∧ ongoing d.eventType = true
  ended : ¬ alive → Over db incidentID
  sent : ∀ p ∈ sent, p.about ≠ some incidentID

def Unrenewed (incidentID : String) (db db' : Database) : Prop :=
  ∀ i' ∈ db'.incidents.rows, i'.id = incidentID → ∃ i ∈ db.incidents.rows, i.id = incidentID

section Untold

variable {alive : Prop} {incidentID : String} {db db' : Database} {sent : List Parcel}

theorem Untold.evolve (h : Untold alive incidentID db sent)
    (hover : ¬ alive ∨ (∃ d ∈ db.deliveries.rows, (parcelOf d).about = some incidentID) →
      Over db incidentID → Over db' incidentID)
    (hrows : ∀ x ∈ db'.deliveries.rows, (parcelOf x).about = some incidentID →
      ∃ d ∈ db.deliveries.rows, (parcelOf d).about = some incidentID ∧
        x.eventType = d.eventType ∧
        (x.incidentId = d.incidentId ∨ Over db' incidentID) ∧
        (x.status = .cancelled ∨ x.status = d.status ∧ x.attemptCount = d.attemptCount)) :
    Untold alive incidentID db' sent := by
  refine ⟨fun x hx habout => ?_, fun x hx habout => ?_, fun hdead => ?_, h.sent⟩
  · obtain ⟨d, hd, hdabout, -, -, hcancelled | ⟨hstatus, hattempts⟩⟩ := hrows x hx habout
    · exact .inl hcancelled
    · rw [hstatus, hattempts]
      exact h.rows d hd hdabout
  · obtain ⟨d, hd, hdabout, hevent, hincident | hover', -⟩ := hrows x hx habout
    · rw [hincident, hevent]
      exact (h.linked d hd hdabout).imp_left (hover (.inr ⟨d, hd, hdabout⟩))
    · exact .inl hover'
  · exact hover (.inl hdead) (h.ended hdead)

/-- Statements that change no delivery about the incident, except to cancel it. -/
theorem Untold.keep (h : Untold alive incidentID db sent)
    (hincidents : ∀ i ∈ db'.incidents.rows, i ∈ db.incidents.rows)
    (hrows : ∀ x ∈ db'.deliveries.rows, (parcelOf x).about = some incidentID →
      x ∈ db.deliveries.rows ∨ ∃ d ∈ db.deliveries.rows, ∃ now, x = cancelDelivery now d) :
    Untold alive incidentID db' sent := by
  refine h.evolve (fun _ hover i hi => hover i (hincidents i hi)) fun x hx habout => ?_
  rcases hrows x hx habout with hx | ⟨d, hd, now, rfl⟩
  · exact ⟨x, hx, habout, rfl, .inl rfl, .inr ⟨rfl, rfl⟩⟩
  · exact ⟨d, hd, habout, rfl, .inl rfl, .inl rfl⟩

theorem Untold.not_about (h : Untold alive incidentID db sent)
    (hd : d ∈ db.deliveries.rows) (hcancelled : d.status ≠ .cancelled)
    (hpending : d.status ≠ .pending) : (parcelOf d).about ≠ some incidentID := by
  intro habout
  rcases h.rows d hd habout with hs | ⟨-, hs, -⟩
  · exact hcancelled hs
  · exact hpending hs

theorem Consistent.about (hc : Consistent db) (hd : d ∈ db.deliveries.rows)
    {i : String} (hi : d.incidentId = some i) : (parcelOf d).about = some i := by
  obtain ⟨told, htold, rfl⟩ := hc.addressed d hd i hi
  show d.payload.incident.map Incident.id = some told.id
  rw [htold]
  rfl

theorem Edit.untold {env : Ambient} {channelID : String}
    (h : Edit env id channelID eventType db db') (hstands : Stands eventType id db)
    (hevent : eventType = .resolved ∨ ongoing eventType = true)
    (hdead : ¬ alive → eventType = .resolved → id ≠ incidentID) (hc : Consistent db)
    (hu : Untold alive incidentID db sent) : Untold alive incidentID db' sent := by
  have hframe := h.frame
  have hsame : ∀ {i}, Over db i → Over db' i := by
    intro i hover
    rw [hframe]
    exact hover
  -- what an edit says is about its incident
  have hdescribes : ∀ {p : Payload}, Describes db id p → p.incident.map Incident.id = some id := by
    rintro p ⟨i, -, -, told, htold, hid, -⟩
    rw [htold, Option.map_some, hid]
  have hopen : eventType ≠ .resolved → ¬ Over db id := hstands.not_over
  have hold : ∀ x ∈ db'.deliveries.rows, (parcelOf x).about = some incidentID →
      (x.status = .cancelled ∨ alive ∧ x.status = .pending ∧ x.attemptCount = 0) ∧
        (Over db incidentID ∨ x.incidentId = some incidentID ∧ ongoing x.eventType = true) := by
    intro x hx habout
    rcases h.row_cases hx with hx | ⟨d, hd, payload, next, updated, hw, hco, hdesc, rfl⟩ | hnew |
      ⟨d, hd, now, hw, -, rfl⟩
    · exact ⟨hu.rows x hx habout, hu.linked x hx habout⟩
    · have hid : id = incidentID := Option.some.inj ((hdescribes hdesc).symm.trans habout)
      obtain ⟨hinc, -, -, -⟩ := waiting_iff.mp hw
      have hdabout := hc.about hd (hid ▸ hinc)
      exact ⟨hu.rows d hd hdabout, hu.linked d hd hdabout⟩
    · have hid : id = incidentID :=
        Option.some.inj ((hdescribes hnew.describes).symm.trans habout)
      refine ⟨.inr ⟨?_, hnew.pending, hnew.attempts⟩, ?_⟩
      · by_contra hno
        by_cases hres : eventType = .resolved
        · exact hdead hno hres hid
        · exact hopen hres (hid ▸ hu.ended hno)
      · rw [hnew.incident, hnew.event, hid]
        rcases hevent with hres | hon
        · unfold Stands at hstands
          rw [if_pos hres] at hstands
          exact .inl (hid ▸ hstands)
        · exact .inr ⟨rfl, hon⟩
    · exact ⟨.inl rfl, hu.linked d hd habout⟩
  exact ⟨fun x hx habout => (hold x hx habout).1,
    fun x hx habout => (hold x hx habout).2.imp_left hsame,
    fun hno => hsame (hu.ended hno), hu.sent⟩

/-- Incidents move on: what is over stays so, since the id is known. -/
theorem Untold.quiet {w : Service capacity} (h : Untold alive incidentID db sent)
    (hq : Quiet w db db')
    (hmentioned : (∃ d ∈ db.deliveries.rows, (parcelOf d).about = some incidentID) →
      incidentID ∈ w.mentioned)
    (hkept : ¬ alive → Unrenewed incidentID db db') : Untold alive incidentID db' sent := by
  refine h.evolve (fun hknown hover => ?_) fun x hx habout => ?_
  · rcases hknown with hdead | hrow
    · intro i' hi' hid
      obtain ⟨i, hi, hii⟩ := hkept hdead i' hi' hid
      obtain ⟨j, hj, hjid, -, hstatus⟩ := hq.kept.incident i hi
      rw [Table.eq_of_key_eq hi' hj (hid.trans (hjid.trans hii).symm)]
      exact hstatus (hover i hi hii)
    · exact hover.mono hq.advances (hmentioned hrow)
  · exact ⟨x, hq.deliveries ▸ hx, habout, rfl, .inl rfl, .inr ⟨rfl, rfl⟩⟩

end Untold

/-! ## Moves -/

theorem mentioned_of_about (hd : d ∈ w.db.deliveries.rows)
    (h : (parcelOf d).about = some incidentID) : incidentID ∈ w.mentioned :=
  Named.about ((named_mentioned w).rows d hd) h

theorem Change.Touches.event
    (h : c.Touches w env eventType id) : eventType = .resolved ∨ ongoing eventType = true := by
  unfold Change.Touches at h
  split at h
  · exact .inr (by rw [ongoing, h.2.1, Bool.true_or])
  · exact .inl h.2.1
  · rw [h.2.1]
    exact .inr rfl
  · exact h.elim

theorem Change.Touches.not_over (h : c.Touches w env .resolved id)
    (hs : Structured w.db) : ¬ Over w.db id := by
  unfold Change.Touches at h
  split at h
  · cases h.2.1
  · obtain ⟨-, -, a, ha, ⟨m, hm, hal, rfl⟩, -⟩ := h
    have hmem := (List.perm_insertionSort _ _).mem_iff.mp (List.mem_of_mem_head? ha)
    obtain ⟨ha, hfiring⟩ := List.mem_filter.mp hmem
    rw [Bool.and_eq_true, decide_eq_true_eq, decide_eq_true_eq] at hfiring
    obtain ⟨i, hi, hid⟩ := hs.incident m hm
    have hopen : i.status = .opened := hs.openFor i hi
      (List.ne_nil_of_mem (mem_firingMembers.mpr ⟨ha, hfiring.2, m, hm, hid.symm, hal⟩))
    intro hover
    rw [hover i hi hid] at hopen
    cases hopen
  · cases h.2.1
  · exact h.elim

theorem Change.untold (hen : c.Enabled w) (hrun : c.run w.db = .ok db)
    (hc : Consistent w.db) (hs : Structured w.db) (hkept : ¬ alive → Unrenewed incidentID w.db db)
    (hu : Untold alive incidentID w.db w.sent) : Untold alive incidentID db w.sent := by
  have hcs := hc.survives c
  have hmentioned : (∃ d ∈ w.db.deliveries.rows, (parcelOf d).about = some incidentID) →
      incidentID ∈ w.mentioned := fun ⟨d, hd, habout⟩ => mentioned_of_about hd habout
  have hsurvives : Survives w c fun db => Consistent db ∧
      ((¬ alive → Unrenewed incidentID w.db db) → Untold alive incidentID db w.sent) := by
    constructor
    case quiet => exact fun db hq => ⟨hcs.quiet db hq, fun hkept => hu.quiet hq hmentioned hkept⟩
    case still =>
      rintro a b hstill ⟨hca, hua⟩
      refine ⟨hcs.still a b hstill hca, fun hkept => ?_⟩
      have hkepta : ¬ alive → Unrenewed incidentID w.db a := by
        intro hdead i hi hid
        obtain ⟨f, hrows, hf⟩ := hstill.incidents
        exact hkept hdead (f i) (hrows ▸ List.mem_map_of_mem hi) ((hf i).1.trans hid)
      refine (hua hkepta).evolve (fun _ hover => hover.mono hstill.advances trivial) ?_
      intro x hx habout
      exact ⟨x, hstill.deliveries ▸ hx, habout, rfl, .inl rfl, .inr ⟨rfl, rfl⟩⟩
    case edit =>
      rintro env eventType id htouches channelID a b hstands hedit ⟨hca, hua⟩
      refine ⟨hedit.consistent hca, fun hkept => ?_⟩
      have hkepta : ¬ alive → Unrenewed incidentID w.db a := by
        intro hdead i hi hid
        have hi' : i ∈ b.incidents.rows := by
          rw [hedit.frame]
          exact hi
        exact hkept hdead i hi' hid
      refine hedit.untold hstands htouches.event ?_ hca (hua hkepta)
      rintro hdead rfl rfl
      exact htouches.not_over hs (hu.ended hdead)
    case expire =>
      rintro now rfl
      refine ⟨hcs.expire now rfl, fun _ => hu.keep (fun i hi => hi) fun x hx _ => .inl ?_⟩
      exact (Table.mem_delete.mp hx).1
    case forget =>
      rintro now rfl
      refine ⟨hcs.forget now rfl, fun _ => hu.evolve ?_ fun x hx habout => ?_⟩
      · exact fun _ hover i hi => hover i (Table.mem_delete.mp hi).1
      · obtain ⟨d, hd, rfl | ⟨⟨i, hi, hforgets⟩, rfl⟩⟩ := mem_cleanupIncidents hx
        · exact ⟨x, hd, habout, rfl, .inl rfl, .inr ⟨rfl, rfl⟩⟩
        · have hid : i = incidentID :=
            Option.some.inj ((hc.about hd hi).symm.trans habout)
          refine ⟨d, hd, habout, rfl, .inr ?_, .inr ⟨rfl, rfl⟩⟩
          exact hid ▸ forgets_over hforgets
    case cancel =>
      intro id now db hcancels hq
      refine ⟨hcs.cancel id now db hcancels hq, fun hkept => ?_⟩
      refine (hu.quiet hq hmentioned hkept).keep (fun i hi => hi) fun x hx _ => ?_
      obtain ⟨d, hd, rfl | ⟨-, -, rfl⟩⟩ := mem_cancelPending hx
      · exact .inl hd
      · exact .inr ⟨d, hd, now, rfl⟩
    case test =>
      rintro env channelID now deliveries hcase hkey hrows
      refine ⟨hcs.test env channelID now deliveries hcase hkey hrows, fun _ => ?_⟩
      refine hu.keep (fun i hi => hi) fun x hx habout => .inl ?_
      refine (mem_snoc hrows hx).resolve_right fun htest => ?_
      rw [htest] at habout
      cases habout
    case retry =>
      intro id now db' hcase hretry
      refine ⟨hcs.retry id now db' hcase hretry, fun _ => ?_⟩
      have hincidents : db'.incidents = w.db.incidents := by rw [retry_ok hretry]
      refine hu.keep (fun i hi => hincidents ▸ hi) fun x hx habout => .inl ?_
      obtain ⟨d, hd, rfl | ⟨hfailed, rfl⟩⟩ := mem_retry hretry hx
      · exact hd
      · have hnot : (parcelOf d).about ≠ some incidentID :=
          hu.not_about hd (by rw [hfailed]; decide) (by rw [hfailed]; decide)
        exact absurd habout hnot
  exact (hsurvives.keeps hen hrun).2 hkept

theorem Untold.claim {k : Nat} {now : Time} (hu : Untold alive incidentID w.db w.sent)
    (hidle : alive → ¬ (Move.claim k now).Starts incidentID w) :
    Untold alive incidentID (w.claim k now).db (w.claim k now).sent := by
  cases hk : w.workers k with
  | taken id =>
    rcases claim_cases now hk with ⟨d, hd, hclaim, heq⟩ | heq
    · rw [heq]
      obtain ⟨rfl, hdue, -⟩ := claimable_iff.mp hclaim
      have hnot : (parcelOf d).about ≠ some incidentID := by
        intro habout
        rcases hu.rows d hd habout with hs | ⟨halive, -⟩
        · rw [dueAt_pending hdue] at hs
          cases hs
        · exact hidle halive ⟨d, hd, hk, hclaim, habout⟩
      refine hu.keep (fun i hi => hi) fun x hx habout => .inl ?_
      rcases (claimDelivery_rows hd hclaim).mp hx with ⟨hx, -⟩ | rfl
      · exact hx
      · exact absurd habout hnot
    · rw [heq]
      exact hu
  | _ =>
    unfold Service.claim
    rw [hk]
    exact hu

theorem untold_step (hx : Exclusive w) (hc : Consistent w.db)
    (hs : Structured w.db) (hen : m.Enabled w) (hidle : alive → ¬ m.Starts incidentID w)
    (hkept : ¬ alive → Unrenewed incidentID w.db (w.step m).db)
    (hu : Untold alive incidentID w.db w.sent) :
    Untold alive incidentID (w.step m).db (w.step m).sent := by
  by_cases hclaim : ∃ k now, m = .claim k now
  · obtain ⟨k, now, rfl⟩ := hclaim
    exact hu.claim hidle
  have hactive : ∀ {d}, d ∈ w.db.deliveries.rows → d.status = .inProgress →
      (parcelOf d).about ≠ some incidentID := by
    intro d hd hs
    exact hu.not_about hd (by rw [hs]; decide) (by rw [hs]; decide)
  have hpreserves : Preserves w m fun db sent =>
      (¬ alive → Unrenewed incidentID w.db db) → Untold alive incidentID db sent := by
    constructor
    case quiet =>
      exact fun db hq => hu.quiet hq fun ⟨d, hd, habout⟩ => mentioned_of_about hd habout
    case write =>
      rintro c db rfl hrun hkept
      exact Change.untold hen hrun hc hs hkept hu
    case restart =>
      intro r env now db _ hq hkept
      -- no attempt about the incident is in progress
      have hrecovered : ∀ x ∈ (recoverDeliveries w.db now).deliveries.rows,
          (parcelOf x).about = some incidentID → x ∈ w.db.deliveries.rows := by
        intro x hx habout
        obtain ⟨d, hd, ⟨rfl, -⟩ | ⟨hs, rfl⟩⟩ := mem_recoverDeliveries hx
        · exact hd
        · have hnot : (parcelOf d).about ≠ some incidentID := hactive hd hs
          exact absurd habout hnot
      have hrecover : Untold alive incidentID (recoverDeliveries w.db now) w.sent :=
        hu.keep (fun i hi => hi) fun x hx habout => .inl (hrecovered x hx habout)
      exact hrecover.quiet hq (fun ⟨d, hd, habout⟩ =>
        mentioned_of_about (hrecovered d hd habout) habout) hkept
    case claim => exact fun k now hm => absurd ⟨k, now, hm⟩ hclaim
    case send =>
      intro k _ d hd hs _
      refine ⟨hu.rows, hu.linked, hu.ended, fun p hp => ?_⟩
      rcases mem_snoc rfl hp with hp | rfl
      · exact hu.sent p hp
      · exact hactive hd hs
    case finish =>
      intro k now _ o attempts d hd _ _ hs _
      refine hu.keep (fun i hi => hi) fun x hx habout => .inl ?_
      rcases mem_writeOutcome.mp hx with ⟨hx, -⟩ | ⟨e, he, hid, rfl⟩
      · exact hx
      · rw [Table.eq_of_key_eq he hd hid] at habout
        obtain ⟨-, hpayload, -⟩ := finishDelivery_keeps attempts o now d
        have hsame : (parcelOf (finishDelivery attempts o now d)).about = (parcelOf d).about :=
          congrArg (fun p : Payload => p.incident.map Incident.id) hpayload
        exact absurd (hsame.symm.trans habout) (hactive hd hs)
  exact hpreserves.step hx hen (fun _ => hu) hkept

/-- All that holds in a service in which the incident is untold. -/
structure Mute (alive : Prop) (incidentID : String) (w : Service capacity) : Prop where
  exclusive : Exclusive w
  consistent : Consistent w.db
  structured : Structured w.db
  untold : Untold alive incidentID w.db w.sent

theorem Mute.step (h : Mute alive incidentID w) (hen : m.Enabled w)
    (hidle : alive → ¬ m.Starts incidentID w)
    (hkept : ¬ alive → Unrenewed incidentID w.db (w.step m).db) :
    Mute alive incidentID (w.step m) :=
  ⟨h.exclusive.step hen, consistent_step h.exclusive hen h.consistent,
    structured_step hen h.structured,
    untold_step h.exclusive h.consistent h.structured hen hidle hkept h.untold⟩

theorem mute_of_idle {moves : List Move}
    (h : Along Service.step (fun w m => m.Enabled w ∧ ¬ m.Starts incidentID w)
      (Service.start Database.empty : Service capacity) moves) :
    Mute True incidentID
      (moves.foldl Service.step (Service.start Database.empty : Service capacity)) := by
  refine h.invariant (I := Mute True incidentID) ?_ ⟨?_, ?_, structured_of_empty rfl rfl, ?_⟩
  · rintro w m hw ⟨hen, hidle⟩
    exact hw.step hen (fun _ => hidle) fun hdead => absurd trivial hdead
  · exact exclusive_start _ fun d hd => absurd hd List.not_mem_nil
  · exact ⟨List.nodup_nil, fun d hd => absurd hd List.not_mem_nil⟩
  · exact ⟨fun d hd => absurd hd List.not_mem_nil, fun d hd => absurd hd List.not_mem_nil,
      fun hdead => absurd trivial hdead, fun p hp => absurd hp List.not_mem_nil⟩

/-! ## The resolution -/

def Untraced (incidentID : String) (db : Database) : Prop :=
  ∀ d ∈ db.deliveries.rows, d.incidentId = some incidentID → traced d = false

theorem Untraced.attempted (h : Untraced incidentID db) (channelID : String) :
    attempted db incidentID channelID = 0 := by
  unfold Notifications.attempted
  rw [List.length_eq_zero_iff, List.filter_eq_nil_iff]
  intro d hd
  by_cases hinc : d.incidentId = some incidentID
  · have hnot := h d hd hinc
    simp only [traced, Bool.and_eq_false_iff] at hnot
    simp only [Bool.and_eq_true, not_and, Bool.not_eq_true]
    rintro ⟨-, hstatus⟩
    exact hnot.resolve_left (by rw [hstatus]; decide)
  · simp [hinc]

theorem Untraced.cancel (h : Untraced incidentID db) (now : Time) (p : DeliveryRow → Bool) :
    Untraced incidentID (cancelDeliveries db now p) := by
  intro x hx hinc
  rcases (Table.mem_update (by intro i; rfl)).mp hx with ⟨hx, -⟩ | ⟨d, hd, -, rfl⟩
  · exact h x hx hinc
  · rfl

theorem cancelDeliveries_twice (db : Database) (now : Time) (p q : DeliveryRow → Bool)
    (hq : ∀ d, q (cancelDelivery now d) = false) :
    cancelDeliveries (cancelDeliveries db now p) now q =
      cancelDeliveries db now fun d => p d || q d := by
  have htable : ((db.deliveries.update p (cancelDelivery now) fun _ => rfl).update q
      (cancelDelivery now) fun _ => rfl) =
      db.deliveries.update (fun d => p d || q d) (cancelDelivery now) fun _ => rfl := by
    refine Table.ext_rows ?_
    simp only [Table.update, List.map_map]
    refine List.map_congr_left fun d _ => ?_
    by_cases hp : p d = true
    · simp [hp, hq]
    · simp [hp]
  exact congrArg (fun deliveries => { db with deliveries }) htable

def cancelledBy (incidentID : String) (targets : List ChannelRow) (d : DeliveryRow) : Bool :=
  targets.any fun ch => waiting incidentID ch.id d && d.attemptCount = 0

def calledOff (env : Ambient) (db : Database) (incidentID : String) (d : DeliveryRow) : Bool :=
  cancelledBy incidentID ((activeChannels env db).filter fun ch => ch.notifyResolved) d

theorem resolveLoop_untraced {draw : Nat} {now : Time} (targets : List ChannelRow) :
    ∀ {k : Nat} {db : Database}, Untraced incidentID db →
      (targets.zipIdx k).foldlM (fun db ch =>
        resolveForChannel env incidentID now db ch.1 (draw + 2 * ch.2)) db =
      .ok (cancelDeliveries db now (cancelledBy incidentID targets)) := by
  induction targets with
  | nil =>
    intro k db _
    have hnone : cancelDeliveries db now (cancelledBy incidentID []) = db := by
      have htable : db.deliveries.update (cancelledBy incidentID []) (cancelDelivery now)
          (fun _ => rfl) = db.deliveries := by
        refine Table.ext_rows ?_
        simp [Table.update, cancelledBy]
      exact congrArg (fun deliveries => { db with deliveries }) htable
    rw [hnone]
    rfl
  | cons ch targets ih =>
    intro k db h
    have hturn : resolveForChannel env incidentID now db ch (draw + 2 * k) =
        .ok (cancelDeliveries db now fun d =>
          waiting incidentID ch.id d && d.attemptCount = 0) := by
      unfold resolveForChannel
      rw [if_pos (h.attempted ch.id)]
    rw [List.zipIdx_cons]
    refine foldlM_cons_ok.mpr ⟨_, hturn, ?_⟩
    rw [ih (h.cancel now _), cancelDeliveries_twice]
    · rfl
    · intro d
      simp [cancelledBy, waiting, cancelDelivery]

/-- `enqueueResolutionTx` where nothing was attempted: it queues nothing, and cancels what
waits on a channel that wants resolutions. -/
theorem enqueueResolutionTx_untraced {draw : Nat} (now : Time) (h : Untraced incidentID db) :
    enqueueResolutionTx env draw db incidentID now =
      .ok (cancelDeliveries db now (calledOff env db incidentID)) :=
  resolveLoop_untraced _ h

/-! ## Transient incidents -/

structure Hushed (incidentID : String) (db db' : Database) : Prop where
  pending : ∀ d ∈ db'.deliveries.rows, d.incidentId = some incidentID →
    d.eventType = .opened ∨ d.eventType = .updated ∨ d.eventType = .reminder →
    d.status ≠ .pending
  unannounced : ∀ d ∈ db'.deliveries.rows, d.incidentId = some incidentID →
    d.eventType = .resolved → d ∈ db.deliveries.rows

/-- Whatever happens from here on, nothing about the incident is sent. No other incident gets
its id. -/
def NeverTold (incidentID : String) (w : Service capacity) : Prop :=
  ∀ moves, Along Service.step (fun w m => m.Enabled w ∧ Unrenewed incidentID w.db (w.step m).db)
    w moves → ∀ p ∈ (moves.foldl Service.step w).sent, p.about ≠ some incidentID

/-- What is pending of the incident is no reminder, and waits on channels that want
resolutions. -/
def Withdrawable (incidentID : String) (db : Database) : Prop :=
  ∀ d ∈ db.deliveries.rows, d.incidentId = some incidentID → d.status = .pending →
    coalesces d.eventType = true ∧ ∃ ch ∈ db.channels.rows, ch.id = d.channelId ∧
      ch.enabled = true ∧ ch.deletedAt = none ∧ ch.notifyResolved = true

theorem Mute.neverTold (h : Mute False incidentID w) : NeverTold incidentID w := by
  intro moves halong
  refine (halong.invariant (I := Mute False incidentID) ?_ h).untold.sent
  rintro w m hw ⟨hen, hkept⟩
  exact hw.step hen False.elim fun _ => hkept

theorem ongoing_iff : ongoing eventType = true ↔
    eventType = .opened ∨ eventType = .updated ∨ eventType = .reminder := by
  cases eventType <;> decide

theorem calledOff_iff :
    calledOff env db incidentID d = true ↔
      (d.incidentId = some incidentID ∧ d.status = .pending ∧ coalesces d.eventType = true ∧
        d.attemptCount = 0) ∧
      ∃ ch ∈ db.channels.rows, ch.id = d.channelId ∧ ch.enabled = true ∧ ch.deletedAt = none ∧
        ch.notifyResolved = true := by
  simp only [calledOff, cancelledBy, List.any_eq_true, List.mem_filter, mem_activeChannels,
    Bool.and_eq_true,
    waiting_iff, decide_eq_true_eq]
  constructor
  · rintro ⟨ch, ⟨⟨hch, hon, hlisted⟩, hnotify⟩, ⟨hinc, hto, hs, hco⟩, hattempts⟩
    exact ⟨⟨hinc, hs, hco, hattempts⟩, ch, hch, hto.symm, hon, hlisted, hnotify⟩
  · rintro ⟨⟨hinc, hs, hco, hattempts⟩, ch, hch, hto, hon, hlisted, hnotify⟩
    exact ⟨ch, ⟨⟨hch, hon, hlisted⟩, hnotify⟩, ⟨hinc, hto.symm, hs, hco⟩, hattempts⟩

theorem Untold.own {sent : List Parcel} (h : Untold True incidentID db sent) {inc : IncidentRow}
    (hinc : inc ∈ db.incidents.rows) (hid : inc.id = incidentID) (hopen : inc.status = .opened)
    (hd : d ∈ db.deliveries.rows) (habout : (parcelOf d).about = some incidentID) :
    d.incidentId = some incidentID ∧ ongoing d.eventType = true := by
  refine (h.linked d hd habout).resolve_left fun hover => ?_
  rw [hover inc hinc hid] at hopen
  cases hopen

/-- The transaction that resolves an untold incident cancels what waits on the channels that
want resolutions, and touches no other delivery. -/
theorem Mute.resolved (h : Mute True incidentID w) {o : Observation} {db' : Database}
    (hrun : recordResolved (some {}) env o w.db = .ok db') {inc inc' : IncidentRow}
    (hinc : inc ∈ w.db.incidents.rows) (hid : inc.id = incidentID) (hopen : inc.status = .opened)
    (hinc' : inc' ∈ db'.incidents.rows) (hid' : inc'.id = incidentID)
    (hres : inc'.status = .resolved) :
    Over db' incidentID ∧ db'.deliveries =
      (cancelDeliveries w.db o.now (calledOff env w.db incidentID)).deliveries := by
  refine ⟨fun i hi hii => ?_, ?_⟩
  · rw [Table.eq_of_key_eq hi hinc' (hii.trans hid'.symm)]
    exact hres
  rcases recordResolved_steps hrun with rfl | ⟨a, db₁, events, -, h₁, rfl⟩
  · rw [Table.eq_of_key_eq hinc' hinc (hid'.trans hid.symm), hopen] at hres
    cases hres
  · have henqueue := alertResolvedTx_closes h₁ hinc hopen hinc' (hid'.trans hid.symm) hres
    rw [hid] at henqueue
    have huntraced : Untraced incidentID (closeIncident
        (leaveIncident (resolveAlert w.db a.id o.now) a.id o.now) incidentID o.now) := by
      intro d hd hinc
      rcases h.untold.rows d hd (h.consistent.about hd hinc) with hs | ⟨-, hs, hattempts⟩
      · simp [traced, hs]
      · simp [traced, hs, hattempts]
    rw [enqueueResolutionTx_untraced o.now huntraced] at henqueue
    cases henqueue
    rfl

/-- An incident that resolves before an attempt of one of its deliveries started leaves nothing
pending, and is never heard of, exactly if all that is pending of it are `opened` and `updated`
deliveries on channels that want resolutions. -/
theorem transient_incident_silent_iff {incidentID : String} {moves : List Move}
    (h : Along Service.step (fun w m => m.Enabled w ∧ ¬ m.Starts incidentID w)
      (Service.start Database.empty : Service capacity) moves)
    {w : Service capacity}
    (hw : moves.foldl Service.step (Service.start Database.empty : Service capacity) = w)
    {env : Ambient} {o : Observation} (hfresh : FreshFor env w) {db' : Database}
    (hrun : recordResolved (some {}) env o w.db = .ok db') {inc inc' : IncidentRow}
    (hinc : inc ∈ w.db.incidents.rows) (hid : inc.id = incidentID) (hopen : inc.status = .opened)
    (hinc' : inc' ∈ db'.incidents.rows) (hid' : inc'.id = incidentID)
    (hres : inc'.status = .resolved) :
    Hushed incidentID w.db db' ∧
        NeverTold incidentID (w.step (.write (.transact (.resolve env o)))) ↔
      Withdrawable incidentID w.db := by
  have hmute : Mute True incidentID w := hw ▸ mute_of_idle h
  obtain ⟨hover, hdeliveries⟩ := hmute.resolved hrun hinc hid hopen hinc' hid' hres
  -- a row after the transaction
  have hrow : ∀ x, x ∈ db'.deliveries.rows ↔
      (x ∈ w.db.deliveries.rows ∧ calledOff env w.db incidentID x = false) ∨
      ∃ d ∈ w.db.deliveries.rows, calledOff env w.db incidentID d = true ∧
        x = cancelDelivery o.now d := by
    intro x
    rw [hdeliveries]
    exact Table.mem_update (by intro i; rfl)
  have hown : ∀ {d}, d ∈ w.db.deliveries.rows → (parcelOf d).about = some incidentID →
      d.incidentId = some incidentID ∧ ongoing d.eventType = true :=
    fun hd habout => hmute.untold.own hinc hid hopen hd habout
  constructor
  · rintro ⟨hhushed, -⟩ d hd hdinc hs
    have hcancelled : calledOff env w.db incidentID d = true := by
      by_contra hnot
      have hleft := (hrow d).mpr (.inl ⟨hd, Bool.eq_false_of_not_eq_true hnot⟩)
      have hon := (hown hd (hmute.consistent.about hd hdinc)).2
      exact hhushed.pending d hleft hdinc (ongoing_iff.mp hon) hs
    obtain ⟨⟨-, -, hco, -⟩, hch⟩ := calledOff_iff.mp hcancelled
    exact ⟨hco, hch⟩
  · intro hwithdrawable
    -- what the transaction leaves of the incident is not pending
    have hleft : ∀ d ∈ w.db.deliveries.rows, d.incidentId = some incidentID →
        calledOff env w.db incidentID d = false → d.status = .cancelled := by
      intro d hd hdinc hnot
      rcases hmute.untold.rows d hd (hmute.consistent.about hd hdinc) with hs | ⟨-, hs, hattempts⟩
      · exact hs
      · obtain ⟨hco, hch⟩ := hwithdrawable d hd hdinc hs
        rw [calledOff_iff.mpr ⟨⟨hdinc, hs, hco, hattempts⟩, hch⟩] at hnot
        cases hnot
    refine ⟨⟨fun x hx hxinc _ hs => ?_, fun x hx hxinc hxres => ?_⟩, Mute.neverTold ?_⟩
    · rcases (hrow x).mp hx with ⟨hx, hnot⟩ | ⟨d, -, -, rfl⟩
      · rw [hleft x hx hxinc hnot] at hs
        cases hs
      · cases hs
    · rcases (hrow x).mp hx with ⟨hx, -⟩ | ⟨d, -, hcancelled, rfl⟩
      · exact hx
      · obtain ⟨⟨-, -, hco, -⟩, -⟩ := calledOff_iff.mp hcancelled
        rw [show d.eventType = .resolved from hxres] at hco
        cases hco
    · have hen : (Move.write (.transact (.resolve env o))).Enabled w := hfresh
      have hstep : w.step (.write (.transact (.resolve env o))) = { w with db := db' } := by
        show w.attempt (recordResolved (some {}) env o w.db) = _
        rw [hrun]
        rfl
      have hafter := hmute.step hen (fun _ h => h) fun hdead => absurd trivial hdead
      refine ⟨hafter.exclusive, hafter.consistent, hafter.structured, ?_⟩
      rw [hstep]
      refine ⟨fun x hx habout => .inl ?_, fun _ _ _ => .inl hover, fun _ => hover,
        hmute.untold.sent⟩
      rcases (hrow x).mp hx with ⟨hx, hnot⟩ | ⟨d, -, -, rfl⟩
      · exact hleft x hx (hown hx habout).1 hnot
      · rfl

/-- The CPU alert, announced to a channel that wants resolutions but not yet due, without the
events of the past. -/
def beforeBlip : List Move :=
  announce ++ [.write (.elsewhere { (after announce).db with events := .empty })]

/-- The alert is resolved after ten seconds, and its channel hears nothing of it. -/
theorem transient_incident_silent_iff_blip :
    ∃ db', recordResolved (some {}) (draws 'z') (cpuNormal 10) (after beforeBlip).db = .ok db' ∧
      (db'.deliveries.rows.map fun d => (d.eventType, d.status)) = [(.opened, .cancelled)] ∧
      Hushed "inc_xf" (after beforeBlip).db db' ∧ NeverTold "inc_xf"
        ((after beforeBlip).step (.write (.transact (.resolve (draws 'z') (cpuNormal 10))))) := by
  have hidle : Along Service.step (fun w m => m.Enabled w ∧ ¬ m.Starts "inc_xf" w) (after [])
      beforeBlip :=
    ⟨⟨⟨rfl, rfl, rfl, rfl, rfl⟩, id⟩, ⟨trivial, id⟩, ⟨freshFor_draws (by decide +kernel), id⟩,
      ⟨⟨rfl, rfl, rfl, rfl, rfl⟩, id⟩, trivial⟩
  have hinc : (after beforeBlip).db.incidents.rows.any
      (fun i => i.id = "inc_xf" && i.status = .opened) = true := by decide +kernel
  have hend : (recordResolved (some {}) (draws 'z') (cpuNormal 10)
      (after beforeBlip).db).toOption.any (fun db =>
        decide ((db.deliveries.rows.map fun d => (d.eventType, d.status)) =
          [(.opened, .cancelled)]) &&
        db.incidents.rows.any fun i => i.id = "inc_xf" && i.status = .resolved) = true := by
    decide +kernel
  have hwithdrawable : Withdrawable "inc_xf" (after beforeBlip).db := by
    unfold Withdrawable
    decide +kernel
  simp only [List.any_eq_true, Bool.and_eq_true, decide_eq_true_eq] at hinc
  obtain ⟨inc, hinc, hid, hopen⟩ := hinc
  cases hrun : recordResolved (some {}) (draws 'z') (cpuNormal 10) (after beforeBlip).db with
  | error e =>
    rw [hrun] at hend
    cases hend
  | ok db' =>
    rw [hrun] at hend
    simp only [Except.toOption, Option.any_some, List.any_eq_true, Bool.and_eq_true,
      decide_eq_true_eq] at hend
    obtain ⟨hrows, inc', hinc', hid', hres⟩ := hend
    exact ⟨db', rfl, hrows, (transient_incident_silent_iff hidle rfl
      (freshFor_draws (by decide +kernel)) hrun hinc hid hopen hinc' hid' hres).mpr hwithdrawable⟩

/-! ## A channel without resolutions -/

def announceOnly : List Move :=
  [.write (.elsewhere hostRules), .write (.createChannel "ops" true .warning false),
   .write (.transact (.fire (some {}) (draws 'x') (cpuHigh 0)))]

def blip : List Move := announceOnly ++ resolveAt (after announceOnly) 10

/-- The announcement is still pending, and the channel hears ten seconds after the end that the
incident opened. -/
theorem transient_incident_announced :
    Along Service.step (fun w m => m.Enabled w ∧ ¬ m.Starts "inc_xf" w) (after []) blip ∧
    (after announceOnly).db.incidents.rows.map (fun i => (i.id, i.status))
      = [("inc_xf", .opened)] ∧
    (after blip).db.incidents.rows.map (fun i => (i.id, i.status)) = [("inc_xf", .resolved)] ∧
    (after blip).db.deliveries.rows.map (fun d => (d.eventType, d.status))
      = [(.opened, .pending)] ∧
    Along Service.step Move.Enabled (after blip) (attemptAt 20) ∧
    (after (blip ++ attemptAt 20)).sent.map (fun p => (p.event, p.about))
      = [(.opened, some "inc_xf")] := by
  refine ⟨⟨⟨⟨rfl, rfl, rfl, rfl, rfl⟩, id⟩, ⟨trivial, id⟩, ⟨freshFor_draws (by decide +kernel), id⟩,
    ⟨⟨rfl, rfl, rfl, rfl, rfl⟩, id⟩, ⟨freshFor_draws (by decide +kernel), id⟩, trivial⟩,
    by decide +kernel, by decide +kernel, by decide +kernel, along_attemptAt _ 20,
    by decide +kernel⟩

end Binnacle.Notifications
