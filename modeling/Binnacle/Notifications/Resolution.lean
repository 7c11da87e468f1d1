import Binnacle.Notifications.Ordering

/-!
# Nothing after the resolution

The resolve transaction cancels the opened and updated deliveries that wait and
queues the resolution. Two kinds of older deliveries escape it: reminders,
which it does not cancel, and attempts in flight, which may return to `pending`
later. Where neither happens (`Conclusive`), the resolution is the last that a
channel hears of an incident.

- `resolution_is_last`: runs of conclusive moves;
- `opened_after_resolved`: an attempt fails after the incident was resolved.
-/

namespace Binnacle.Notifications

open Relational Runs Alerts Storage

variable {capacity : Nat} {eventType : DeliveryEvent} {db db' : Database}
  {incidentID channelID : String} {d : DeliveryRow} {sent : List Parcel} {w : Service capacity}
  {named : String → Prop} {env : Ambient}

/-! ## The invariant -/

def Parcel.about (p : Parcel) : Option String := p.payload.incident.map Incident.id

def ongoing (eventType : DeliveryEvent) : Bool := coalesces eventType || eventType = .reminder

theorem ongoing_ne (h : ongoing eventType = true) : eventType ≠ .resolved := by
  rintro rfl
  cases h

def Over (db : Database) (incidentID : String) : Prop :=
  ∀ i ∈ db.incidents.rows, i.id = incidentID → i.status = .resolved

theorem Over.mono (h : Over db incidentID) (hadv : Advances named db db')
    (hnamed : named incidentID) : Over db' incidentID := by
  intro i' hi' hid
  obtain ⟨i, hi, hii, -, hstatus⟩ := hadv i' hi' (hid ▸ hnamed)
  exact hstatus (h i hi (hii.trans hid))

theorem Stands.not_over (h : Stands eventType incidentID db) (hne : eventType ≠ .resolved) :
    ¬ Over db incidentID := by
  intro hover
  unfold Stands at h
  rw [if_neg hne] at h
  obtain ⟨i, hi, hid, hopen⟩ := h
  rw [hover i hi hid] at hopen
  cases hopen

/-- Resolutions, queued or sent, are of resolved incidents, and no older
delivery of their pair can still be claimed. -/
structure Concluded (db : Database) (sent : List Parcel) : Prop where
  about : ∀ d ∈ db.deliveries.rows, d.status.finished = false → d.incidentId = (parcelOf d).about
  rowsOver : ∀ d ∈ db.deliveries.rows, d.eventType = .resolved →
    ∀ i, (parcelOf d).about = some i → Over db i
  sentOver : ∀ p ∈ sent, p.event = .resolved → ∀ i, p.about = some i → Over db i
  /-- Nothing else is pending beside a resolution that is yet to finish. -/
  barred : ∀ d ∈ db.deliveries.rows, ∀ e ∈ db.deliveries.rows, d.status = .pending →
    ongoing d.eventType = true → e.eventType = .resolved → e.status.finished = false →
    ¬ Beside d e
  /-- Nothing else is unfinished beside a resolution that was sent. -/
  closed : ∀ p ∈ sent, p.event = .resolved → ∀ d ∈ db.deliveries.rows,
    d.status.finished = false → ongoing d.eventType = true → p.about ≠ none →
    p.about = d.incidentId → p.channelId ≠ d.channelId
  last : sent.Pairwise fun p q => p.event = .resolved → ongoing q.event = true → p.about ≠ none →
    p.about = q.about → p.channelId ≠ q.channelId

theorem Named.about {p : Parcel}
    (h : ∀ told ∈ p.payload.incident, named told.id) {i : String} (hi : p.about = some i) :
    named i := by
  obtain ⟨told, htold, rfl⟩ := Option.map_eq_some_iff.mp hi
  exact h told htold

theorem Follows.about {again : DeliveryRow → Prop} {x : DeliveryRow} (h : Follows again d x) :
    (parcelOf x).about = (parcelOf d).about := by
  show x.payload.incident.map Incident.id = d.payload.incident.map Incident.id
  rw [h.payload]

theorem Follows.beside {again again' : DeliveryRow → Prop} {e x y : DeliveryRow}
    (hx : Follows again d x) (hy : Follows again' e y) (hxu : x.status.finished = false)
    (hyu : y.status.finished = false) (h : Beside x y) : Beside d e := by
  unfold Beside at h ⊢
  rwa [hx.incident hxu, hy.incident hyu, hx.channel, hy.channel] at h

def Before (db : Database) (d : DeliveryRow) : Prop :=
  ongoing d.eventType = true → ∀ e ∈ db.deliveries.rows, e.eventType = .resolved →
    e.status.finished = false → ¬ Beside d e

theorem Concluded.evolves : Evolves Concluded Before := by
  intro named db db' sent again h hadv hnamed hrows halone
  constructor
  case about =>
    intro x hx hxu
    obtain ⟨d, hd, hf⟩ := hrows x hx
    rw [hf.incident hxu, h.about d hd (hf.unfinished hxu), hf.about]
  case rowsOver =>
    intro x hx hr i hi
    obtain ⟨d, hd, hf⟩ := hrows x hx
    rw [hf.about] at hi
    exact (h.rowsOver d hd (hf.event.symm.trans hr) i hi).mono hadv
      (Named.about (hnamed.rows d hd) hi)
  case sentOver =>
    intro p hp hr i hi
    exact (h.sentOver p hp hr i hi).mono hadv (Named.about (hnamed.sent p hp) hi)
  case barred =>
    intro x hx y hy hxp hxe hye hyu hbeside
    obtain ⟨d, hd, hfx⟩ := hrows x hx
    obtain ⟨e, he, hfy⟩ := hrows y hy
    have hde : Beside d e := hfx.beside hfy (by rw [hxp]; rfl) hyu hbeside
    have hdon : ongoing d.eventType = true := hfx.event ▸ hxe
    have her : e.eventType = .resolved := hfy.event.symm.trans hye
    rcases hfx.pending hxp with hds | ⟨hds, hda⟩
    · exact h.barred d hd e he hds hdon her (hfy.unfinished hyu) hde
    · exact halone d hd hds hda hdon e he her (hfy.unfinished hyu) hde
  case closed =>
    intro p hp hr x hx hxu hxe hne hinc
    obtain ⟨d, hd, hf⟩ := hrows x hx
    rw [hf.channel]
    exact h.closed p hp hr d hd (hf.unfinished hxu) (hf.event ▸ hxe) hne
      (hinc.trans (hf.incident hxu))
  case last => exact h.last

theorem Concluded.put (h : Concluded db sent) (hincidents : db'.incidents = db.incidents)
    (hrows : ∀ x ∈ db'.deliveries.rows, (x ∈ db.deliveries.rows ∧ x.id ≠ d.id) ∨ x = d)
    (habout : d.incidentId = (parcelOf d).about)
    (hover : d.eventType = .resolved → ∀ i, d.incidentId = some i → Over db i)
    (hbarred : d.eventType = .resolved → ∀ x ∈ db.deliveries.rows, x.id ≠ d.id →
      x.status = .pending → ongoing x.eventType = true → ¬ Beside x d)
    (hopen : ongoing d.eventType = true → ∀ i, d.incidentId = some i → ¬ Over db i) :
    Concluded db' sent := by
  have hsame : ∀ i, Over db i → Over db' i := by
    intro i hi
    unfold Over at hi ⊢
    rwa [hincidents]
  constructor
  case about =>
    intro x hx hxu
    rcases hrows x hx with ⟨hx, -⟩ | rfl
    · exact h.about x hx hxu
    · exact habout
  case rowsOver =>
    intro x hx hr i hi
    rcases hrows x hx with ⟨hx, -⟩ | rfl
    · exact hsame i (h.rowsOver x hx hr i hi)
    · exact hsame i (hover hr i (habout.trans hi))
  case sentOver => exact fun p hp hr i hi => hsame i (h.sentOver p hp hr i hi)
  case barred =>
    intro x hx y hy hxp hxe hye hyu hbeside
    rcases hrows x hx with ⟨hx, hxd⟩ | rfl <;> rcases hrows y hy with ⟨hy, hyd⟩ | rfl
    · exact h.barred x hx y hy hxp hxe hye hyu hbeside
    · exact hbarred hye x hx hxd hxp hxe hbeside
    · -- the incident of an older delivery is open
      obtain ⟨i, hi⟩ := Option.ne_none_iff_exists'.mp hbeside.1
      refine hopen hxe i hi (h.rowsOver y hy hye i ?_)
      rw [← h.about y hy hyu, ← hbeside.2.1, hi]
    · exact ongoing_ne hxe hye
  case closed =>
    intro p hp hr x hx hxu hxe hne hinc
    rcases hrows x hx with ⟨hx, -⟩ | rfl
    · exact h.closed p hp hr x hx hxu hxe hne hinc
    · obtain ⟨i, hi⟩ := Option.ne_none_iff_exists'.mp hne
      exact absurd (h.sentOver p hp hr i hi) (hopen hxe i (hinc ▸ hi))
  case last => exact h.last

/-! ## Edits -/

def Unreminded (incidentID : String) (db : Database) : Prop :=
  ∀ d ∈ db.deliveries.rows, d.incidentId = some incidentID → d.status = .pending →
    d.eventType ≠ .reminder

theorem Edit.unreminded
    (h : Edit env incidentID channelID eventType db db') (hne : eventType ≠ .reminder) {id : String}
    (hun : Unreminded id db) : Unreminded id db' := by
  intro x hx hinc hs
  rcases h.row_cases hx with hx | ⟨d, hd, payload, next, updated, -, -, -, rfl⟩ | hnew |
    ⟨d, hd, now, -, -, rfl⟩
  · exact hun x hx hinc hs
  · exact hun d hd hinc hs
  · rw [hnew.event]
    exact hne
  · cases hs

theorem Describes.about (h : Describes db incidentID d.payload)
    (hinc : d.incidentId = some incidentID) : d.incidentId = (parcelOf d).about := by
  obtain ⟨i, -, -, told, htold, hid, -⟩ := h
  show d.incidentId = d.payload.incident.map Incident.id
  rw [hinc, htold, Option.map_some, hid]

theorem Edit.concluded
    (h : Edit env incidentID channelID eventType db db') (hstands : Stands eventType incidentID db)
    (hun : eventType = .resolved → Unreminded incidentID db) (hc : Concluded db sent) :
    Concluded db' sent := by
  cases h with
  | overwrite d payload next updated hco hd hw hdesc =>
    obtain ⟨hinc, -, -, hdco⟩ := waiting_iff.mp hw
    have hne : eventType ≠ .resolved := by rintro rfl; cases hco
    have hdne : d.eventType ≠ .resolved := by intro he; rw [he] at hdco; cases hdco
    refine hc.put (d := { d with payload, nextAttemptAt := some next, updatedAt := updated })
      rfl (fun x hx => ?_) (Describes.about hdesc hinc) (fun hr => absurd hr hdne)
      (fun hr => absurd hr hdne) fun _ i hi => ?_
    · have hcases := mem_overwriteDelivery hd hx
      exact hcases
    · have hii : incidentID = i := Option.some.inj (hinc.symm.trans hi)
      exact hii ▸ hstands.not_over hne
  | queue d deliveries hnew hfree hrows =>
    refine hc.put (d := d) rfl (fun x hx => mem_queued hfree hrows hx)
      (hnew.describes.about hnew.incident) ?_ ?_ ?_
    · intro hr i hi
      have hii : incidentID = i := Option.some.inj (hnew.incident.symm.trans hi)
      unfold Stands at hstands
      rw [if_pos (hnew.event.symm.trans hr)] at hstands
      exact hii ▸ hstands
    · -- what waits was cancelled, and no reminder is pending
      intro hr x hx _ hs hon hbeside
      have her : eventType = .resolved := hnew.event.symm.trans hr
      have hxinc : x.incidentId = some incidentID := hbeside.2.1.trans hnew.incident
      have hxrem : x.eventType ≠ .reminder := hun her x hx hxinc hs
      have hco : coalesces x.eventType = true := by
        simpa [ongoing, hxrem] using hon
      have hw := waiting_iff.mpr ⟨hxinc, hbeside.2.2.trans hnew.channel, hs, hco⟩
      rw [hnew.alone (by rw [her]; decide) x hx] at hw
      cases hw
    · intro hon i hi
      have hii : incidentID = i := Option.some.inj (hnew.incident.symm.trans hi)
      exact hii ▸ hstands.not_over (hnew.event ▸ ongoing_ne hon)
  | cancel now p => exact Concluded.evolves.cancel hc now p

/-! ## Moves that keep the resolution last -/

/-- A closing resolution finds no reminder pending, an attempt of an older
delivery returns to `pending` only where no resolution is pending beside it.
Cleanups spare the incidents of unfinished deliveries, and nothing is retried by
hand. -/
def Conclusive (w : Service capacity) : Move → Prop
  | .write c =>
    (∀ env id, c.Touches w env .resolved id → ∀ d ∈ w.db.deliveries.rows,
      d.incidentId = some id → d.status = .pending → d.eventType ≠ .reminder) ∧
    (∀ now, c = .transact (.cleanupIncidents now) → SparesUnfinished w.db now) ∧
    ∀ id now, c ≠ .retry id now
  | .restart _ _ _ => ∀ d ∈ w.db.deliveries.rows, d.status = .inProgress →
      ongoing d.eventType = true → ∀ e ∈ w.db.deliveries.rows, e.eventType = .resolved →
      e.status = .pending → ¬ Beside d e
  | .finish k _ => ∀ id o attempts, w.workers k = .counted id o attempts →
      returns attempts o = true → ∀ d ∈ w.db.deliveries.rows, d.id = id →
      ongoing d.eventType = true → ∀ e ∈ w.db.deliveries.rows, e.eventType = .resolved →
      e.status = .pending → ¬ Beside d e
  | _ => True

theorem Change.Touches.resolved {c : Change} {env' : Ambient} {id id' : String}
    (h : c.Touches w env .resolved id) (h' : c.Touches w env' eventType id') :
    eventType = .resolved := by
  unfold Change.Touches at h h'
  split at h
  · cases h.2.1
  · exact h'.2.1
  · cases h.2.1
  · exact h.elim

theorem Change.concluded {c : Change} (hen : c.Enabled w) (hcon : Conclusive w (.write c))
    (hrun : c.run w.db = .ok db) (hc : Concluded w.db w.sent) : Concluded db w.sent := by
  obtain ⟨hun, hspared, hretry⟩ := hcon
  refine Concluded.evolves.change (C := fun db => ∀ env id, c.Touches w env .resolved id →
    Unreminded id db) hen hrun hc hspared hretry ?_ ?_ ?_ ?_ ?_
  · exact fun hne env id htouches => absurd htouches (hne env _ id)
  · exact fun hq env id htouches d hd => hun env id htouches d (hq.deliveries ▸ hd)
  · exact fun hs hclear env id htouches d hd => hclear env id htouches d (hs.deliveries ▸ hd)
  · intro env e id htouches channelID a b hstands hedit ha hclear
    refine ⟨hedit.concluded hstands ?_ ha, fun env' id' h' => ?_⟩
    · rintro rfl
      exact hclear env id htouches
    · refine hedit.unreminded ?_ (hclear env' id' h')
      rw [h'.resolved htouches]
      decide
  · exact fun hincidents hrows => hc.put hincidents hrows rfl nofun nofun nofun

theorem Concluded.send (h : Concluded w.db w.sent) (hx : Exclusive w)
    (hd : d ∈ w.db.deliveries.rows) (hs : d.status = .inProgress) :
    Concluded w.db (w.sent ++ [parcelOf d]) := by
  have hdu : d.status.finished = false := by rw [hs]; rfl
  constructor
  case about => exact h.about
  case barred => exact h.barred
  case rowsOver => exact h.rowsOver
  case sentOver =>
    intro p hp hr i hi
    rcases mem_snoc rfl hp with hp | rfl
    · exact h.sentOver p hp hr i hi
    · exact h.rowsOver d hd hr i hi
  case closed =>
    intro p hp hr e he heu hon hne hinc hch
    rcases mem_snoc rfl hp with hp | rfl
    · exact h.closed p hp hr e he heu hon hne hinc hch
    · have hbeside : Beside e d := by
        rw [← h.about d hd hdu] at hne hinc
        exact ⟨hinc ▸ hne, hinc.symm, hch.symm⟩
      rcases hx.beside_cases hd hs he heu hbeside.symm with hes | rfl
      · exact h.barred e he d hd hes hon hr hdu hbeside
      · exact ongoing_ne hon hr
  case last =>
    refine List.pairwise_append.mpr ⟨h.last, List.pairwise_singleton _ _, fun p hp q hq => ?_⟩
    rw [List.mem_singleton] at hq
    subst hq
    intro hr hon hne hinc
    exact h.closed p hp hr d hd hdu hon hne (hinc.trans (h.about d hd hdu).symm)

/-- An older row in progress beside which no resolution is pending. -/
theorem Exclusive.not_beside (hx : Exclusive w) {e : DeliveryRow} (hd : d ∈ w.db.deliveries.rows)
    (hs : d.status = .inProgress) (hon : ongoing d.eventType = true) (he : e ∈ w.db.deliveries.rows)
    (hr : e.eventType = .resolved) (heu : e.status.finished = false)
    (hnot : e.status = .pending → ¬ Beside d e) : ¬ Beside d e := by
  intro hbeside
  rcases hx.beside_cases hd hs he heu hbeside with hes | rfl
  · exact hnot hes hbeside
  · exact ongoing_ne hon hr

theorem concluded_step {m : Move} (hx : Exclusive w) (hen : m.Enabled w) (hcon : Conclusive w m)
    (hc : Concluded w.db w.sent) : Concluded (w.step m).db (w.step m).sent := by
  refine Concluded.evolves.step hx hen hc ?_ ?_ (fun d hd hs => hc.send hx hd hs) ?_
  · rintro c db rfl hrun
    exact Change.concluded hen hcon hrun hc
  · rintro r env now rfl d hd hs hon e he hr heu
    exact hx.not_beside hd hs hon he hr heu (hcon d hd hs hon e he hr)
  · rintro k now rfl o attempts d hd hk hreturns hs hon e he hr heu
    exact hx.not_beside hd hs hon he hr heu
      (hcon d.id o attempts hk hreturns d hd rfl hon e he hr)

/-- Once the resolution of an incident was sent to a channel, nothing older of
the incident is sent there, in every run of conclusive moves. -/
theorem resolution_is_last {moves : List Move}
    (h : Along Service.step (fun w m => m.Enabled w ∧ Conclusive w m)
      (Service.start Database.empty : Service capacity) moves) :
    (moves.foldl Service.step (Service.start Database.empty : Service capacity)).sent.Pairwise
      fun p q => p.event = .resolved →
        q.event = .opened ∨ q.event = .updated ∨ q.event = .reminder →
        p.channelId = q.channelId → ∀ told ∈ p.payload.incident, ∀ told' ∈ q.payload.incident,
          told.id ≠ told'.id := by
  have hlast := (along_invariant (I := Concluded) ?_ ?_ h).last
  · refine hlast.imp fun {p q} hpq hr hon hch told htold told' htold' hid => ?_
    have hp : p.about = some told.id := by rw [Parcel.about, Option.mem_def.mp htold]; rfl
    have hq : q.about = some told'.id := by rw [Parcel.about, Option.mem_def.mp htold']; rfl
    refine hpq hr ?_ (by rw [hp]; exact Option.some_ne_none _) (by rw [hp, hq, hid]) hch
    rcases hon with hon | hon | hon <;> rw [hon] <;> rfl
  · refine ⟨?_, ?_, ?_, ?_, ?_, List.Pairwise.nil⟩ <;>
      exact fun x hx => absurd hx List.not_mem_nil
  · exact fun w m hx _ hen hcon hc => concluded_step hx hen hcon hc

/-! ## The alert recovers -/

/-- The CPU alert, the only one of its incident, is resolved. The history before
is deleted first: the event of an alert has the id of the alert, so the event
that it triggered would bar the one that resolves it. -/
def resolveAt (w : Service 8) (at_ : Int) : List Move :=
  [.write (.elsewhere { w.db with events := .empty }),
   .write (.transact (.resolve (draws 'z') { cpuHigh at_ with
     value := 10, failing := false, recovered := true }))]

def delivered : List Move := announce ++ (attemptAt 20 ++ succeedAt 21)

theorem along_delivered : Along Service.step Move.Enabled (after []) delivered :=
  along_announce.append (.append (along_attemptAt _ 20) (along_succeedAt _ 21))

def resolvedLast : List Move := delivered ++ (resolveAt (after delivered) 30 ++ attemptAt 40)

theorem along_resolvedLast : Along Service.step Move.Enabled (after []) resolvedLast := by
  refine along_delivered.append
    (.append ⟨⟨rfl, rfl, rfl, rfl, rfl⟩, ?_, trivial⟩ (along_attemptAt _ 40))
  exact freshFor_draws (by decide +kernel)

/-- The channel hears of the incident, then of its end. -/
theorem resolution_is_last_resolved :
    (after resolvedLast).sent.map Parcel.event = [.opened, .resolved] ∧
    (after resolvedLast).sent.Pairwise fun p q => p.event = .resolved →
      q.event = .opened ∨ q.event = .updated ∨ q.event = .reminder →
      p.channelId = q.channelId → ∀ told ∈ p.payload.incident, ∀ told' ∈ q.payload.incident,
        told.id ≠ told'.id := by
  have hattempt : ∀ (w : Service 8) (at_ : Int), Along Service.step Conclusive w (attemptAt at_) :=
    fun _ _ => ⟨trivial, trivial, trivial, trivial, trivial, trivial, trivial⟩
  -- writes and answers find nothing pending
  have hwrite : ∀ {w : Service 8} {c}, (∀ e ∈ w.db.deliveries.rows, e.status ≠ .pending) →
      (∀ now, c ≠ .transact (.cleanupIncidents now)) → (∀ id now, c ≠ .retry id now) →
      Conclusive w (.write c) := by
    intro w c hnone hcleanup hretry
    exact ⟨fun _ _ _ d hd _ hs => absurd hs (hnone d hd), fun now h => absurd h (hcleanup now),
      hretry⟩
  have hfinish : ∀ {w : Service 8} {k now}, (∀ e ∈ w.db.deliveries.rows, e.status ≠ .pending) →
      Conclusive w (.finish k now) :=
    fun hnone _ _ _ _ _ _ _ _ _ e he _ hs => absurd hs (hnone e he)
  have hcon : Along Service.step Conclusive (after []) resolvedLast := by
    refine .append (.append ⟨?_, ?_, ?_, trivial⟩ (.append (hattempt _ 20)
      ⟨trivial, trivial, ?_, trivial, trivial⟩)) (.append ⟨?_, ?_, trivial⟩ (hattempt _ 40))
    · exact hwrite (by decide +kernel) (by simp) (by simp)
    · exact hwrite (by decide +kernel) (by simp) (by simp)
    · exact hwrite (by decide +kernel) (by simp) (by simp)
    · exact hfinish (by decide +kernel)
    · exact hwrite (by decide +kernel) (by simp) (by simp)
    · exact hwrite (by decide +kernel) (by simp) (by simp)
  exact ⟨by decide +kernel, resolution_is_last (along_resolvedLast.and hcon)⟩

def sending : List Move := announce ++ attemptAt 20

/-- The alert is resolved while its announcement is on the way, and that attempt
fails. -/
def revived : List Move :=
  sending ++ (resolveAt (after sending) 22 ++ (failAt 25 ++ (attemptAt 40 ++ (succeedAt 41 ++
    attemptAt 100))))

/-- The channel hears that the incident is over, and then that it opened. -/
theorem opened_after_resolved :
    Along Service.step Move.Enabled (after []) revived ∧
    (after revived).sent.map (fun p => (p.channelId, p.event, p.payload.incident.map Incident.id))
      = [("ops", .opened, some "inc_xf"), ("ops", .resolved, some "inc_xf"),
        ("ops", .opened, some "inc_xf")] := by
  have hsending : Along Service.step Move.Enabled (after []) sending :=
    along_announce.append (along_attemptAt _ 20)
  refine ⟨hsending.append (.append ⟨⟨rfl, rfl, rfl, rfl, rfl⟩, ?_, trivial⟩ (.append
    (along_failAt _ 25) (.append (along_attemptAt _ 40) (.append (along_succeedAt _ 41)
    (along_attemptAt _ 100))))), by decide +kernel⟩
  exact freshFor_draws (by decide +kernel)

end Binnacle.Notifications
