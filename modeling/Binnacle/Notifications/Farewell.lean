import Binnacle.Notifications.Resolution

/-!
# Whoever was told hears of the end

A resolution goes to the channels with an attempted delivery of the incident,
and what counts as attempted is read off the rows: `attempt_count`, or a status
that only an attempt can leave. That trace is lost when a crash returns a first
attempt to `pending`, when `Retry` clears the counter, when disabling the
channel cancels a delivery that waits for its retry, and when a cleanup deletes
the row. As long as one trace is left of every announcement
(`Remembers`), the resolution is queued.

- `told_hears_the_end`: runs that keep the traces;
- `told_never_hears`: a crash between the request and its answer.
-/

namespace Binnacle.Notifications

open Relational Runs Alerts Storage

variable {capacity draw : Nat} {db db' : Database} {incidentID channelID : String} {d : DeliveryRow}
  {sent : List Parcel} {named : String → Prop} {env : Ambient} {w : Service capacity} {now : Time}
  {m : Move} {ch : ChannelRow}

/-! ## Traces -/

/-- `status!='cancelled' AND (attempt_count>0 OR status IN (…))`. -/
def traced (d : DeliveryRow) : Bool :=
  d.status ≠ .cancelled && (d.attemptCount > 0
    || d.status = .inProgress || d.status = .succeeded || d.status = .permanentFailure)

structure Trace (incidentID channelID : String) (d : DeliveryRow) : Prop where
  incident : d.incidentId = some incidentID
  channel : d.channelId = channelID
  traced : traced d = true

theorem attempted_ne_zero (hd : d ∈ db.deliveries.rows) (h : Trace incidentID channelID d) :
    attempted db incidentID channelID ≠ 0 := by
  unfold attempted
  rw [← Nat.pos_iff_ne_zero, List.length_pos_iff_exists_mem]
  refine ⟨d, List.mem_filter.mpr ⟨hd, ?_⟩⟩
  have htraced := h.traced
  unfold Notifications.traced at htraced
  rw [Bool.and_eq_true] at htraced
  simp only [h.incident, h.channel, decide_true, Bool.true_and, htraced.1, htraced.2]

/-- What was told of an open incident left a trace, and rows of open incidents
belong to them. -/
structure Traced (db : Database) (sent : List Parcel) : Prop where
  linked : ∀ d ∈ db.deliveries.rows, ∀ i ∈ db.incidents.rows, i.status = .opened →
    (parcelOf d).about = some i.id → d.incidentId = some i.id
  told : ∀ p ∈ sent, ongoing p.event = true → ∀ i ∈ db.incidents.rows, i.status = .opened →
    p.about = some i.id → ∃ d ∈ db.deliveries.rows, Trace i.id p.channelId d

/-- The row after `x` keeps the message and the incident, unless that is over. -/
def Stays (db' : Database) (d x : DeliveryRow) : Prop :=
  x.payload = d.payload ∧
    (x.incidentId = d.incidentId ∨ ∃ i, d.incidentId = some i ∧ Over db' i)

theorem Traced.evolve (h : Traced db sent) (hadv : Advances named db db')
    (hnamed : Named named db sent)
    (hrows : ∀ x ∈ db'.deliveries.rows, ∃ d ∈ db.deliveries.rows, Stays db' d x)
    (htraces : ∀ p ∈ sent, ongoing p.event = true → ∀ i ∈ db.incidents.rows,
      i.status = .opened → p.about = some i.id →
      (∃ x ∈ db'.deliveries.rows, Trace i.id p.channelId x) ∨ Over db' i.id) : Traced db' sent := by
  have hback : ∀ {i'}, i' ∈ db'.incidents.rows → i'.status = .opened → named i'.id →
      ∃ i ∈ db.incidents.rows, i.id = i'.id ∧ i.status = .opened := by
    intro i' hi' hopen hid
    obtain ⟨i, hi, hii, -, hstatus⟩ := hadv i' hi' hid
    refine ⟨i, hi, hii, ?_⟩
    cases hs : i.status with
    | opened => rfl
    | resolved =>
      rw [hstatus hs] at hopen
      cases hopen
  constructor
  · intro x hx i' hi' hopen habout
    obtain ⟨d, hd, hpayload, hinc⟩ := hrows x hx
    have hdabout : (parcelOf d).about = some i'.id := by
      rw [← habout]
      show d.payload.incident.map Incident.id = x.payload.incident.map Incident.id
      rw [hpayload]
    obtain ⟨i, hi, hii, hiopen⟩ := hback hi' hopen (Named.about (hnamed.rows d hd) hdabout)
    have hdinc : d.incidentId = some i'.id := by
      rw [← hii] at hdabout ⊢
      exact h.linked d hd i hi hiopen hdabout
    rcases hinc with hinc | ⟨j, hj, hover⟩
    · exact hinc.trans hdinc
    · -- an incident that is over is not the open one
      rw [hdinc, Option.some.injEq] at hj
      rw [hover i' hi' hj] at hopen
      cases hopen
  · intro p hp hon i' hi' hopen habout
    obtain ⟨i, hi, hii, hiopen⟩ := hback hi' hopen (Named.about (hnamed.sent p hp) habout)
    rw [← hii] at habout ⊢
    refine (htraces p hp hon i hi hiopen habout).resolve_right fun hover => ?_
    rw [hover i' hi' hii.symm] at hopen
    cases hopen

theorem Traced.keep (h : Traced db sent) (hadv : Advances named db db')
    (hnamed : Named named db sent)
    (hrows : ∀ x ∈ db'.deliveries.rows, ∃ d ∈ db.deliveries.rows, Stays db' d x)
    (hkeep : ∀ d ∈ db.deliveries.rows, traced d = true → ∀ i, d.incidentId = some i →
      (∃ x ∈ db'.deliveries.rows, x.incidentId = d.incidentId ∧ x.channelId = d.channelId ∧
        traced x = true) ∨ Over db' i) : Traced db' sent := by
  refine h.evolve hadv hnamed hrows fun p hp hon i hi hopen habout => ?_
  obtain ⟨d, hd, htrace⟩ := h.told p hp hon i hi hopen habout
  refine (hkeep d hd htrace.traced i.id htrace.incident).imp_left ?_
  rintro ⟨x, hx, hinc, hch, htraced⟩
  exact ⟨x, hx, hinc.trans htrace.incident, hch.trans htrace.channel, htraced⟩

theorem Traced.same (h : Traced db sent) (hadv : Advances named db db')
    (hnamed : Named named db sent) (hsame : db'.deliveries = db.deliveries) : Traced db' sent := by
  refine h.keep hadv hnamed (fun x hx => ⟨x, hsame ▸ hx, rfl, .inl rfl⟩) fun d hd ht i _ => ?_
  exact .inl ⟨d, hsame ▸ hd, rfl, rfl, ht⟩

theorem Traced.insert (h : Traced db sent) {deliveries : Table DeliveryRow.id}
    (hrows : deliveries.rows = db.deliveries.rows ++ [d])
    (habout : d.incidentId = (parcelOf d).about) : Traced { db with deliveries } sent := by
  constructor
  · intro x hx i hi hopen hx'
    rcases mem_snoc hrows hx with hx | rfl
    · exact h.linked x hx i hi hopen hx'
    · exact habout.trans hx'
  · intro p hp hon i hi hopen hp'
    obtain ⟨x, hx, htrace⟩ := h.told p hp hon i hi hopen hp'
    refine ⟨x, ?_, htrace⟩
    show x ∈ deliveries.rows
    rw [hrows]
    exact List.mem_append_left _ hx

/-! ## Edits -/

theorem Edit.traced {eventType : DeliveryEvent} (h : Edit env incidentID channelID eventType db db')
    (hstands : Stands eventType incidentID db) (ht : Traced db sent) : Traced db' sent := by
  cases h with
  | overwrite d payload next updated _ hd hw hdesc =>
    obtain ⟨hinc, -⟩ := waiting_iff.mp hw
    constructor
    · intro x hx i hi hopen hx'
      rcases mem_overwriteDelivery hd hx with ⟨hx, -⟩ | rfl
      · exact ht.linked x hx i hi hopen hx'
      · have habout := Describes.about (d := { d with payload }) hdesc hinc
        exact habout.trans hx'
    · intro p hp hon i hi hopen hp'
      obtain ⟨x, hx, htrace⟩ := ht.told p hp hon i hi hopen hp'
      refine ⟨_, List.mem_map_of_mem hx, ?_⟩
      split
      · exact ⟨htrace.incident, htrace.channel, htrace.traced⟩
      · exact htrace
  | queue d deliveries hnew _ hrows =>
    exact ht.insert hrows (hnew.describes.about hnew.incident)
  | cancel now p hres hp =>
    unfold Stands at hstands
    rw [if_pos hres] at hstands
    refine ht.keep (.of_subset fun i hi => hi) (named_anyId _ _) ?_ ?_
    · intro x hx
      rcases (Table.mem_update (by intro i; rfl)).mp hx with ⟨hx, -⟩ | ⟨d, hd, -, rfl⟩
      · exact ⟨x, hx, rfl, .inl rfl⟩
      · exact ⟨d, hd, rfl, .inl rfl⟩
    · -- only deliveries of the resolved incident are cancelled
      intro d hd htraced i hi
      cases hpd : p d with
      | true =>
        have hii := Option.some.inj (hi.symm.trans (waiting_iff.mp (hp d hpd)).1)
        exact .inr (hii ▸ hstands)
      | false =>
        refine .inl ⟨d, (Table.mem_update (by intro i; rfl)).mpr (.inl ⟨hd, hpd⟩), rfl, rfl,
          htraced⟩

/-! ## Moves that leave a trace -/

/-- The move leaves the trace of an attempt alone: a restart finds it counted,
`Retry` does not reset it, a channel that is disabled does not cancel it, and no
cleanup deletes it. -/
def Move.Leaves (d : DeliveryRow) : Move → Prop
  | .restart _ _ _ => d.status = .inProgress → 0 < d.attemptCount
  | .write c =>
    (∀ id now, c = .retry id now → failedForGood id d = false) ∧
    (∀ id now, c.cancels = some (id, now) → d.status = .pending → d.channelId ≠ id) ∧
    ∀ now, c = .transact (.cleanupDeliveries now) → expired now d = false
  | _ => True

/-- Where a channel was told of an incident that is open, one of its traces is
left. -/
def Remembers (w : Service capacity) (m : Move) : Prop :=
  ∀ p ∈ w.sent, ongoing p.event = true → ∀ i ∈ w.db.incidents.rows, i.status = .opened →
    p.about = some i.id → (∃ d ∈ w.db.deliveries.rows, Trace i.id p.channelId d) →
    ∃ d ∈ w.db.deliveries.rows, Trace i.id p.channelId d ∧ m.Leaves d

theorem remembers_of_leaves (h : ∀ d ∈ w.db.deliveries.rows, m.Leaves d) :
    Remembers w m := by
  rintro p - - i - - - ⟨d, hd, htrace⟩
  exact ⟨d, hd, htrace, h d hd⟩

theorem Traced.leave (h : Traced w.db w.sent) (hrem : Remembers w m)
    (hadv : Advances named w.db db) (hnamed : Named named w.db w.sent)
    (hrows : ∀ x ∈ db.deliveries.rows, ∃ d ∈ w.db.deliveries.rows, Stays db d x)
    (hleft : ∀ d ∈ w.db.deliveries.rows, m.Leaves d → traced d = true →
      ∃ x ∈ db.deliveries.rows, x.incidentId = d.incidentId ∧ x.channelId = d.channelId ∧
        traced x = true) : Traced db w.sent := by
  refine h.evolve hadv hnamed hrows fun p hp hon i hi hopen habout => .inl ?_
  obtain ⟨d, hd, htrace, hleaves⟩ :=
    hrem p hp hon i hi hopen habout (h.told p hp hon i hi hopen habout)
  obtain ⟨x, hx, hinc, hch, htraced⟩ := hleft d hd hleaves htrace.traced
  exact ⟨x, hx, hinc.trans htrace.incident, hch.trans htrace.channel, htraced⟩

theorem forgets_over {id : String} (h : forgets db now id = true) :
    Over (cleanupIncidents db now) id := by
  obtain ⟨i, hi, hboth⟩ := List.any_eq_true.mp h
  rw [Bool.and_eq_true, decide_eq_true_eq] at hboth
  intro j hj hid
  obtain ⟨hj, hkept⟩ := Table.mem_delete.mp hj
  rw [Table.eq_of_key_eq hj hi (hid.trans hboth.2.symm), hboth.1] at hkept
  cases hkept

theorem Change.traced {c : Change} (hen : c.Enabled w) (hrem : Remembers w (.write c))
    (hrun : c.run w.db = .ok db) (ht : Traced w.db w.sent) : Traced db w.sent := by
  have hsurvives : Survives w c fun db => Traced db w.sent := by
    constructor
    case quiet => exact fun db hq => ht.same hq.advances (named_mentioned w) hq.deliveries
    case still => exact fun a b hs ha => ha.same hs.advances (named_anyId _ _) hs.deliveries
    case edit => exact fun _ _ _ _ _ a b hstands hedit ha => hedit.traced hstands ha
    case expire =>
      rintro now rfl
      refine ht.leave hrem (.of_subset fun i hi => hi) (named_anyId _ _) ?_ ?_
      · exact fun x hx => ⟨x, (Table.mem_delete.mp hx).1, rfl, .inl rfl⟩
      · intro d hd hleaves htraced
        refine ⟨d, Table.mem_delete.mpr ⟨hd, ?_⟩, rfl, rfl, htraced⟩
        exact hleaves.2.2 now rfl
    case forget =>
      rintro now rfl
      refine ht.keep (.of_subset fun i hi => (Table.mem_delete.mp hi).1) (named_anyId _ _) ?_ ?_
      · intro x hx
        obtain ⟨d, hd, rfl | ⟨⟨i, hi, hforgets⟩, rfl⟩⟩ := mem_cleanupIncidents hx
        · exact ⟨x, hd, rfl, .inl rfl⟩
        · exact ⟨d, hd, rfl, .inr ⟨i, hi, forgets_over hforgets⟩⟩
      · intro d hd htraced i hi
        cases hforgets : forgets w.db now i with
        | true => exact .inr (forgets_over hforgets)
        | false =>
          refine .inl ⟨d, (Table.mem_update (by intro i; rfl)).mpr (.inl ⟨hd, ?_⟩), rfl, rfl,
            htraced⟩
          rw [hi]
          exact hforgets
    case cancel =>
      intro id now db hcancel hq
      have hadv : Advances (fun id => id ∈ w.mentioned) w.db (cancelPending db id now) :=
        hq.advances
      refine ht.leave hrem hadv (named_mentioned w) ?_ ?_
      · intro x hx
        obtain ⟨d, hd, rfl | ⟨-, -, rfl⟩⟩ := mem_cancelPending hx
        · exact ⟨x, hq.deliveries ▸ hd, rfl, .inl rfl⟩
        · exact ⟨d, hq.deliveries ▸ hd, rfl, .inl rfl⟩
      · intro d hd hleaves htraced
        refine ⟨d, (Table.mem_update (by intro i; rfl)).mpr (.inl ⟨hq.deliveries ▸ hd, ?_⟩), rfl,
          rfl, htraced⟩
        rw [Bool.and_eq_false_iff, decide_eq_false_iff_not, decide_eq_false_iff_not,
          ← not_and_or]
        exact fun ⟨hch, hs⟩ => hleaves.2.1 id now hcancel hs hch
    case test =>
      rintro env channelID now deliveries rfl - hrows
      exact ht.insert hrows rfl
    case retry =>
      intro id now db hc hretry
      have hdb := retry_ok hretry
      refine ht.leave hrem (.of_subset fun i hi => ?_) (named_anyId _ _) ?_ ?_
      · rw [hdb] at hi
        exact hi
      · intro x hx
        obtain ⟨d, hd, rfl | ⟨-, rfl⟩⟩ := mem_retry hretry hx
        · exact ⟨x, hd, rfl, .inl rfl⟩
        · exact ⟨d, hd, rfl, .inl rfl⟩
      · intro d hd hleaves htraced
        rw [hdb]
        exact ⟨d, (Table.mem_update (by intro i; rfl)).mpr (.inl ⟨hd, hleaves.1 id now hc⟩), rfl,
          rfl, htraced⟩
  exact hsurvives.keeps hen hrun

theorem traced_finishDelivery {attempts : Nat} (hpos : 0 < attempts) (o : Outcome) (now : Time)
    (d : DeliveryRow) : traced (finishDelivery attempts o now d) = true := by
  unfold finishDelivery
  split
  · simp [traced, hpos]
  · split <;> simp [traced, hpos]

theorem Traced.send (h : Traced db sent) (hd : d ∈ db.deliveries.rows)
    (hs : d.status = .inProgress) :
    Traced db (sent ++ [parcelOf d]) := by
  refine ⟨h.linked, fun p hp hon i hi hopen habout => ?_⟩
  rcases mem_snoc rfl hp with hp | rfl
  · exact h.told p hp hon i hi hopen habout
  · refine ⟨d, hd, h.linked d hd i hi hopen habout, rfl, ?_⟩
    simp [traced, hs]

theorem traced_step (hx : Exclusive w) (hen : m.Enabled w) (hrem : Remembers w m)
    (ht : Traced w.db w.sent) : Traced (w.step m).db (w.step m).sent := by
  have hpreserves : Preserves w m Traced := by
    constructor
    case quiet => exact fun db hq => ht.same hq.advances (named_mentioned w) hq.deliveries
    case write =>
      rintro c db rfl hrun
      exact Change.traced hen hrem hrun ht
    case restart =>
      rintro r env now db rfl hq
      refine ht.leave hrem hq.advances (named_mentioned w) ?_ ?_
      · intro x hx
        obtain ⟨d, hd, ⟨rfl, -⟩ | ⟨-, rfl⟩⟩ := mem_recoverDeliveries (hq.deliveries ▸ hx)
        · exact ⟨x, hd, rfl, .inl rfl⟩
        · exact ⟨d, hd, rfl, .inl rfl⟩
      · intro d hd hleaves htraced
        rw [hq.deliveries]
        refine ⟨_, List.mem_map_of_mem hd, ?_⟩
        split
        · next hs =>
          refine ⟨rfl, rfl, ?_⟩
          simp [traced, hleaves (of_decide_eq_true hs)]
        · exact ⟨rfl, rfl, htraced⟩
    case claim =>
      intro k now _ d hd hclaim
      refine ht.keep (.of_subset fun i hi => hi) (named_anyId _ _) ?_ ?_
      · intro x hx
        rcases (Table.mem_update (by intro i; rfl)).mp hx with ⟨hx, -⟩ | ⟨e, he, -, rfl⟩
        · exact ⟨x, hx, rfl, .inl rfl⟩
        · exact ⟨e, he, rfl, .inl rfl⟩
      · intro e he htraced i _
        refine .inl ⟨_, List.mem_map_of_mem he, ?_⟩
        split
        · exact ⟨rfl, rfl, by simp [traced, startDelivery]⟩
        · exact ⟨rfl, rfl, htraced⟩
    case send => exact fun k _ d hd hs => ht.send hd hs
    case finish =>
      rintro k now - o attempts d - - hpos -
      refine ht.keep (.of_subset fun i hi => hi) (named_anyId _ _) ?_ ?_
      · intro x hx
        rcases mem_writeOutcome.mp hx with ⟨hx, -⟩ | ⟨e, he, -, rfl⟩
        · exact ⟨x, hx, rfl, .inl rfl⟩
        · obtain ⟨-, hpayload, hinc, -⟩ := finishDelivery_keeps attempts o now e
          exact ⟨e, he, hpayload, .inl hinc⟩
      · intro e he htraced i _
        refine .inl ⟨_, List.mem_map_of_mem he, ?_⟩
        split
        · obtain ⟨-, -, hinc, hch, -⟩ := finishDelivery_keeps attempts o now e
          exact ⟨hinc, hch, traced_finishDelivery hpos o now e⟩
        · exact ⟨rfl, rfl, htraced⟩
  exact hpreserves.step hx hen ht

/-! ## The resolution -/

structure Farewell (incidentID channelID : String) (d : DeliveryRow) : Prop where
  event : d.eventType = .resolved
  incident : d.incidentId = some incidentID
  channel : d.channelId = channelID

theorem upsertDeliveryTx_resolved {due : Time} (hfree : FreeFrom env db draw)
    (h : upsertDeliveryTx env draw db incidentID channelID .resolved due = .ok db') :
    (∃ x ∈ db'.deliveries.rows, Farewell incidentID channelID x) ∧
      ∀ x ∈ db.deliveries.rows, x ∈ db'.deliveries.rows := by
  obtain ⟨payload, -, hstore⟩ := bind_ok.mp h
  unfold storeDelivery at hstore
  have hid : db.deliveries.has ("del_" ++ env.ids draw) = false :=
    Table.has_eq_false_iff.mpr fun x hx => (hfree draw (Nat.le_refl _) x hx).1
  rw [if_neg (by simp [deliverySlot, coalesces, hid])] at hstore
  obtain ⟨-, -, hrows, -⟩ := insertDelivery_ok hstore
  rw [hrows]
  exact ⟨⟨_, List.mem_append_right _ List.mem_cons_self, rfl, rfl, rfl⟩,
    fun x hx => List.mem_append_left _ hx⟩

theorem mem_cancelDeliveries_of_not {p : DeliveryRow → Bool} {x : DeliveryRow}
    (hx : x ∈ db.deliveries.rows) (hp : p x = false) :
    x ∈ (cancelDeliveries db now p).deliveries.rows :=
  (Table.mem_update (by intro i; rfl)).mpr (.inl ⟨hx, hp⟩)

theorem resolveForChannel_keeps (hfree : FreeFrom env db draw)
    (h : resolveForChannel env incidentID now db ch draw = .ok db') {x : DeliveryRow}
    (hx : x ∈ db.deliveries.rows) (hw : waiting incidentID ch.id x = false) :
    x ∈ db'.deliveries.rows := by
  unfold resolveForChannel at h
  split at h
  · cases h
    exact mem_cancelDeliveries_of_not hx (by rw [hw, Bool.false_and])
  · exact (upsertDeliveryTx_resolved (cancelDeliveries_freeFrom hfree) h).2 x
      (mem_cancelDeliveries_of_not hx hw)

theorem resolveForChannel_farewell (hfree : FreeFrom env db draw)
    (h : resolveForChannel env incidentID now db ch draw = .ok db') (hd : d ∈ db.deliveries.rows)
    (htrace : Trace incidentID ch.id d) :
    ∃ x ∈ db'.deliveries.rows, Farewell incidentID ch.id x := by
  unfold resolveForChannel at h
  rw [if_neg (attempted_ne_zero hd htrace)] at h
  exact (upsertDeliveryTx_resolved (cancelDeliveries_freeFrom hfree) h).1

/-- The loop of `enqueueResolutionTx`: the trace is there until the turn of its
channel, the resolution from then on. -/
theorem farewell_of_loop (hids : Function.Injective env.ids) (targets : List ChannelRow) :
    ∀ {k : Nat} {db db' : Database}, FreeFrom env db (draw + 2 * k) →
      (targets.zipIdx k).foldlM (fun db ch =>
        resolveForChannel env incidentID now db ch.1 (draw + 2 * ch.2)) db = .ok db' →
      ((∃ x ∈ db.deliveries.rows, Farewell incidentID channelID x) ∨
        (∃ ch ∈ targets, ch.id = channelID) ∧
          ∃ d ∈ db.deliveries.rows, Trace incidentID channelID d) →
      ∃ x ∈ db'.deliveries.rows, Farewell incidentID channelID x := by
  induction targets with
  | nil =>
    rintro k db db' - h (hdone | ⟨⟨ch, hch, -⟩, -⟩)
    · rw [foldlM_nil_ok.mp h]
      exact hdone
    · cases hch
  | cons c targets ih =>
    intro k db db' hfree h hfound
    obtain ⟨db₁, h₁, h₂⟩ := foldlM_cons_ok.mp h
    refine ih (resolveForChannel_posts hids hfree h₁).2 h₂ ?_
    rcases hfound with ⟨x, hx, hbye⟩ | ⟨⟨ch, hch, hid⟩, d, hd, htrace⟩
    · refine .inl ⟨x, resolveForChannel_keeps hfree h₁ hx ?_, hbye⟩
      simp [waiting, coalesces, hbye.event]
    · by_cases hturn : c.id = channelID
      · subst hturn
        exact .inl (resolveForChannel_farewell hfree h₁ hd htrace)
      · refine .inr ⟨⟨ch, (List.mem_cons.mp hch).resolve_left ?_, hid⟩, d, ?_, htrace⟩
        · rintro rfl
          exact hturn hid
        · refine resolveForChannel_keeps hfree h₁ hd ?_
          simp [waiting, htrace.channel, Ne.symm hturn]

theorem enqueueResolutionTx_farewell (hids : Function.Injective env.ids)
    (hfree : FreeFrom env db draw) (h : enqueueResolutionTx env draw db incidentID now = .ok db')
    (hch : ch ∈ activeChannels env db) (hnotify : ch.notifyResolved = true)
    (hd : d ∈ db.deliveries.rows) (htrace : Trace incidentID ch.id d) :
    ∃ x ∈ db'.deliveries.rows, Farewell incidentID ch.id x := by
  refine farewell_of_loop hids _ (k := 0) hfree h (.inr ⟨⟨ch, ?_, rfl⟩, d, hd, htrace⟩)
  exact List.mem_filter.mpr ⟨hch, hnotify⟩

/-- An incident that a resolved alert closes is the one whose resolution is
queued. -/
theorem alertResolvedTx_closes {alertID : String} (h : alertResolvedTx env db alertID now = .ok db')
    {i i' : IncidentRow} (hi : i ∈ db.incidents.rows) (hopen : i.status = .opened)
    (hi' : i' ∈ db'.incidents.rows) (hid : i'.id = i.id) (hres : i'.status = .resolved) :
    enqueueResolutionTx env 2 (closeIncident (leaveIncident db alertID now) i.id now) i.id now
      = .ok db' := by
  have hsame : i' ∉ db.incidents.rows := by
    intro hmem
    rw [Table.eq_of_key_eq hmem hi hid, hopen] at hres
    cases hres
  rcases alertResolvedTx_cases h with ⟨-, rfl⟩ | ⟨m, -, -, ⟨-, hclose⟩ | ⟨-, rfl⟩⟩
  · exact absurd hi' hsame
  · rw [enqueueResolutionTx_frame hclose] at hi'
    rcases mem_closeIncident.mp hi' with ⟨hmem, -⟩ | ⟨j, -, hj, rfl⟩
    · exact absurd hmem hsame
    · rw [← hid, show j.id = m.incidentId from hj]
      exact hclose
  · rcases (Table.mem_update_key (by intro i; rfl)).mp hi' with ⟨hmem, -⟩ | ⟨j, hj, -, rfl⟩
    · exact absurd hmem hsame
    · have hji : j = i := Table.eq_of_key_eq hj hi hid
      have hjres : j.status = .resolved := hres
      rw [hji, hopen] at hjres
      cases hjres

/-- A channel that was told of an incident hears of its end, after every run
that keeps the traces. -/
theorem told_hears_the_end {moves : List Move}
    (h : Along Service.step (fun w m => m.Enabled w ∧ Remembers w m)
      (Service.start Database.empty : Service capacity) moves)
    {w : Service capacity}
    (hw : moves.foldl Service.step (Service.start Database.empty : Service capacity) = w)
    {env : Ambient} {o : Observation} (hfresh : FreshFor env w) {db' : Database}
    (hrun : recordResolved (some {}) env o w.db = .ok db')
    {inc inc' : IncidentRow} (hinc : inc ∈ w.db.incidents.rows) (hopen : inc.status = .opened)
    (hinc' : inc' ∈ db'.incidents.rows) (hid : inc'.id = inc.id) (hres : inc'.status = .resolved)
    {ch : ChannelRow} (hch : ch ∈ w.db.channels.rows) (henabled : ch.enabled = true)
    (hlisted : ch.deletedAt = none) (hnotify : ch.notifyResolved = true)
    {p : Parcel} (hp : p ∈ w.sent)
    (hevent : p.event = .opened ∨ p.event = .updated ∨ p.event = .reminder)
    (hto : p.channelId = ch.id) {told : Incident} (htold : told ∈ p.payload.incident)
    (habout : told.id = inc.id) :
    ∃ d ∈ db'.deliveries.rows, d.eventType = .resolved ∧ d.incidentId = some inc.id ∧
      d.channelId = ch.id := by
  have htraced : Traced w.db w.sent := by
    rw [← hw]
    refine along_invariant (I := Traced) ⟨?_, ?_⟩ ?_ h
    · exact fun d hd => absurd hd List.not_mem_nil
    · exact fun p hp => absurd hp List.not_mem_nil
    · exact fun w m hx _ hen hrem ht => traced_step hx hen hrem ht
  have hon : ongoing p.event = true := by
    rcases hevent with hevent | hevent | hevent <;> rw [hevent] <;> rfl
  have hpabout : p.about = some inc.id := by
    rw [Parcel.about, Option.mem_def.mp htold, Option.map_some, habout]
  obtain ⟨d, hd, htrace⟩ := htraced.told p hp hon inc hinc hopen hpabout
  rw [hto] at htrace
  rcases recordResolved_steps hrun with rfl | ⟨a, db₁, events, -, h₁, rfl⟩
  · rw [Table.eq_of_key_eq hinc' hinc hid, hopen] at hres
    cases hres
  · have henqueue := alertResolvedTx_closes h₁ hinc hopen hinc' hid hres
    have hfree : FreeFrom env (closeIncident (leaveIncident (resolveAlert w.db a.id o.now) a.id
        o.now) inc.id o.now) 2 := Fresh.freeFrom hfresh.db 2
    obtain ⟨x, hx, hbye⟩ := enqueueResolutionTx_farewell hfresh.db.distinct hfree henqueue
      (mem_activeChannels.mpr ⟨hch, henabled, hlisted⟩) hnotify hd htrace
    exact ⟨x, hx, hbye.event, hbye.incident, hbye.channel⟩

/-! ## A process stops during an attempt -/

def cpuNormal (at_ : Int) : Observation :=
  { cpuHigh at_ with value := 10, failing := false, recovered := true }

def beforeEnd : List Move :=
  delivered ++ [.write (.elsewhere { (after delivered).db with events := .empty })]

/-- The announced alert is resolved, and its channel is told. -/
theorem told_hears_the_end_delivered :
    ∃ db', recordResolved (some {}) (draws 'z') (cpuNormal 30) (after beforeEnd).db = .ok db' ∧
      ∃ d ∈ db'.deliveries.rows, d.eventType = .resolved ∧ d.incidentId = some "inc_xf" ∧
        d.channelId = "ops" := by
  have henabled : Along Service.step Move.Enabled (after []) beforeEnd :=
    along_delivered.append ⟨⟨rfl, rfl, rfl, rfl, rfl⟩, trivial⟩
  have hwrite : ∀ {w : Service 8} {c}, (∀ id now, c ≠ .retry id now) → c.cancels = none →
      (∀ now, c ≠ .transact (.cleanupDeliveries now)) → Remembers w (.write c) := by
    intro w c hretry hcancels hcleanup
    refine remembers_of_leaves fun d _ => ⟨fun id now h => absurd h (hretry id now), ?_, ?_⟩
    · intro id now h
      rw [hcancels] at h
      cases h
    · exact fun now h => absurd h (hcleanup now)
  have hstep : ∀ {w : Service 8} {m}, (∀ d, Move.Leaves d m) → Remembers w m :=
    fun h => remembers_of_leaves fun d _ => h d
  have hremembers : Along Service.step Remembers (after []) beforeEnd := by
    refine .append (.append ⟨?_, ?_, ?_, trivial⟩ (.append ⟨?_, ?_, ?_, ?_, ?_, ?_, trivial⟩
      ⟨?_, ?_, ?_, ?_, trivial⟩)) ⟨?_, trivial⟩
    any_goals exact hwrite (by simp) rfl (by simp)
    all_goals exact hstep fun _ => trivial
  have hinc : (after beforeEnd).db.incidents.rows.any
      (fun i => i.id = "inc_xf" && i.status = .opened) = true := by decide +kernel
  have hch : (after beforeEnd).db.channels.rows.any (fun ch => ch.id = "ops" && ch.enabled &&
      ch.deletedAt = none && ch.notifyResolved) = true := by decide +kernel
  have hp : (after beforeEnd).sent.any (fun p => p.event = .opened && p.channelId = "ops" &&
      p.payload.incident.any fun told => told.id = "inc_xf") = true := by decide +kernel
  have hend : (recordResolved (some {}) (draws 'z') (cpuNormal 30)
      (after beforeEnd).db).toOption.any (fun db => db.incidents.rows.any fun i =>
        i.id = "inc_xf" && i.status = .resolved) = true := by decide +kernel
  simp only [List.any_eq_true, Bool.and_eq_true, decide_eq_true_eq,
      Option.any_eq_true] at hinc hch hp
  obtain ⟨inc, hinc, hid, hopen⟩ := hinc
  obtain ⟨ch, hch, ⟨⟨hops, hon⟩, hlisted⟩, hnotify⟩ := hch
  obtain ⟨p, hp, ⟨hevent, hto⟩, told, htold, habout⟩ := hp
  cases hrun : recordResolved (some {}) (draws 'z') (cpuNormal 30) (after beforeEnd).db with
  | error e =>
    rw [hrun] at hend
    cases hend
  | ok db' =>
    rw [hrun] at hend
    simp only [Except.toOption, Option.any_some, List.any_eq_true, Bool.and_eq_true,
      decide_eq_true_eq] at hend
    obtain ⟨inc', hinc', hid', hres⟩ := hend
    refine ⟨db', rfl, ?_⟩
    rw [← hops, ← hid]
    exact told_hears_the_end (henabled.and hremembers) rfl (freshFor_draws (by decide +kernel)) hrun
      hinc hopen hinc' (hid'.trans hid.symm) hres hch hon hlisted hnotify hp (.inl hevent)
      (hto.trans hops.symm) htold (habout.trans hid.symm)

def crashed : List Move := sending ++ [.restart {} (draws 'y') (21 * second)]

/-- The channel was told that the incident opened; it is resolved, and no
resolution is queued. -/
theorem told_never_hears :
    Along Service.step Move.Enabled (after []) crashed ∧
    (after crashed).sent.map (fun p => (p.channelId, p.event, p.payload.incident.map Incident.id))
      = [("ops", .opened, some "inc_xf")] ∧
    (after crashed).db.channels.rows.map (fun ch => (ch.id, ch.enabled, ch.notifyResolved))
      = [("ops", true, true)] ∧
    Along Service.step Move.Enabled (after crashed) (resolveAt (after crashed) 30) ∧
    (after (crashed ++ resolveAt (after crashed) 30)).db.incidents.rows.map
      (fun i => (i.id, i.status)) = [("inc_xf", .resolved)] ∧
    (after (crashed ++ resolveAt (after crashed) 30)).db.deliveries.rows.map
      (fun d => (d.eventType, d.status)) = [(.opened, .cancelled)] := by
  have hcrashed : Along Service.step Move.Enabled (after []) crashed :=
    along_announce.append (.append (along_attemptAt _ 20)
      ⟨freshFor_draws (by decide +kernel), trivial⟩)
  refine ⟨hcrashed, by decide +kernel, by decide +kernel, ⟨⟨rfl, rfl, rfl, rfl, rfl⟩, ?_, trivial⟩,
    by decide +kernel, by decide +kernel⟩
  exact freshFor_draws (by decide +kernel)

end Binnacle.Notifications
