import Binnacle.Notifications.Exclusion

/-!
# How deliveries evolve

What requests say is a matter of two things only, the delivery rows and the
requests issued so far. `Preserves` is the rule for properties of these: one
clause for each move that can touch them, with the row it touches and the
status it finds there. Everything else a worker or the dispatcher does is quiet.

- `Edit.row_cases`: where a row after an edit comes from;
- `Consistent`: keys are unique, and a row's message tells the row's incident.
-/

namespace Binnacle.Notifications

open Relational Runs Alerts Storage

variable {capacity : Nat} {w : Service capacity} {channelID incidentID : String} {d x : DeliveryRow}
  {db db' : Database} {I : Database → List Parcel → Prop} {deliveries : Table DeliveryRow.id}
  {eventType : DeliveryEvent} {now : Time}

/-! ## A rule for rows and requests -/

structure Preserves (w : Service capacity) (m : Move) (I : Database → List Parcel → Prop) :
    Prop where
  quiet : ∀ db, Quiet w w.db db → I db w.sent
  write : ∀ c db, m = .write c → c.run w.db = .ok db → I db w.sent
  restart : ∀ r env now db, m = .restart r env now →
    Quiet w (recoverDeliveries w.db now) db → I db w.sent
  claim : ∀ k now, m = .claim k now → ∀ d ∈ w.db.deliveries.rows,
    claimable w.db now d.id d = true → I (claimDelivery w.db d.id now) w.sent
  send : ∀ k, m = .send k → ∀ d ∈ w.db.deliveries.rows, d.status = .inProgress →
    I w.db (w.sent ++ [parcelOf d])
  finish : ∀ k now, m = .finish k now → ∀ o attempts, ∀ d ∈ w.db.deliveries.rows,
    w.workers k = .counted d.id o attempts → 0 < attempts → d.status = .inProgress →
    I (writeOutcome w.db d.id attempts o now) w.sent

theorem Preserves.step {m : Move} (h : Preserves w m I)
    (hx : Exclusive w) (hen : m.Enabled w) (hI : I w.db w.sent) :
    I (w.step m).db (w.step m).sent := by
  cases w.steps m with
  | quiet _ hsent hdb =>
    rw [hsent, hdb]
    exact h.quiet _ (.of_eq rfl rfl rfl)
  | write c db hm hrun heq =>
    rw [heq]
    exact h.write c db hm hrun
  | restart r env now hm heq =>
    obtain ⟨-, hsent, hmoves⟩ := restart_frame w r env now
    subst hm
    rw [heq, hsent]
    exact h.restart r env now _ rfl (hmoves.quiet hen)
  | turn k a b _ _ hdb hsent _ =>
    rw [hdb, hsent]
    exact hI
  | claim k now d hm hd hclaim heq =>
    rw [heq]
    exact h.claim k now hm d hd hclaim
  | send k p hm hk heq =>
    obtain ⟨d, hd, hs, rfl⟩ := hx.parcel k p (by rw [hk]; rfl)
    rw [heq]
    exact h.send k hm d hd hs
  | finish k now id o attempts hm hk heq =>
    obtain ⟨d, hd, rfl, hs⟩ := hx.held k id (by rw [hk]; rfl)
    rw [heq]
    exact h.finish k now hm o attempts d hd hk (hx.counted k _ o attempts hk) hs

/-! ## Where rows come from -/

theorem waiting_iff :
    waiting incidentID channelID d = true ↔ d.incidentId = some incidentID ∧
      d.channelId = channelID ∧ d.status = .pending ∧ coalesces d.eventType = true := by
  simp [waiting, and_assoc]

theorem mem_overwriteDelivery {payload : Payload} {next updated : Int} (hd : d ∈ db.deliveries.rows)
    (hx : x ∈ (overwriteDelivery db d.id payload next updated).deliveries.rows) :
    (x ∈ db.deliveries.rows ∧ x.id ≠ d.id) ∨
      x = { d with payload, nextAttemptAt := some next, updatedAt := updated } := by
  rcases (Table.mem_update_key (by intro i; rfl)).mp hx with hx | ⟨e, he, hid, rfl⟩
  · exact .inl hx
  · rw [Table.eq_of_key_eq he hd hid]
    exact .inr rfl

theorem mem_queued (hfree : db.deliveries.has d.id = false)
    (hrows : deliveries.rows = db.deliveries.rows ++ [d]) (hx : x ∈ deliveries.rows) :
    (x ∈ db.deliveries.rows ∧ x.id ≠ d.id) ∨ x = d := by
  exact (mem_snoc hrows hx).imp_left fun hx => ⟨hx, Table.has_eq_false_iff.mp hfree x hx⟩

/-- A row after an edit was there, is the waiting one with a new message, is
new, or is a waiting one that a resolution cancelled. -/
theorem Edit.row_cases {env : Ambient} (h : Edit env incidentID channelID eventType db db')
    (hx : x ∈ db'.deliveries.rows) :
    x ∈ db.deliveries.rows ∨
    (∃ d ∈ db.deliveries.rows, ∃ payload next updated, waiting incidentID channelID d = true ∧
      coalesces eventType = true ∧ Describes db incidentID payload ∧
      x = { d with payload, nextAttemptAt := some next, updatedAt := updated }) ∨
    NewDelivery env incidentID channelID eventType db x ∨
    ∃ d ∈ db.deliveries.rows, ∃ now, waiting incidentID channelID d = true ∧
      eventType = .resolved ∧ x = cancelDelivery now d := by
  cases h with
  | overwrite d payload next updated hco hd hw hdesc =>
    rcases mem_overwriteDelivery hd hx with ⟨hx, -⟩ | rfl
    · exact .inl hx
    · exact .inr (.inl ⟨d, hd, payload, next, updated, hw, hco, hdesc, rfl⟩)
  | queue d deliveries hnew hfree hrows =>
    rcases mem_queued hfree hrows hx with ⟨hx, -⟩ | rfl
    · exact .inl hx
    · exact .inr (.inr (.inl hnew))
  | cancel now p hres hp =>
    rcases (Table.mem_update (by intro i; rfl)).mp hx with ⟨hx, -⟩ | ⟨d, hd, hpd, rfl⟩
    · exact .inl hx
    · exact .inr (.inr (.inr ⟨d, hd, now, hp d hpd, hres, rfl⟩))

theorem mem_cleanupIncidents (hx : x ∈ (cleanupIncidents db now).deliveries.rows) :
    ∃ d ∈ db.deliveries.rows, x = d ∨
      ((∃ i, d.incidentId = some i ∧ forgets db now i = true) ∧
        x = { d with incidentId := none }) := by
  rcases (Table.mem_update (by intro i; rfl)).mp hx with ⟨hx, -⟩ | ⟨d, hd, hp, rfl⟩
  · exact ⟨x, hx, .inl rfl⟩
  · obtain ⟨i, hi, hforgets⟩ := (Option.any_eq_true _ _).mp hp
    exact ⟨d, hd, .inr ⟨⟨i, hi, hforgets⟩, rfl⟩⟩

theorem mem_cancelPending (hx : x ∈ (cancelPending db channelID now).deliveries.rows) :
    ∃ d ∈ db.deliveries.rows, x = d ∨
      (d.channelId = channelID ∧ d.status = .pending ∧ x = cancelDelivery now d) := by
  rcases (Table.mem_update (by intro i; rfl)).mp hx with ⟨hx, -⟩ | ⟨d, hd, hp, rfl⟩
  · exact ⟨x, hx, .inl rfl⟩
  · simp only [Bool.and_eq_true, decide_eq_true_eq] at hp
    exact ⟨d, hd, .inr ⟨hp.1, hp.2, rfl⟩⟩

theorem mem_retry {id : String} (h : retry db id now = .ok db') (hx : x ∈ db'.deliveries.rows) :
    ∃ d ∈ db.deliveries.rows, x = d ∨
      (d.status = .permanentFailure ∧ x = retryDelivery now d) := by
  rw [retry_ok h] at hx
  rcases (Table.mem_update (by intro i; rfl)).mp hx with ⟨hx, -⟩ | ⟨d, hd, hp, rfl⟩
  · exact ⟨x, hx, .inl rfl⟩
  · simp only [failedForGood, Bool.and_eq_true, decide_eq_true_eq] at hp
    exact ⟨d, hd, .inr ⟨hp.2, rfl⟩⟩

theorem mem_recoverDeliveries (hx : x ∈ (recoverDeliveries db now).deliveries.rows) :
    ∃ d ∈ db.deliveries.rows, (x = d ∧ d.status ≠ .inProgress) ∨
      (d.status = .inProgress ∧ x = { d with
        status := .pending, startedAt := none, nextAttemptAt := some (unix now)
        updatedAt := unix now }) := by
  rcases (Table.mem_update (by intro i; rfl)).mp hx with ⟨hx, hp⟩ | ⟨d, hd, hp, rfl⟩
  · exact ⟨x, hx, .inl ⟨rfl, by simpa using hp⟩⟩
  · exact ⟨d, hd, .inr ⟨by simpa using hp, rfl⟩⟩

/-! ## Rows and their messages -/

structure Consistent (db : Database) : Prop where
  keys : (db.deliveries.rows.map DeliveryRow.idempotencyKey).Nodup
  addressed : ∀ d ∈ db.deliveries.rows, ∀ i, d.incidentId = some i →
    ∃ told, d.payload.incident = some told ∧ told.id = i

theorem Consistent.eq_of_key_eq (h : Consistent db) {e : DeliveryRow} (hd : d ∈ db.deliveries.rows)
    (he : e ∈ db.deliveries.rows) (hkey : d.idempotencyKey = e.idempotencyKey) : d = e :=
  List.inj_on_of_nodup_map h.keys hd he hkey

theorem Consistent.of_eq {a b : Database} (h : Consistent a) (heq : b.deliveries = a.deliveries) :
    Consistent b := by
  constructor
  · rw [heq]
    exact h.keys
  · rw [heq]
    exact h.addressed

theorem Consistent.update (h : Consistent db) {p : DeliveryRow → Bool}
    {f : DeliveryRow → DeliveryRow} (hf : ∀ d, (f d).id = d.id)
    (hkeep : ∀ d, (f d).idempotencyKey = d.idempotencyKey ∧ (f d).payload = d.payload ∧
      ((f d).incidentId = d.incidentId ∨ (f d).incidentId = none)) :
    Consistent { db with deliveries := db.deliveries.update p f hf } := by
  constructor
  · rw [Table.map_rows_update _ _ hf fun d => (hkeep d).1]
    exact h.keys
  · intro x hx i hi
    rcases (Table.mem_update hf).mp hx with ⟨hx, -⟩ | ⟨d, hd, -, rfl⟩
    · exact h.addressed x hx i hi
    · obtain ⟨-, hpayload, hsame | hnone⟩ := hkeep d
      · rw [hpayload]
        exact h.addressed d hd i (hsame.symm.trans hi)
      · rw [hnone] at hi
        cases hi

theorem Consistent.insert (h : Consistent db) (hrows : deliveries.rows = db.deliveries.rows ++ [d])
    (hkey : ∀ x ∈ db.deliveries.rows, x.idempotencyKey ≠ d.idempotencyKey)
    (haddressed : ∀ i, d.incidentId = some i →
      ∃ told, d.payload.incident = some told ∧ told.id = i) :
    Consistent { db with deliveries } := by
  constructor
  · show (deliveries.rows.map DeliveryRow.idempotencyKey).Nodup
    rw [hrows, List.map_append, List.nodup_append]
    refine ⟨h.keys, List.nodup_singleton _, ?_⟩
    rintro a ha b hb rfl
    obtain ⟨x, hx, rfl⟩ := List.mem_map.mp ha
    exact hkey x hx (List.mem_singleton.mp hb)
  · intro x hx i hi
    rcases mem_snoc hrows hx with hx | rfl
    · exact h.addressed x hx i hi
    · exact haddressed i hi

theorem Edit.consistent {env : Ambient}
    (h : Edit env incidentID channelID eventType db db') (hc : Consistent db) :
    Consistent db' := by
  -- the messages of edits are about the incident
  have hdesc : ∀ p, Describes db incidentID p → ∃ told, p.incident = some told ∧
      told.id = incidentID := by
    rintro p ⟨inc, -, -, told, htold, hid, -⟩
    exact ⟨told, htold, hid⟩
  cases h with
  | overwrite d payload next updated _ hd hw hp =>
    constructor
    · have hkeys : (overwriteDelivery db d.id payload next updated).deliveries.rows.map
          DeliveryRow.idempotencyKey = db.deliveries.rows.map DeliveryRow.idempotencyKey :=
        Table.map_rows_update _ _ (by intro x; rfl) (by intro x; rfl)
      rw [hkeys]
      exact hc.keys
    · intro x hx i hi
      rcases mem_overwriteDelivery hd hx with ⟨hx, -⟩ | rfl
      · exact hc.addressed x hx i hi
      · obtain ⟨told, htold, hid⟩ := hdesc payload hp
        exact ⟨told, htold, hid.trans (Option.some.inj ((waiting_iff.mp hw).1.symm.trans hi))⟩
  | queue d deliveries hnew _ hrows =>
    refine hc.insert hrows hnew.unique fun i hi => ?_
    rw [hnew.incident] at hi
    cases hi
    exact hdesc _ hnew.describes
  | cancel now p _ _ => exact hc.update _ fun d => ⟨rfl, rfl, .inl rfl⟩

theorem Consistent.survives (hc : Consistent w.db) (c : Change) : Survives w c Consistent := by
  constructor
  case quiet => exact fun db hq => hc.of_eq hq.deliveries
  case still => exact fun a b hs ha => ha.of_eq hs.deliveries
  case edit => exact fun _ _ _ _ _ a b _ hedit ha => hedit.consistent ha
  case expire =>
    refine fun now _ => ⟨hc.keys.sublist (List.filter_sublist.map _), fun d hd => ?_⟩
    exact hc.addressed d (Table.mem_delete.mp hd).1
  case forget =>
    intro now _
    have hdetach := hc.update (p := fun d => d.incidentId.any (forgets w.db now))
      (f := fun d => { d with incidentId := none }) (fun _ => rfl)
      fun d => ⟨rfl, rfl, .inr rfl⟩
    exact hdetach.of_eq rfl
  case cancel =>
    intro id now db _ hq
    exact (hc.of_eq hq.deliveries).update _ fun d => ⟨rfl, rfl, .inl rfl⟩
  case test => exact fun _ _ _ _ _ hkey hrows => hc.insert hrows hkey nofun
  case retry =>
    intro id now db' _ h
    rw [retry_ok h]
    exact hc.update _ fun d => ⟨rfl, rfl, .inl rfl⟩

theorem Change.consistent {c : Change} (hen : c.Enabled w) (hrun : c.run w.db = .ok db)
    (hc : Consistent w.db) : Consistent db :=
  (hc.survives c).keeps hen hrun

theorem finishDelivery_keeps (attempts : Nat) (o : Outcome) (now : Time) (d : DeliveryRow) :
    (finishDelivery attempts o now d).idempotencyKey = d.idempotencyKey ∧
      (finishDelivery attempts o now d).payload = d.payload ∧
      (finishDelivery attempts o now d).incidentId = d.incidentId ∧
      (finishDelivery attempts o now d).channelId = d.channelId ∧
      (finishDelivery attempts o now d).eventType = d.eventType := by
  unfold finishDelivery
  split
  · exact ⟨rfl, rfl, rfl, rfl, rfl⟩
  · split <;> exact ⟨rfl, rfl, rfl, rfl, rfl⟩

theorem consistent_step {m : Move} (hx : Exclusive w) (hen : m.Enabled w) (hc : Consistent w.db) :
    Consistent (w.step m).db := by
  have hpreserves : Preserves w m fun db _ => Consistent db := by
    constructor
    case quiet => exact fun db hq => hc.of_eq hq.deliveries
    case write =>
      rintro c db rfl hrun
      exact Change.consistent hen hrun hc
    case restart =>
      intro r env now db _ hq
      have hrecover : Consistent (recoverDeliveries w.db now) :=
        hc.update _ fun d => ⟨rfl, rfl, .inl rfl⟩
      exact hrecover.of_eq hq.deliveries
    case claim => exact fun _ _ _ _ _ _ => hc.update _ fun d => ⟨rfl, rfl, .inl rfl⟩
    case send => exact fun _ _ _ _ _ => hc
    case finish =>
      intro k now _ o attempts d _ _ _ _
      refine hc.update _ fun d => ?_
      obtain ⟨hkey, hpayload, hinc, -⟩ := finishDelivery_keeps attempts o now d
      exact ⟨hkey, hpayload, .inl hinc⟩
  exact hpreserves.step hx hen hc

/-- What holds of the empty database and is kept by every move that meets a
condition holds after every run of such moves. -/
theorem along_invariant {P : Service capacity → Move → Prop} (hinit : I Database.empty [])
    (hstep : ∀ w m, Exclusive w → Consistent w.db → m.Enabled w → P w m → I w.db w.sent →
      I (w.step m).db (w.step m).sent) {moves : List Move}
    (h : Along Service.step (fun w m => m.Enabled w ∧ P w m)
      (Service.start Database.empty : Service capacity) moves) :
    I (moves.foldl Service.step (Service.start Database.empty : Service capacity)).db
      (moves.foldl Service.step (Service.start Database.empty : Service capacity)).sent := by
  refine (h.invariant (I := fun w => Exclusive w ∧ Consistent w.db ∧ I w.db w.sent) ?_
    ⟨?_, ?_, hinit⟩).2.2
  · rintro w m ⟨hx, hc, hI⟩ ⟨hen, hP⟩
    exact ⟨hx.step hen, consistent_step hx hen hc, hstep w m hx hc hen hP hI⟩
  · exact exclusive_start _ fun d hd => absurd hd List.not_mem_nil
  · exact ⟨List.nodup_nil, fun d hd => absurd hd List.not_mem_nil⟩

end Binnacle.Notifications
