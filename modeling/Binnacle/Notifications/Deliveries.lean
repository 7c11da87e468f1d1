import Binnacle.Notifications.Worker

/-!
# What transactions do to deliveries

`upsertDeliveryTx` either rewrites the one delivery that waits for the incident
and channel or queues a new one; a resolution first cancels what waits. `Edit`
says this once, with everything later proofs need of it, and the enqueueing
loops are sequences of edits (`Edits`).

The draws of a loop are consumed in order: `FreeFrom env db n` says that those
from `n` on are still unused, and each edit moves the mark by two.
-/

namespace Binnacle.Notifications

open Relational Runs Alerts Storage

def Describes (db : Database) (incidentID : String) (p : Payload) : Prop :=
  ∃ inc ∈ db.incidents.rows, inc.id = incidentID ∧
    ∃ told, p.incident = some told ∧ told.id = incidentID ∧ told.version = inc.version

variable {capacity : Nat} {env : Ambient} {db db' : Database} {incidentID channelID : String}
  {eventType e : DeliveryEvent} {I : Database → Prop} {draw : Nat} {now due : Time}
  {w : Service capacity} {d : DeliveryRow} {severity : Level} {r : Repository} {c : Change}

theorem payloadTx_tells {deliveryID key : String} {p : Payload}
    (h : payloadTx env db deliveryID key incidentID eventType = .ok p) :
    Describes db incidentID p ∧ p.deliveryId = deliveryID ∧ p.idempotencyKey = key ∧
      p.eventType = eventType := by
  unfold payloadTx at h
  split at h
  · cases h
  · next inc hfind =>
    obtain ⟨hinc, hid⟩ := Table.find?_eq_some_iff.mp hfind
    cases h
    exact ⟨⟨inc, hinc, hid, _, rfl, hid, rfl⟩, rfl, rfl, rfl⟩

/-- `SET payload_json=?,next_attempt_at=?,updated_at=? WHERE id=?`. -/
def overwriteDelivery (db : Database) (id : String) (payload : Payload) (next updated : Int) :
    Database :=
  { db with
    deliveries := db.deliveries.update (fun d => d.id = id)
      (fun d => { d with payload, nextAttemptAt := some next, updatedAt := updated })
      (fun _ => rfl) }

structure NewDelivery (env : Ambient) (incidentID channelID : String) (eventType : DeliveryEvent)
    (db : Database) (d : DeliveryRow) : Prop where
  pending : d.status = .pending
  attempts : d.attemptCount = 0
  incident : d.incidentId = some incidentID
  channel : d.channelId = channelID
  event : d.eventType = eventType
  describes : Describes db incidentID d.payload
  key : ∃ n, d.idempotencyKey = "idem_" ++ env.ids n
  /-- `idempotency_key TEXT NOT NULL UNIQUE`. -/
  unique : ∀ x ∈ db.deliveries.rows, x.idempotencyKey ≠ d.idempotencyKey
  /-- Only a reminder is queued beside a delivery that waits. -/
  alone : eventType ≠ .reminder →
    ∀ x ∈ db.deliveries.rows, waiting incidentID channelID x = false

/-- One change that a transaction makes to the deliveries of an incident to a
channel. -/
inductive Edit (env : Ambient) (incidentID channelID : String) (eventType : DeliveryEvent)
    (db : Database) : Database → Prop where
  | overwrite (d : DeliveryRow) (payload : Payload) (next updated : Int) :
      coalesces eventType = true → d ∈ db.deliveries.rows →
      waiting incidentID channelID d = true → Describes db incidentID payload →
      Edit env incidentID channelID eventType db (overwriteDelivery db d.id payload next updated)
  | queue (d : DeliveryRow) (deliveries : Table DeliveryRow.id) :
      NewDelivery env incidentID channelID eventType db d →
      db.deliveries.has d.id = false → deliveries.rows = db.deliveries.rows ++ [d] →
      Edit env incidentID channelID eventType db { db with deliveries }
  | cancel (now : Time) (p : DeliveryRow → Bool) :
      eventType = .resolved → (∀ d, p d = true → waiting incidentID channelID d = true) →
      Edit env incidentID channelID eventType db (cancelDeliveries db now p)

def Edits (env : Ambient) (incidentID : String) (eventType : DeliveryEvent) :
    Database → Database → Prop :=
  Relation.ReflTransGen fun db db' => ∃ channelID, Edit env incidentID channelID eventType db db'

theorem Edit.frame (h : Edit env incidentID channelID eventType db db') :
    DeliveriesOnly db db' := by
  cases h <;> rfl

theorem Edits.frame (h : Edits env incidentID eventType db db') : DeliveriesOnly db db' := by
  induction h with
  | refl => rfl
  | tail _ hstep ih =>
    obtain ⟨c, hc⟩ := hstep
    exact ih.trans hc.frame

theorem Edits.invariant
    (hstep : ∀ channelID db db', Edit env incidentID channelID eventType db db' → I db → I db')
    (h : Edits env incidentID eventType db db') (hI : I db) : I db' := by
  induction h with
  | refl => exact hI
  | tail _ hedit ih =>
    obtain ⟨c, hc⟩ := hedit
    exact hstep c _ _ hc ih

/-! ## Messages and their rows -/

structure WellFormed (d : DeliveryRow) : Prop where
  id : d.payload.deliveryId = d.id
  key : d.payload.idempotencyKey = d.idempotencyKey
  event : d.payload.eventType = d.eventType
  pending : d.status = .pending → d.nextAttemptAt ≠ none
  inProgress : d.status = .inProgress → d.startedAt ≠ none
  finished : d.status.finished = true → d.completedAt ≠ none ∧ d.nextAttemptAt = none

def AllWellFormed (db : Database) : Prop := ∀ d ∈ db.deliveries.rows, WellFormed d

theorem AllWellFormed.of_eq {a b : Database} (h : AllWellFormed a)
    (heq : b.deliveries = a.deliveries) : AllWellFormed b := by
  unfold AllWellFormed
  rw [heq]
  exact h

theorem AllWellFormed.update (h : AllWellFormed db) {p : DeliveryRow → Bool}
    {f : DeliveryRow → DeliveryRow} (hf : ∀ d, (f d).id = d.id)
    (hstep : ∀ d ∈ db.deliveries.rows, p d = true → WellFormed d → WellFormed (f d)) :
    AllWellFormed { db with deliveries := db.deliveries.update p f hf } := by
  intro x hx
  rcases (Table.mem_update hf).mp hx with ⟨hx, -⟩ | ⟨d, hd, hp, rfl⟩
  · exact h x hx
  · exact hstep d hd hp (h d hd)

theorem AllWellFormed.insert (h : AllWellFormed db) {deliveries : Table DeliveryRow.id}
    (hrows : deliveries.rows = db.deliveries.rows ++ [d]) (hd : WellFormed d) :
    AllWellFormed { db with deliveries } := by
  intro x hx
  rcases mem_snoc hrows hx with hx | rfl
  · exact h x hx
  · exact hd

theorem WellFormed.cancel (h : WellFormed d) (now : Time) :
    WellFormed (cancelDelivery now d) where
  id := h.id
  key := h.key
  event := h.event
  pending hs := by cases hs
  inProgress hs := by cases hs
  finished _ := ⟨Option.some_ne_none _, rfl⟩

theorem AllWellFormed.cancel (h : AllWellFormed db) (now : Time) (p : DeliveryRow → Bool) :
    AllWellFormed (cancelDeliveries db now p) :=
  h.update _ fun _ _ _ hd => hd.cancel now

structure Posts (env : Ambient) (incidentID : String) (eventType : DeliveryEvent)
    (db db' : Database) : Prop where
  edits : Edits env incidentID eventType db db'
  named : AllWellFormed db → AllWellFormed db'

theorem Posts.refl (db : Database) : Posts env incidentID eventType db db := ⟨.refl, fun h => h⟩

theorem Posts.trans {a b c : Database} (hab : Posts env incidentID eventType a b)
    (hbc : Posts env incidentID eventType b c) : Posts env incidentID eventType a c :=
  ⟨hab.edits.trans hbc.edits, fun h => hbc.named (hab.named h)⟩

/-! ## Draws -/

/-- The draws from `n` on are unused. -/
def FreeFrom (env : Ambient) (db : Database) (n : Nat) : Prop := ∀ m, n ≤ m → DrawsFree env db m

theorem Fresh.freeFrom (h : Fresh env db) (n : Nat) : FreeFrom env db n :=
  fun m _ d hd => ⟨h.deliveries m d hd, h.keys (m + 1) d hd⟩

theorem GrowsBy.freeFrom (hids : Function.Injective env.ids) {n : Nat}
    (hgrow : GrowsBy env n db db') (h : FreeFrom env db n) : FreeFrom env db' (n + 2) := by
  intro m hm
  exact hgrow.drawsFree hids (by omega) (h m (by omega))

theorem waitingDelivery_none (h : waitingDelivery env db incidentID channelID = none) :
    ∀ d ∈ db.deliveries.rows, waiting incidentID channelID d = false := by
  intro d hd
  by_contra hw
  rw [Bool.not_eq_false] at hw
  have hmem : d ∈ ((env.order.arrange db.deliveries.rows).filter
      (waiting incidentID channelID)).insertionSort (fun d e => d.createdAt ≤ e.createdAt) := by
    rw [(List.perm_insertionSort _ _).mem_iff, List.mem_filter, RowOrder.mem_arrange]
    exact ⟨hd, hw⟩
  rw [List.head?_eq_none_iff.mp h] at hmem
  cases hmem

theorem waiting_pending (h : waiting incidentID channelID d = true) : d.status = .pending := by
  simp only [waiting, Bool.and_eq_true, decide_eq_true_eq] at h
  exact h.1.2

theorem upsertDeliveryTx_posts (hids : Function.Injective env.ids) (hfree : FreeFrom env db draw)
    (hcancelled : coalesces eventType = false → eventType ≠ .reminder →
      ∀ x ∈ db.deliveries.rows, waiting incidentID channelID x = false)
    (h : upsertDeliveryTx env draw db incidentID channelID eventType due = .ok db') :
    Posts env incidentID eventType db db' ∧ FreeFrom env db' (draw + 2) := by
  refine ⟨?_, (upsertDeliveryTx_grows h).freeFrom hids hfree⟩
  unfold upsertDeliveryTx deliverySlot at h
  dsimp only at h
  split at h
  · next d hco hw =>
    obtain ⟨payload, hpayload, hstore⟩ := bind_ok.mp h
    obtain ⟨hdesc, hid, hkey, hevent⟩ := payloadTx_tells hpayload
    obtain ⟨hd, hwait⟩ := waitingDelivery_some hw
    unfold storeDelivery at hstore
    split at hstore
    · cases hstore
      refine ⟨.single ⟨channelID, .overwrite d payload _ _ hco hd hwait hdesc⟩, fun hwf => ?_⟩
      refine hwf.update _ fun x hx hp _ => ?_
      obtain rfl : x = d := Table.eq_of_key_eq hx hd (of_decide_eq_true hp)
      have hs := waiting_pending hwait
      exact ⟨hid, hkey, hevent, fun _ => Option.some_ne_none _,
        fun hrun => absurd (hs.symm.trans hrun) (by decide),
        fun hfin => absurd (hs ▸ hfin : DeliveryStatus.pending.finished = true) (by decide)⟩
    · -- the waiting row keeps its key, so it cannot be inserted again
      exact absurd rfl ((insertDelivery_ok hstore).1 d hd)
  · next hnew =>
    obtain ⟨payload, hpayload, hstore⟩ := bind_ok.mp h
    obtain ⟨hdesc, hid, hkey, hevent⟩ := payloadTx_tells hpayload
    have hhas : db.deliveries.has ("del_" ++ env.ids draw) = false :=
      Table.has_eq_false_iff.mpr fun x hx => (hfree draw (Nat.le_refl _) x hx).1
    unfold storeDelivery at hstore
    rw [if_neg (by simp [hhas])] at hstore
    obtain ⟨hunique, hhas, hrows, hframe⟩ := insertDelivery_ok hstore
    rw [hframe]
    refine ⟨.single ⟨channelID, .queue _ db'.deliveries
      ⟨rfl, rfl, rfl, rfl, rfl, hdesc, ⟨draw + 1, rfl⟩, hunique, fun hne => ?_⟩ hhas hrows⟩,
      fun hwf => hwf.insert hrows ⟨hid, hkey, hevent, fun _ => Option.some_ne_none _,
        (fun hs => by cases hs), (fun hs => by cases hs)⟩⟩
    cases hco : coalesces eventType with
    | true =>
      cases hw : waitingDelivery env db incidentID channelID with
      | none => exact waitingDelivery_none hw
      | some d => exact absurd hw (hnew d hco)
    | false => exact hcancelled hco hne

theorem posts_of_loop {serve : Database → ChannelRow × Nat → Except SqlError Database}
    (hserve : ∀ db db' ch k, FreeFrom env db (draw + 2 * k) → serve db (ch, k) = .ok db' →
      Posts env incidentID eventType db db' ∧ FreeFrom env db' (draw + 2 * (k + 1)))
    {targets : List ChannelRow} (hfree : FreeFrom env db draw)
    (h : targets.zipIdx.foldlM serve db = .ok db') :
    Posts env incidentID eventType db db' ∧ FreeFrom env db' (draw + 2 * targets.length) := by
  have hloop := foldlM_zipIdx_ok (k := 0) (fun k s => Posts env incidentID eventType db s ∧
    FreeFrom env s (draw + 2 * k)) (fun ch _ k s s' hs hrun => ?_) h ⟨.refl db, hfree⟩
  · rwa [Nat.zero_add] at hloop
  · obtain ⟨hposts, hfree'⟩ := hserve s s' ch k hs.2 hrun
    exact ⟨hs.1.trans hposts, hfree'⟩

theorem enqueueIncidentTx_posts (hids : Function.Injective env.ids)
    (hfree : FreeFrom env db draw) (hevent : coalesces eventType = true ∨ eventType = .reminder)
    (h : enqueueIncidentTx env draw db incidentID eventType severity due = .ok db') :
    Posts env incidentID eventType db db' ∧
      FreeFrom env db' (draw + 2 * (activeChannels env db).length) := by
  refine posts_of_loop (fun db db' ch k hfree h => ?_) hfree h
  simp only [enqueueForChannel] at h
  split at h
  · cases h
    exact ⟨.refl db, fun m hm => hfree m (by omega)⟩
  · refine upsertDeliveryTx_posts hids hfree (fun hco hne => ?_) h
    rcases hevent with hevent | hevent
    · rw [hevent] at hco
      cases hco
    · exact absurd hevent hne

theorem cancelDeliveries_freeFrom {p : DeliveryRow → Bool} {n : Nat} (hfree : FreeFrom env db n) :
    FreeFrom env (cancelDeliveries db now p) n := by
  intro m hm d hd
  obtain ⟨x, hx, hid, hkey⟩ := mem_cancelDeliveries hd
  rw [← hid, ← hkey]
  exact hfree m hm x hx

theorem waiting_cancelDeliveries
    (hd : d ∈ (cancelDeliveries db now (waiting incidentID channelID)).deliveries.rows) :
    waiting incidentID channelID d = false := by
  obtain ⟨x, hx, rfl⟩ := List.mem_map.mp hd
  split
  · simp [waiting, cancelDelivery]
  · next hw => exact Bool.not_eq_true _ ▸ hw

theorem resolveForChannel_posts (hids : Function.Injective env.ids) {ch : ChannelRow}
    (hfree : FreeFrom env db draw) (h : resolveForChannel env incidentID now db ch draw = .ok db') :
    Posts env incidentID .resolved db db' ∧ FreeFrom env db' (draw + 2) := by
  have hcancel : ∀ {p}, (∀ d, p d = true → waiting incidentID ch.id d = true) →
      Posts env incidentID .resolved db (cancelDeliveries db now p) := fun hp =>
    ⟨.single ⟨ch.id, .cancel now _ rfl hp⟩, fun hwf => hwf.cancel now _⟩
  unfold resolveForChannel at h
  split at h
  · cases h
    refine ⟨hcancel fun d hd => ?_, fun m hm => cancelDeliveries_freeFrom hfree m (by omega)⟩
    exact (Bool.and_eq_true _ _ ▸ hd).1
  · obtain ⟨hposts, hfree'⟩ := upsertDeliveryTx_posts hids (cancelDeliveries_freeFrom hfree)
      (fun _ _ x hx => waiting_cancelDeliveries hx) h
    exact ⟨(hcancel fun _ hd => hd).trans hposts, hfree'⟩

theorem enqueueResolutionTx_posts (hids : Function.Injective env.ids) (hfree : FreeFrom env db draw)
    (h : enqueueResolutionTx env draw db incidentID now = .ok db') :
    Posts env incidentID .resolved db db' :=
  (posts_of_loop (fun _ _ _ _ hfree h => resolveForChannel_posts hids hfree h) hfree h).1

/-! ## Transactions as edits -/

def Drawn (env : Ambient) (db db' : Database) : Prop :=
  ∀ i' ∈ db'.incidents.rows, (∃ i ∈ db.incidents.rows, i.id = i'.id) ∨
    ∃ n, i'.id = "inc_" ++ env.ids n

theorem drawn_of_eq (h : db'.incidents = db.incidents) : Drawn env db db' :=
  fun i' hi' => .inl ⟨i', h ▸ hi', rfl⟩

theorem drawn_updateIncidents (env : Ambient) (p : IncidentRow → Bool)
    {f : IncidentRow → IncidentRow} (hf : ∀ i, (f i).id = i.id) :
    Drawn env db { db with incidents := db.incidents.update p f hf } := by
  intro i' hi'
  rcases (Table.mem_update hf).mp hi' with ⟨hi', -⟩ | ⟨i, hi, -, rfl⟩
  · exact .inl ⟨i', hi', rfl⟩
  · exact .inl ⟨i, hi, (hf i).symm⟩

theorem drawn_newIncident {a : Alert} {incidents : Table IncidentRow.id}
    (h : db.incidents.insert (newIncident r env a severity now) = some incidents) :
    Drawn env db { db with incidents } := by
  intro i' hi'
  rcases mem_snoc (Table.insert_eq_some h).2 hi' with hi' | rfl
  · exact .inl ⟨i', hi', rfl⟩
  · exact .inr ⟨1, rfl⟩

theorem Drawn.trans {a b c : Database} (hab : Drawn env a b) (hbc : Drawn env b c) :
    Drawn env a c := by
  intro i hi
  rcases hbc i hi with ⟨j, hj, hid⟩ | hdraw
  · exact hid ▸ hab j hj
  · exact .inr hdraw

structure MovesOn (env : Ambient) (db db' : Database) : Prop where
  deliveries : db'.deliveries = db.deliveries
  channels : db'.channels = db.channels
  kept : Extends db db'
  drawn : Drawn env db db'

theorem MovesOn.refl (env : Ambient) (db : Database) : MovesOn env db db :=
  ⟨rfl, rfl, .refl db, drawn_of_eq rfl⟩

theorem MovesOn.trans {a b c : Database} (hab : MovesOn env a b) (hbc : MovesOn env b c) :
    MovesOn env a c :=
  ⟨hbc.deliveries.trans hab.deliveries, hbc.channels.trans hab.channels, hab.kept.trans hbc.kept,
    hab.drawn.trans hbc.drawn⟩

def JoinedBy (env : Ambient) (db : Database) (group incidentID : String) : Prop :=
  (∃ i, openIncident db group = some i ∧ i.id = incidentID) ∨
    (incidentID = "inc_" ++ env.ids 1 ∧ db.incidents.has incidentID = false)

theorem joinIncident_moves {alertID : String} {notify : Bool}
    (h : joinIncident env db incidentID alertID eventType severity now notify = .ok db')
    (hopen : ∀ i ∈ db.incidents.rows, i.id = incidentID → i.status = .opened) :
    ∃ db₁, MovesOn env db db₁ ∧ db₁.incidents = db.incidents ∧
      ((notify = true ∧ enqueueIncidentTx env 2 db₁ incidentID eventType severity
          (now + 15 * second) = .ok db') ∨ (notify = false ∧ db' = db₁)) := by
  obtain ⟨db₁, h₁, hnotify⟩ := joinIncident_steps h
  obtain ⟨-, -, hrows, hframe⟩ := insertMembership_ok h₁
  have hincidents : db₁.incidents = db.incidents := by rw [hframe]
  exact ⟨db₁, ⟨by rw [hframe], by rw [hframe], extends_membership hrows hincidents hopen,
    drawn_of_eq hincidents⟩, hincidents, hnotify⟩

theorem alertFiredTx_moves {a : Alert} {notify : Bool}
    (h : alertFiredTx r env db a now notify = .ok db') :
    ∃ db₁ incidentID eventType severity, MovesOn env db db₁ ∧
      JoinedBy env db (groupFor a).key incidentID ∧
      (∃ i ∈ db₁.incidents.rows, i.id = incidentID ∧ i.status = .opened) ∧
      coalesces eventType = true ∧
      ((notify = true ∧ enqueueIncidentTx env 2 db₁ incidentID eventType severity
          (now + 15 * second) = .ok db') ∨ (notify = false ∧ db' = db₁)) := by
  rcases alertFiredTx_cases h with ⟨severity, incidents, -, -, hins, hjoin⟩ | ⟨i, hsome, hjoin⟩
  · obtain ⟨hnew, hrows⟩ := Table.insert_eq_some hins
    obtain ⟨db₁, hmoves, hincidents, hnotify⟩ := joinIncident_moves hjoin
      fun i hi hid => opened_newIncident hins hi hid
    have hstart : MovesOn env db { db with incidents } :=
      ⟨rfl, rfl, extends_newIncident hins, drawn_newIncident hins⟩
    refine ⟨db₁, _, _, _, hstart.trans hmoves, .inr ⟨rfl, hnew⟩,
      ⟨newIncident r env a severity now, ?_, rfl, rfl⟩, rfl, hnotify⟩
    rw [hincidents, hrows]
    exact List.mem_append_right _ List.mem_cons_self
  · obtain ⟨db₁, hmoves, hincidents, hnotify⟩ := joinIncident_moves hjoin
      fun j hj hid => opened_touchIncident hsome hj hid
    have hstart : MovesOn env db (touchIncident db i.id (escalate i a) now) :=
      ⟨rfl, rfl, extends_touchIncident .., drawn_updateIncidents _ _ _⟩
    refine ⟨db₁, _, _, _, hstart.trans hmoves, .inl ⟨i, hsome, rfl⟩, ?_, rfl, hnotify⟩
    obtain ⟨j, hj, hid⟩ := exists_touchIncident (openIncident_eq_some hsome).1
    exact ⟨j, hincidents ▸ hj, hid, opened_touchIncident hsome hj hid⟩

theorem alertFiredTx_posts {a : Alert} {notify : Bool}
    (hids : Function.Injective env.ids) (hfree : FreeFrom env db 2)
    (h : alertFiredTx r env db a now notify = .ok db') :
    ∃ db₁ incidentID eventType, MovesOn env db db₁ ∧ JoinedBy env db (groupFor a).key incidentID ∧
      (∃ i ∈ db₁.incidents.rows, i.id = incidentID ∧ i.status = .opened) ∧
      coalesces eventType = true ∧ Posts env incidentID eventType db₁ db' ∧
      (notify = false → db' = db₁) := by
  obtain ⟨db₁, incidentID, eventType, _, hmoves, hjoined, hopened, hco, hnotify⟩ :=
    alertFiredTx_moves h
  refine ⟨db₁, incidentID, eventType, hmoves, hjoined, hopened, hco, ?_⟩
  rcases hnotify with ⟨rfl, henq⟩ | ⟨rfl, rfl⟩
  · refine ⟨(enqueueIncidentTx_posts hids ?_ (.inl hco) henq).1, nofun⟩
    intro m hm d hd
    rw [hmoves.deliveries] at hd
    exact hfree m hm d hd
  · exact ⟨.refl _, fun _ => rfl⟩

/-- `AlertResolvedTx` moves incidents on, and edits the deliveries of the
incident it closes. -/
theorem alertResolvedTx_posts {alertID : String} (hids : Function.Injective env.ids)
    (hfree : FreeFrom env db 2) (h : alertResolvedTx env db alertID now = .ok db') :
    MovesOn env db db' ∨ ∃ db₁, ∃ m ∈ db.incidentAlerts.rows, m.alertId = alertID ∧
      firingMembers (leaveIncident db alertID now) m.incidentId = [] ∧ MovesOn env db db₁ ∧
      (∀ i ∈ db₁.incidents.rows, i.id = m.incidentId → i.status = .resolved) ∧
      enqueueResolutionTx env 2 db₁ m.incidentId now = .ok db' ∧
      Posts env m.incidentId .resolved db₁ db' := by
  rcases alertResolvedTx_cases h with ⟨-, rfl⟩ | ⟨m, hm, hal, ⟨hnil, hclose⟩ | ⟨-, rfl⟩⟩
  · exact .inl (.refl env _)
  · refine .inr ⟨closeIncident (leaveIncident db alertID now) m.incidentId now, m, hm, hal, hnil,
      ⟨rfl, rfl, ?_, ?_⟩, ?_, hclose, enqueueResolutionTx_posts hids hfree hclose⟩
    · exact (extends_leaveIncident ..).trans (extends_closeIncident ..)
    · exact @drawn_updateIncidents (leaveIncident db alertID now) env _ _ _
    · intro i hi hid
      rcases mem_closeIncident.mp hi with ⟨-, hne⟩ | ⟨j, -, -, rfl⟩
      · exact absurd hid hne
      · rfl
  · refine .inl ⟨rfl, rfl, (extends_leaveIncident ..).trans (extends_touchIncident ..), ?_⟩
    exact @drawn_updateIncidents (leaveIncident db alertID now) env _ _ _

theorem alertFiredTx_quiet {a : Alert}
    (h : alertFiredTx r env db a now false = .ok db') : MovesOn env db db' := by
  obtain ⟨db₁, _, _, _, hmoves, -, -, -, ⟨hnotify, -⟩ | ⟨-, rfl⟩⟩ := alertFiredTx_moves h
  · cases hnotify
  · exact hmoves

theorem reconcile_movesOn (h : reconcile r env db now = .ok db') :
    MovesOn env db db' := by
  refine foldlM_ok_rel (R := MovesOn env) (MovesOn.refl env) MovesOn.trans
    (fun a s s' hs => ?_) h
  obtain ⟨s₁, h₁, h₂⟩ := bind_ok.mp hs
  cases h₂
  have hfired := alertFiredTx_quiet h₁
  have hmoves : MovesOn env s s₁ := by
    refine ⟨hfired.deliveries, hfired.channels, hfired.kept, fun i hi => ?_⟩
    -- the draws of the turn are draws of the call
    exact (hfired.drawn i hi).imp_right fun ⟨n, hn⟩ => ⟨a.2 + n, hn⟩
  refine hmoves.trans ⟨rfl, rfl, extends_updateIncidents _ _ ?_, drawn_updateIncidents _ _ _⟩
  exact fun i => ⟨Nat.le_refl _, fun h => h⟩

/-- What postponing a reminder and queueing one for an open incident keep,
`ScheduleReminders` keeps. -/
theorem scheduleReminders_invariant {interval : Duration} (hids : Function.Injective env.ids)
    (hfree : FreeFrom env db 0) (h : scheduleReminders env db now interval = .ok db')
    (hpostpone : ∀ s id next, I s → I (postponeReminder s id next))
    (hposts : ∀ i ∈ dueReminders env db now, ∀ s s', Posts env i.id .reminder s s' → I s → I s')
    (hI : I db) : I db' := by
  -- the `k`-th incident draws after the channels of the `k` incidents before it
  refine (foldlM_zipIdx_ok (k := 0) (fun k s => s.channels = db.channels ∧
    FreeFrom env s (2 * (activeChannels env db).length * k) ∧ I s) (fun i hi k s s' hs hrun => ?_) h
    ⟨rfl, by simpa using hfree, hI⟩).2.2
  obtain ⟨hch, hfree, hI⟩ := hs
  have hactive : activeChannels env s = activeChannels env db := by
    unfold activeChannels
    rw [hch]
  unfold remind at hrun
  rw [hactive] at hrun
  have hfree' : FreeFrom env (postponeReminder s i.id
      (now + if interval ≤ 0 then 2 * hour else interval))
      (2 * (activeChannels env db).length * k) := hfree
  obtain ⟨hqueued, hfree₁⟩ := enqueueIncidentTx_posts hids hfree' (.inr rfl) hrun
  refine ⟨?_, ?_, ?_⟩
  · rw [hqueued.edits.frame]
    exact hch
  · rw [Nat.mul_succ]
    rw [← hactive] at hfree₁ ⊢
    exact hfree₁
  · exact hposts i hi _ _ hqueued (hpostpone _ _ _ hI)

/-! ## A rule for everything others do to the database -/

/-- Deliveries are as they were and incidents moved on; no incident has the id of
one that a message tells and that is gone. -/
structure Quiet (w : Service capacity) (db db' : Database) : Prop where
  deliveries : db'.deliveries = db.deliveries
  kept : Extends db db'
  known : ∀ i' ∈ db'.incidents.rows, (∃ i ∈ db.incidents.rows, i.id = i'.id) ∨
    i'.id ∉ w.mentioned

theorem Quiet.of_eq (hdeliveries : db'.deliveries = db.deliveries)
    (hincidents : db'.incidents = db.incidents)
    (hmembers : db'.incidentAlerts = db.incidentAlerts) : Quiet w db db' :=
  ⟨hdeliveries, .of_eq hincidents hmembers, fun i hi => .inl ⟨i, hincidents ▸ hi, rfl⟩⟩

theorem Quiet.refl (w : Service capacity) (db : Database) : Quiet w db db := .of_eq rfl rfl rfl

theorem Quiet.trans {a b c : Database} (hab : Quiet w a b) (hbc : Quiet w b c) : Quiet w a c := by
  refine ⟨hbc.deliveries.trans hab.deliveries, hab.kept.trans hbc.kept, fun i hi => ?_⟩
  rcases hbc.known i hi with ⟨j, hj, hid⟩ | hnew
  · exact hid ▸ hab.known j hj
  · exact .inr hnew

theorem MovesOn.quiet (h : MovesOn env db db') (hfresh : FreshFor env w) : Quiet w db db' := by
  refine ⟨h.deliveries, h.kept, fun i hi => (h.drawn i hi).imp_right ?_⟩
  rintro ⟨n, hn⟩ hmentioned
  exact hfresh.incidents n i.id hmentioned hn

/-- Deliveries are as they were, and so are incidents, except for their reminders. -/
structure Still (db db' : Database) : Prop where
  deliveries : db'.deliveries = db.deliveries
  incidents : ∃ f : IncidentRow → IncidentRow, db'.incidents.rows = db.incidents.rows.map f ∧
    ∀ i, (f i).id = i.id ∧ (f i).version = i.version ∧ (f i).status = i.status

theorem still_events (db : Database) (events : Table EventRow.id) : Still db { db with events } :=
  ⟨rfl, fun i => i, (List.map_id' _).symm, fun _ => ⟨rfl, rfl, rfl⟩⟩

theorem still_postponeReminder (db : Database) (incidentID : String) (next : Time) :
    Still db (postponeReminder db incidentID next) := by
  refine ⟨rfl, _, rfl, fun i => ?_⟩
  split <;> exact ⟨rfl, rfl, rfl⟩

def Change.cancels : Change → Option (String × Time)
  | .patchChannel id false _ _ now => some (id, now)
  | .deleteChannel id now => some (id, now)
  | _ => none

def Closes (db : Database) (alertID : String) (now : Time) (incidentID : String) : Prop :=
  (∃ m ∈ db.incidentAlerts.rows, m.alertId = alertID ∧ m.incidentId = incidentID) ∧
    firingMembers (leaveIncident (resolveAlert db alertID now) alertID now) incidentID = []

def Change.Touches (w : Service capacity) (env : Ambient) (eventType : DeliveryEvent)
    (incidentID : String) : Change → Prop
  | .transact (.fire (some _) env' o) => env = env' ∧ coalesces eventType = true ∧
      JoinedBy env w.db (groupFor (firedAlert env o)).key incidentID
  | .transact (.resolve env' o) => env = env' ∧ eventType = .resolved ∧
      ∃ a, firingAlert w.db o.key = some a ∧ Closes w.db a.id o.now incidentID
  | .transact (.scheduleReminders env' now _) => env = env' ∧ eventType = .reminder ∧
      ∃ i ∈ dueReminders env w.db now, i.id = incidentID
  | _ => False

def Stands (eventType : DeliveryEvent) (incidentID : String) (db : Database) : Prop :=
  if eventType = .resolved then
    ∀ i ∈ db.incidents.rows, i.id = incidentID → i.status = .resolved
  else ∃ i ∈ db.incidents.rows, i.id = incidentID ∧ i.status = .opened

theorem Change.Touches.fresh (h : c.Touches w env eventType incidentID)
    (hen : c.Enabled w) : FreshFor env w := by
  unfold Change.Touches at h
  split at h
  · obtain ⟨rfl, -⟩ := h
    exact hen
  · obtain ⟨rfl, -⟩ := h
    exact hen
  · obtain ⟨rfl, -⟩ := h
    exact hen
  · exact h.elim

theorem Change.not_touches_of_cancels {x : String × Time} (h : c.cancels = some x) :
    ¬ c.Touches w env eventType incidentID := by
  unfold Change.Touches
  split
  · cases h
  · cases h
  · cases h
  · exact fun h => h

theorem Edit.stands (h : Edit env incidentID channelID eventType db db')
    {id : String} (hs : Stands e id db) : Stands e id db' := by
  unfold Stands at hs ⊢
  rw [h.frame]
  exact hs

theorem mem_dueReminders {i : IncidentRow} (h : i ∈ dueReminders env db now) :
    i ∈ db.incidents.rows ∧ i.status = .opened := by
  unfold dueReminders at h
  rw [List.mem_filter, RowOrder.mem_arrange, Bool.and_eq_true, decide_eq_true_eq] at h
  exact ⟨h.1, h.2.1⟩

theorem Stands.postpone {id : String} (hs : Stands e id db)
    (incidentID : String) (next : Time) : Stands e id (postponeReminder db incidentID next) := by
  unfold Stands at hs ⊢
  split
  · next he =>
    rw [if_pos he] at hs
    intro i hi hid
    rcases (Table.mem_update_key (by intro i; rfl)).mp hi with ⟨hi, -⟩ | ⟨j, hj, -, rfl⟩
    · exact hs i hi hid
    · exact hs j hj hid
  · next he =>
    rw [if_neg he] at hs
    obtain ⟨i, hi, hid, hopen⟩ := hs
    exact ⟨_, List.mem_map_of_mem hi, by split <;> exact hid, by split <;> exact hopen⟩

/-- What a property of the database has to survive, one clause for each way in
which a change can touch deliveries. -/
structure Survives (w : Service capacity) (c : Change) (I : Database → Prop) : Prop where
  quiet : ∀ db, Quiet w w.db db → I db
  still : ∀ a b, Still a b → I a → I b
  edit : ∀ env eventType incidentID, c.Touches w env eventType incidentID →
    ∀ channelID a b, Stands eventType incidentID a →
      Edit env incidentID channelID eventType a b → I a → I b
  expire : ∀ now, c = .transact (.cleanupDeliveries now) → I (cleanupDeliveries w.db now)
  forget : ∀ now, c = .transact (.cleanupIncidents now) → I (cleanupIncidents w.db now)
  cancel : ∀ id now db, c.cancels = some (id, now) → Quiet w w.db db →
    I (cancelPending db id now)
  test : ∀ env channelID now deliveries, c = .test env channelID now →
    (∀ x ∈ w.db.deliveries.rows, x.idempotencyKey ≠ "idem_" ++ env.ids 1) →
    deliveries.rows = w.db.deliveries.rows ++ [testDelivery env channelID now] →
    I { w.db with deliveries }
  retry : ∀ id now db, c = .retry id now → retry w.db id now = .ok db → I db

theorem Survives.edits (h : Survives w c I)
    (htouches : c.Touches w env eventType incidentID) {a b : Database}
    (hstands : Stands eventType incidentID a) (hedits : Edits env incidentID eventType a b)
    (hI : I a) : I b := by
  refine (hedits.invariant (I := fun db => Stands eventType incidentID db ∧ I db) ?_
    ⟨hstands, hI⟩).2
  rintro channelID a b hedit ⟨hs, hI⟩
  exact ⟨hedit.stands hs, h.edit env eventType incidentID htouches channelID a b hs hedit hI⟩

theorem Survives.keeps (h : Survives w c I) (hen : c.Enabled w)
    (hrun : c.run w.db = .ok db') : I db' := by
  cases c with
  | transact t =>
    cases t with
    | fire sink env o =>
      obtain ⟨db₁, db₂, events, h₁, h₂, rfl⟩ := recordTriggered_steps hrun
      obtain ⟨-, -, -, -, hframe⟩ := insertAlert_ok h₁
      have hquiet : Quiet w w.db db₁ := by rw [hframe]; exact .of_eq rfl rfl rfl
      cases sink with
      | none =>
        cases h₂
        exact h.quiet _ (hquiet.trans (.of_eq rfl rfl rfl))
      | some r =>
        have hfree : FreeFrom env db₁ 2 := by rw [hframe]; exact Fresh.freeFrom hen.db 2
        obtain ⟨db₃, incidentID, eventType, hmoves, hjoin, hopen, hco, hposts, -⟩ :=
          alertFiredTx_posts hen.db.distinct hfree h₂
        have hjoin' : JoinedBy env w.db (groupFor (firedAlert env o)).key incidentID := by
          unfold JoinedBy openIncident at hjoin ⊢
          rw [hframe] at hjoin
          exact hjoin
        refine h.still _ _ (still_events _ events) (h.edits ⟨rfl, hco, hjoin'⟩ ?_ hposts.edits
          (h.quiet _ (hquiet.trans (hmoves.quiet hen))))
        unfold Stands
        rw [if_neg (by rintro rfl; cases hco)]
        exact hopen
    | observe o =>
      cases hrun
      exact h.quiet _ (.of_eq rfl rfl rfl)
    | resolve env o =>
      rcases recordResolved_steps hrun with rfl | ⟨a, db₁, events, ha, h₁, rfl⟩
      · exact h.quiet _ (.refl w _)
      have hfree : FreeFrom env (resolveAlert w.db a.id o.now) 2 := Fresh.freeFrom hen.db 2
      have hquiet : Quiet w w.db (resolveAlert w.db a.id o.now) := .of_eq rfl rfl rfl
      refine h.still _ _ (still_events _ events) ?_
      rcases alertResolvedTx_posts hen.db.distinct hfree h₁ with
        hmoves | ⟨db₂, m, hm, hal, hnil, hmoves, hres, -, hposts⟩
      · exact h.quiet _ (hquiet.trans (hmoves.quiet hen))
      · exact h.edits ⟨rfl, rfl, a, ha, ⟨m, hm, hal, rfl⟩, hnil⟩ hres hposts.edits
          (h.quiet _ (hquiet.trans (hmoves.quiet hen)))
    | reconcile r env now => exact h.quiet _ ((reconcile_movesOn hrun).quiet hen)
    | scheduleReminders env now interval =>
      -- the due incidents stay open while their reminders are queued
      refine (scheduleReminders_invariant hen.db.distinct (Fresh.freeFrom hen.db 0) hrun
        (I := fun db => (∀ i ∈ dueReminders env w.db now, Stands .reminder i.id db) ∧ I db)
        ?_ ?_ ⟨?_, h.quiet _ (.refl w _)⟩).2
      · rintro s id next ⟨hs, hI⟩
        exact ⟨fun i hi => (hs i hi).postpone id next,
            h.still _ _ (still_postponeReminder s id next) hI⟩
      · rintro i hi s s' hposts ⟨hs, hI⟩
        refine ⟨fun j hj => ?_, h.edits ⟨rfl, rfl, i, hi, rfl⟩ (hs i hi) hposts.edits hI⟩
        exact hposts.edits.invariant (I := Stands .reminder j.id)
          (fun _ _ _ hedit hs => hedit.stands hs) (hs j hj)
      · intro i hi
        obtain ⟨hmem, hopen⟩ := mem_dueReminders hi
        exact ⟨i, hmem, rfl, hopen⟩
    | cleanupDeliveries now =>
      cases hrun
      exact h.expire now rfl
    | cleanupIncidents now =>
      cases hrun
      exact h.forget now rfl
    | cleanupAlerts now =>
      cases hrun
      refine h.quiet _ ⟨rfl, ?_, fun i hi => .inl ⟨i, hi, rfl⟩⟩
      exact ⟨fun i hi => ⟨i, hi, rfl, Nat.le_refl _, fun h => h⟩,
        fun m hm => .inl ⟨m, (mem_cleanup_members.mp hm).1, rfl⟩⟩
  | elsewhere db =>
    cases hrun
    exact h.quiet db' (.of_eq hen.2.2.2.2 hen.2.1 hen.2.2.1)
  | createChannel id enabled minimumSeverity notifyResolved =>
    have hframe := createChannel_ok hrun
    exact h.quiet db' (.of_eq (by rw [hframe]) (by rw [hframe]) (by rw [hframe]))
  | patchChannel id enabled minimumSeverity notifyResolved now =>
    obtain ⟨channels, hcase⟩ := patchChannel_ok hrun
    have hquiet : Quiet w w.db { w.db with channels } := .of_eq rfl rfl rfl
    rcases hcase with ⟨-, rfl⟩ | ⟨rfl, rfl⟩
    · exact h.quiet _ hquiet
    · exact h.cancel id now _ rfl hquiet
  | deleteChannel id now =>
    obtain ⟨channels, rfl⟩ := deleteChannel_ok hrun
    exact h.cancel id now _ rfl (.of_eq rfl rfl rfl)
  | test env channelID now =>
    obtain ⟨hkey, -, hrows, hframe⟩ := insertDelivery_ok (test_ok hrun)
    rw [hframe]
    exact h.test env channelID now _ rfl hkey hrows
  | retry id now => exact h.retry id now db' rfl hrun

end Binnacle.Notifications
