import Binnacle.Notifications.Evolution

/-!
# One key, one message

A delivery keeps its idempotency key for life. Retries, restarts and `Retry`
send the same row again, with the message it has then; and an alert that joins
an open incident overwrites the message of a delivery that waits, whether or
not it was sent before. So a key means one message exactly as long as no alert
overwrites a delivery that was already sent (`Spares`).

- `one_key_one_message`: runs that spare what was sent;
- `one_key_two_messages`: a failed attempt, a second alert and the retry.
-/

namespace Binnacle.Notifications

open Relational Runs Alerts Storage

variable {capacity : Nat} {db : Database} {sent : List Parcel} {d : DeliveryRow} {env : Ambient}
  {incidentID : String} {eventType : DeliveryEvent} {w : Service capacity}

def Spares (w : Service capacity) : Move → Prop
  | .write (.transact (.fire (some _) env o)) =>
    ∀ i, openIncident w.db (groupFor (firedAlert env o)).key = some i →
      ∀ d ∈ w.db.deliveries.rows, d.incidentId = some i.id → d.status = .pending →
        coalesces d.eventType = true → ∀ q ∈ w.sent, q.key ≠ d.idempotencyKey
  | _ => True

structure Told (db : Database) (sent : List Parcel) : Prop where
  rows : ∀ q ∈ sent, ∀ d ∈ db.deliveries.rows, d.idempotencyKey = q.key → d.payload = q.payload
  sent : ∀ p ∈ sent, ∀ q ∈ sent, p.key = q.key → p.payload = q.payload

theorem Told.rows_of {db' : Database} (h : Told db sent)
    (hrows : ∀ x ∈ db'.deliveries.rows, ∃ d ∈ db.deliveries.rows,
      x.idempotencyKey = d.idempotencyKey ∧ x.payload = d.payload) : Told db' sent := by
  refine ⟨fun q hq x hx hkey => ?_, h.sent⟩
  obtain ⟨d, hd, hxkey, hxpayload⟩ := hrows x hx
  rw [hxpayload]
  exact h.rows q hq d hd (hxkey.symm.trans hkey)

theorem Told.insert (h : Told db sent) {deliveries : Table DeliveryRow.id}
    (hrows : deliveries.rows = db.deliveries.rows ++ [d])
    (hkey : ∀ q ∈ sent, q.key ≠ d.idempotencyKey) : Told { db with deliveries } sent := by
  refine ⟨fun q hq x hx hxkey => ?_, h.sent⟩
  rcases mem_snoc hrows hx with hx | rfl
  · exact h.rows q hq x hx hxkey
  · exact absurd hxkey.symm (hkey q hq)

def Unsent (sent : List Parcel) (incidentID : String) (db : Database) : Prop :=
  ∀ channelID, ∀ d ∈ db.deliveries.rows, waiting incidentID channelID d = true →
    ∀ q ∈ sent, q.key ≠ d.idempotencyKey

theorem NewDelivery.unsent {channelID : String}
    (h : NewDelivery env incidentID channelID eventType db d)
    (hfresh : ∀ n, ∀ q ∈ sent, q.key ≠ "idem_" ++ env.ids n) :
    ∀ q ∈ sent, q.key ≠ d.idempotencyKey := by
  obtain ⟨n, hn⟩ := h.key
  rw [hn]
  exact hfresh n

theorem Edit.unsent {channelID : String} {db' : Database} {id : String}
    (h : Edit env incidentID channelID eventType db db')
    (hfresh : ∀ n, ∀ q ∈ sent, q.key ≠ "idem_" ++ env.ids n) (hunsent : Unsent sent id db) :
    Unsent sent id db' := by
  intro c x hx hw
  rcases h.row_cases hx with hx | ⟨d, hd, payload, next, updated, -, -, -, rfl⟩ | hnew |
    ⟨d, hd, now, -, -, rfl⟩
  · exact hunsent c x hx hw
  · exact hunsent c d hd hw
  · exact hnew.unsent hfresh
  · cases (waiting_iff.mp hw).2.2.1

theorem Edit.told {channelID : String} {db' : Database}
    (h : Edit env incidentID channelID eventType db db')
    (hfresh : ∀ n, ∀ q ∈ sent, q.key ≠ "idem_" ++ env.ids n)
    (hunsent : coalesces eventType = true → Unsent sent incidentID db) (ht : Told db sent) :
    Told db' sent := by
  refine ⟨fun q hq x hx hkey => ?_, ht.sent⟩
  rcases h.row_cases hx with hx | ⟨d, hd, payload, next, updated, hw, hco, -, rfl⟩ | hnew |
    ⟨d, hd, now, -, -, rfl⟩
  · exact ht.rows q hq x hx hkey
  · exact absurd hkey.symm (hunsent hco channelID d hd hw q hq)
  · exact absurd hkey.symm (hnew.unsent hfresh q hq)
  · exact ht.rows q hq d hd hkey

theorem FreshFor.incident_ne (h : FreshFor env w) (hc : Consistent w.db) (n : Nat)
    (hd : d ∈ w.db.deliveries.rows) : d.incidentId ≠ some ("inc_" ++ env.ids n) := by
  intro hinc
  obtain ⟨told, htold, hid⟩ := hc.addressed d hd _ hinc
  refine h.incidents n told.id ?_ hid
  refine List.mem_filterMap.mpr ⟨d.payload, ?_, by rw [htold]; rfl⟩
  exact List.mem_append_right _ (List.mem_map_of_mem hd)

theorem Spares.unsent {c : Change} (h : Spares w (.write c)) (hen : c.Enabled w)
    (hc : Consistent w.db) (htouches : c.Touches w env eventType incidentID)
    (hco : coalesces eventType = true) : Unsent w.sent incidentID w.db := by
  intro channelID d hd hw
  obtain ⟨hinc, -, hpending, hco'⟩ := waiting_iff.mp hw
  unfold Change.Touches at htouches
  split at htouches
  · obtain ⟨rfl, -, ⟨i, hopen, rfl⟩ | ⟨rfl, -⟩⟩ := htouches
    · exact h i hopen d hd hinc hpending hco'
    · exact absurd hinc (FreshFor.incident_ne hen hc 1 hd)
  · obtain ⟨-, rfl, -⟩ := htouches
    cases hco
  · obtain ⟨-, rfl, -⟩ := htouches
    cases hco
  · exact htouches.elim

theorem Change.told {c : Change} (hen : c.Enabled w) (hspares : Spares w (.write c))
    (hc : Consistent w.db) (hrun : c.run w.db = .ok db) (ht : Told w.db w.sent) :
    Told db w.sent := by
  -- while channels are served, the deliveries of the joined incident stay unsent
  let Clear (db : Database) : Prop := ∀ env eventType id, c.Touches w env eventType id →
    coalesces eventType = true → Unsent w.sent id db
  have hclear : ∀ db, Quiet w w.db db → Clear db := by
    intro db hq env e id htouches hco
    unfold Unsent
    rw [hq.deliveries]
    exact hspares.unsent hen hc htouches hco
  have hnone : ∀ {db}, (∀ env e id, ¬ c.Touches w env e id) → Clear db :=
    fun hne env e id htouches => absurd htouches (hne env e id)
  have hsurvives : Survives w c fun db => Told db w.sent ∧ Clear db := by
    constructor
    case quiet =>
      intro db hq
      exact ⟨ht.rows_of fun x hx => ⟨x, hq.deliveries ▸ hx, rfl, rfl⟩, hclear db hq⟩
    case still =>
      rintro a b hs ⟨ha, hclear⟩
      refine ⟨ha.rows_of fun x hx => ⟨x, hs.deliveries ▸ hx, rfl, rfl⟩, ?_⟩
      intro env e id htouches hco
      unfold Unsent
      rw [hs.deliveries]
      exact hclear env e id htouches hco
    case edit =>
      rintro env e id htouches channelID a b - hedit ⟨ha, hclear⟩
      have hkeys := (htouches.fresh hen).keys
      refine ⟨hedit.told hkeys (hclear env e id htouches) ha, ?_⟩
      exact fun env' e' id' h' hco' => hedit.unsent hkeys (hclear env' e' id' h' hco')
    case expire =>
      rintro now rfl
      refine ⟨ht.rows_of fun x hx => ⟨x, (Table.mem_delete.mp hx).1, rfl, rfl⟩, hnone ?_⟩
      exact fun _ _ _ h => h
    case forget =>
      rintro now rfl
      refine ⟨ht.rows_of fun x hx => ?_, hnone fun _ _ _ h => h⟩
      obtain ⟨d, hd, rfl | ⟨-, rfl⟩⟩ := mem_cleanupIncidents hx
      · exact ⟨x, hd, rfl, rfl⟩
      · exact ⟨d, hd, rfl, rfl⟩
    case cancel =>
      intro id now db hcancel hq
      refine ⟨ht.rows_of fun x hx => ?_, hnone fun env e id h => ?_⟩
      · obtain ⟨d, hd, rfl | ⟨-, -, rfl⟩⟩ := mem_cancelPending hx
        · exact ⟨x, hq.deliveries ▸ hd, rfl, rfl⟩
        · exact ⟨d, hq.deliveries ▸ hd, rfl, rfl⟩
      · exact Change.not_touches_of_cancels hcancel h
    case test =>
      rintro env channelID now deliveries rfl - hrows
      exact ⟨ht.insert hrows fun q hq => hen.keys 1 q hq, hnone fun _ _ _ h => h⟩
    case retry =>
      rintro id now db' rfl hretry
      refine ⟨ht.rows_of fun x hx => ?_, hnone fun _ _ _ h => h⟩
      obtain ⟨d, hd, rfl | ⟨-, rfl⟩⟩ := mem_retry hretry hx
      · exact ⟨x, hd, rfl, rfl⟩
      · exact ⟨d, hd, rfl, rfl⟩
  exact (hsurvives.keeps hen hrun).1

theorem Told.send (h : Told db sent) (hc : Consistent db) (hd : d ∈ db.deliveries.rows) :
    Told db (sent ++ [parcelOf d]) := by
  constructor
  · intro q hq x hx hkey
    rcases mem_snoc rfl hq with hq | rfl
    · exact h.rows q hq x hx hkey
    · rw [hc.eq_of_key_eq hx hd hkey]
      rfl
  · intro p hp q hq hkey
    rcases mem_snoc rfl hp with hp | rfl <;> rcases mem_snoc rfl hq with hq | rfl
    · exact h.sent p hp q hq hkey
    · exact (h.rows p hp d hd hkey.symm).symm
    · exact h.rows q hq d hd hkey
    · rfl

theorem told_step {m : Move} (hx : Exclusive w) (hc : Consistent w.db) (hen : m.Enabled w)
    (hspares : Spares w m) (ht : Told w.db w.sent) : Told (w.step m).db (w.step m).sent := by
  have hpreserves : Preserves w m Told := by
    constructor
    case quiet =>
      exact fun db hq => ht.rows_of fun x hx => ⟨x, hq.deliveries ▸ hx, rfl, rfl⟩
    case write =>
      rintro c db rfl hrun
      exact Change.told hen hspares hc hrun ht
    case restart =>
      refine fun r env now db _ hq => ht.rows_of fun x hx => ?_
      obtain ⟨d, hd, ⟨rfl, -⟩ | ⟨-, rfl⟩⟩ := mem_recoverDeliveries (hq.deliveries ▸ hx)
      · exact ⟨x, hd, rfl, rfl⟩
      · exact ⟨d, hd, rfl, rfl⟩
    case claim =>
      refine fun k now _ d hd hclaim => ht.rows_of fun x hx => ?_
      rcases (claimDelivery_rows hd hclaim).mp hx with ⟨hx, -⟩ | rfl
      · exact ⟨x, hx, rfl, rfl⟩
      · exact ⟨d, hd, rfl, rfl⟩
    case send => exact fun k _ d hd _ => ht.send hc hd
    case finish =>
      refine fun k now _ o attempts d _ _ _ _ => ht.rows_of fun x hx => ?_
      rcases mem_writeOutcome.mp hx with ⟨hx, -⟩ | ⟨e, he, -, rfl⟩
      · exact ⟨x, hx, rfl, rfl⟩
      · obtain ⟨hkey, hpayload, -⟩ := finishDelivery_keeps attempts o now e
        exact ⟨e, he, hkey, hpayload⟩
  exact hpreserves.step hx hen ht

/-- Requests with the same idempotency key carry the same message, in every run
in which no alert overwrites a delivery that was already sent. -/
theorem one_key_one_message {moves : List Move}
    (h : Along Service.step (fun w m => m.Enabled w ∧ Spares w m)
      (Service.start Database.empty : Service capacity) moves) :
    ∀ p ∈ (moves.foldl Service.step (Service.start Database.empty : Service capacity)).sent,
    ∀ q ∈ (moves.foldl Service.step (Service.start Database.empty : Service capacity)).sent,
      p.key = q.key → p.payload = q.payload := by
  refine (along_invariant (I := Told) ⟨?_, ?_⟩ ?_ h).sent
  · exact fun q hq => absurd hq List.not_mem_nil
  · exact fun q hq => absurd hq List.not_mem_nil
  · exact fun w m hx hc hen hspares ht => told_step hx hc hen hspares ht

/-! ## A failed attempt -/

/-- Worker 0's receiver answers 500. -/
def failAt (at_ : Int) : List Move :=
  [.respond 0 ⟨true, "http_500", 0⟩, .count 0, .finish 0 (at_ * second), .release 0]

theorem along_failAt (w : Service 8) (at_ : Int) :
    Along Service.step Move.Enabled w (failAt at_) :=
  ⟨trivial, trivial, trivial, trivial, trivial⟩

def resent : List Move := announce ++ (attemptAt 20 ++ (failAt 21 ++ attemptAt 100))

theorem along_resent : Along Service.step Move.Enabled (after []) resent :=
  along_announce.append (.append (along_attemptAt _ 20) (.append (along_failAt _ 21)
    (along_attemptAt _ 100)))

/-- Both requests have one key, and one message. -/
theorem one_key_one_message_resent :
    (after resent).sent.map Parcel.key = ["idem_xfff", "idem_xfff"] ∧
    ∀ p ∈ (after resent).sent, ∀ q ∈ (after resent).sent, p.key = q.key →
      p.payload = q.payload := by
  have hattempt : ∀ (w : Service 8) (at_ : Int), Along Service.step Spares w (attemptAt at_) :=
    fun _ _ => ⟨trivial, trivial, trivial, trivial, trivial, trivial, trivial⟩
  have hfail : ∀ (w : Service 8) (at_ : Int), Along Service.step Spares w (failAt at_) :=
    fun _ _ => ⟨trivial, trivial, trivial, trivial, trivial⟩
  have hspares : Along Service.step Spares (after []) resent := by
    -- when the alert fires nothing was sent yet
    refine .append ⟨trivial, trivial, nofun, trivial⟩ ?_
    exact .append (hattempt _ 20) (.append (hfail _ 21) (hattempt _ 100))
  exact ⟨by decide +kernel, one_key_one_message (along_resent.and hspares)⟩

/-- A second alert joins the incident between the attempts: the same key then
carries another message. -/
theorem one_key_two_messages :
    ∃ moves, Along Service.step Move.Enabled (Service.start Database.empty : Service 8) moves ∧
      ∃ p ∈ (after moves).sent, ∃ q ∈ (after moves).sent, p.key = q.key ∧
        p.payload ≠ q.payload := by
  let joined : List Move := [.write (.transact (.fire (some {}) (draws 'y') (memoryHigh 30)))]
  refine ⟨announce ++ (attemptAt 20 ++ (failAt 21 ++ (joined ++ attemptAt 100))), ?_, ?_⟩
  · refine along_announce.append (.append (along_attemptAt _ 20) (.append (along_failAt _ 21) ?_))
    exact Along.append ⟨freshFor_draws (by decide +kernel), trivial⟩ (along_attemptAt _ 100)
  · decide +kernel

end Binnacle.Notifications
