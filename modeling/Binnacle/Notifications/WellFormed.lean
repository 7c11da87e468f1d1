import Binnacle.Notifications.Evolution

/-!
# Delivery rows are well-formed

Nine operations write the columns of a delivery. The message of a row is built before it is
known which row it will be stored in, from the id, key and event of a waiting row or from new
draws, and the times of a row are set by whoever changes its status.

- `WellFormed`: the message names its row, and the times fit the status;
- `deliveries_wellFormed`: so it is in every reachable database, and `Cleanup` finds every row
  that is finished.
-/

namespace Binnacle.Notifications

open Relational Runs Alerts Storage

variable {capacity draw : Nat} {db db' : Database} {d : DeliveryRow} {env : Ambient}
  {incidentID : String} {eventType : DeliveryEvent} {now : Time} {w : Service capacity}

theorem WellFormed.detach (h : WellFormed d) : WellFormed { d with incidentId := none } :=
  ⟨h.id, h.key, h.event, h.pending, h.inProgress, h.finished⟩

theorem WellFormed.retry (h : WellFormed d) (now : Time) : WellFormed (retryDelivery now d) :=
  ⟨h.id, h.key, h.event, fun _ => Option.some_ne_none _, nofun,
    nofun⟩

theorem AllWellFormed.survives {c : Change} (h : AllWellFormed w.db)
    (hc : ∀ env eventType incidentID, ¬ c.Touches w env eventType incidentID) :
    Survives w c AllWellFormed := by
  constructor
  case quiet => exact fun db hq => h.of_eq hq.deliveries
  case still => exact fun a b hs ha => ha.of_eq hs.deliveries
  case edit => exact fun env eventType incidentID htouches => absurd htouches (hc _ _ _)
  case expire => exact fun now _ d hd => h d (Table.mem_delete.mp hd).1
  case forget =>
    intro now _ x hx
    obtain ⟨d, hd, rfl | ⟨-, rfl⟩⟩ := mem_cleanupIncidents hx
    · exact h x hd
    · exact (h d hd).detach
  case cancel => exact fun id now db _ hq => (h.of_eq hq.deliveries).cancel now _
  case test =>
    intro env channelID now deliveries _ _ hrows
    exact h.insert hrows ⟨rfl, rfl, rfl, fun _ => Option.some_ne_none _,
      nofun, nofun⟩
  case retry =>
    intro id now db _ hrun x hx
    obtain ⟨d, hd, rfl | ⟨-, rfl⟩⟩ := mem_retry hrun hx
    · exact h x hd
    · exact (h d hd).retry now

theorem Change.wellFormed {c : Change} (hen : c.Enabled w)
    (hrun : c.run w.db = .ok db) (h : AllWellFormed w.db) : AllWellFormed db := by
  cases c with
  | transact t =>
    cases t with
    | fire sink env o =>
      obtain ⟨db₁, db₂, events, h₁, h₂, rfl⟩ := recordTriggered_steps hrun
      obtain ⟨-, -, -, -, hframe⟩ := insertAlert_ok h₁
      have hwf : AllWellFormed db₁ := h.of_eq (by rw [hframe])
      refine AllWellFormed.of_eq (a := db₂) ?_ rfl
      cases sink with
      | none =>
        cases h₂
        exact hwf
      | some r =>
        have hfree : FreeFrom env db₁ 2 := by rw [hframe]; exact Fresh.freeFrom hen.db 2
        obtain ⟨db₃, _, _, hmoves, -, -, -, hposts, -⟩ :=
          alertFiredTx_posts hen.db.distinct hfree h₂
        exact hposts.named (hwf.of_eq hmoves.deliveries)
    | resolve env o =>
      rcases recordResolved_steps hrun with rfl | ⟨a, db₁, events, -, h₁, rfl⟩
      · exact h
      have hwf : AllWellFormed (resolveAlert w.db a.id o.now) := h.of_eq rfl
      refine AllWellFormed.of_eq (a := db₁) ?_ rfl
      have hfree : FreeFrom env (resolveAlert w.db a.id o.now) 2 := Fresh.freeFrom hen.db 2
      rcases alertResolvedTx_posts hen.db.distinct hfree h₁ with
        hmoves | ⟨db₂, m, -, -, -, hmoves, -, -, hposts⟩
      · exact hwf.of_eq hmoves.deliveries
      · exact hposts.named (hwf.of_eq hmoves.deliveries)
    | scheduleReminders env now interval =>
      exact scheduleReminders_invariant hen.db.distinct (Fresh.freeFrom hen.db 0) hrun
        (fun _ _ _ hs => hs.of_eq rfl) (fun _ _ _ _ hposts => hposts.named) h
    | _ =>
      refine (h.survives ?_).keeps hen hrun
      exact fun _ _ _ htouches => htouches
  | _ =>
    refine (h.survives ?_).keeps hen hrun
    exact fun _ _ _ htouches => htouches

/-! ## Workers -/

theorem WellFormed.start (h : WellFormed d) (now : Time) : WellFormed (startDelivery now d) :=
  ⟨h.id, h.key, h.event, nofun, fun _ => Option.some_ne_none _,
    nofun⟩

theorem WellFormed.finish (h : WellFormed d) (attempts : Nat) (o : Outcome) (now : Time) :
    WellFormed (finishDelivery attempts o now d) := by
  unfold finishDelivery
  split
  · exact ⟨h.id, h.key, h.event, nofun, nofun,
      fun _ => ⟨Option.some_ne_none _, rfl⟩⟩
  · split
    · exact ⟨h.id, h.key, h.event, fun _ => Option.some_ne_none _, nofun,
        nofun⟩
    · exact ⟨h.id, h.key, h.event, nofun, nofun,
        fun _ => ⟨Option.some_ne_none _, rfl⟩⟩

theorem wellFormed_step {m : Move} (hx : Exclusive w) (hen : m.Enabled w)
    (h : AllWellFormed w.db) : AllWellFormed (w.step m).db := by
  have hpreserves : Preserves w m fun db _ => AllWellFormed db := by
    constructor
    case quiet => exact fun db hq => h.of_eq hq.deliveries
    case write =>
      rintro c db rfl hrun
      exact Change.wellFormed hen hrun h
    case restart =>
      intro r env now db _ hq
      refine AllWellFormed.of_eq (h.update _ fun d _ _ hd => ?_) hq.deliveries
      exact ⟨hd.id, hd.key, hd.event, fun _ => Option.some_ne_none _, nofun,
        nofun⟩
    case claim => exact fun _ now _ _ _ _ => h.update _ fun _ _ _ hd => hd.start now
    case send => exact fun _ _ _ _ _ => h
    case finish =>
      exact fun _ now _ o attempts _ _ _ _ _ => h.update _ fun _ _ _ hd => hd.finish attempts o now
  exact hpreserves.step hx hen h

/-- A finished row is found by every `Cleanup` that is late enough. -/
theorem WellFormed.expires (h : WellFormed d) (hs : d.status.finished = true) :
    ∃ late, ∀ now, late ≤ now → expired now d = true := by
  obtain ⟨done, hdone⟩ := Option.ne_none_iff_exists'.mp (h.finished hs).1
  refine ⟨ofUnix (done + 1) + 90 * 24 * hour, fun now hnow => ?_⟩
  have hlater : done + 1 ≤ unix (now - 90 * 24 * hour) :=
    le_unix.mpr (Int.le_sub_right_of_add_le hnow)
  unfold expired
  rw [hs, hdone]
  simpa using Int.lt_of_add_one_le hlater

/-- In every reachable database the message of each delivery names its row, keys are unique,
and the times of a row fit its status; every finished row is gone after a `Cleanup` that comes
late enough. -/
theorem deliveries_wellFormed {w : Service capacity} (h : (services capacity).Reachable w) :
    (∀ d ∈ w.db.deliveries.rows, WellFormed d) ∧
    (w.db.deliveries.rows.map DeliveryRow.idempotencyKey).Nodup ∧
    ∀ d ∈ w.db.deliveries.rows, d.status.finished = true →
      ∃ late, ∀ now, late ≤ now → (cleanup w.db now).deliveries.has d.id = false := by
  have hall : Exclusive w ∧ Consistent w.db ∧ AllWellFormed w.db := by
    refine h.invariant (fun w => Exclusive w ∧ Consistent w.db ∧ AllWellFormed w.db) ⟨?_, ?_, ?_⟩ ?_
    · exact exclusive_start _ fun d hd => absurd hd List.not_mem_nil
    · exact ⟨List.nodup_nil, fun d hd => absurd hd List.not_mem_nil⟩
    · exact fun d hd => absurd hd List.not_mem_nil
    · rintro w m w' ⟨hx, hc, hwf⟩ ⟨hen, rfl⟩
      exact ⟨hx.step hen, consistent_step hx hen hc, wellFormed_step hx hen hwf⟩
  obtain ⟨-, hkeys, hwf⟩ := hall
  refine ⟨hwf, hkeys.keys, fun d hd hs => ?_⟩
  obtain ⟨late, hlate⟩ := (hwf d hd).expires hs
  refine ⟨late, fun now hnow => Table.has_eq_false_iff.mpr fun x hx hid => ?_⟩
  -- what `Cleanup` leaves was not expired, and ids are unique
  obtain ⟨e, he, hsame⟩ := mem_cleanupIncidents hx
  obtain ⟨he, hkept⟩ := Table.mem_delete.mp he
  have heid : e.id = d.id := by
    rcases hsame with rfl | ⟨-, rfl⟩
    · exact hid
    · exact hid
  rw [Table.eq_of_key_eq he hd heid, hlate now hnow] at hkept
  cases hkept

def rejected : List Move :=
  announce ++ (attemptAt 20 ++
    [.respond 0 ⟨false, "http_404", 0⟩, .count 0, .finish 0 (21 * second), .release 0])

theorem along_rejected : Along Service.step Move.Enabled (after []) rejected :=
  along_announce.append
    (.append (along_attemptAt _ 20) ⟨trivial, trivial, trivial, trivial, trivial⟩)

/-- The rejected delivery is removed some day. -/
theorem deliveries_wellFormed_rejected :
    (after rejected).db.deliveries.rows.map DeliveryRow.status = [.permanentFailure] ∧
    ∀ d ∈ (after rejected).db.deliveries.rows, d.status.finished = true →
      ∃ late, ∀ now, late ≤ now → (cleanup (after rejected).db now).deliveries.has d.id = false :=
  ⟨by decide +kernel, (deliveries_wellFormed (reachable_after along_rejected)).2.2⟩

end Binnacle.Notifications
