import Binnacle.Alerts.Episodes
import Binnacle.Alerts.Siblings
import Binnacle.Checks.Repository

/-!
# Alerts whose subject is withdrawn

The check that made an alert fire is deleted or disabled, or the rule of the alert is disabled,
and passes go on. Evaluation states only advance for the keys that a pass comes to.

- `Orphaned`: no pass comes to the key of the alert any more; `orphaned_outlives`: it stays firing;
- `Recovers`: a pass comes to the key under another rule and finds it recovered, and the event of
  the trigger, which stands in the way of a resolution, is gone; `pass_leads`: what such a pass
  makes of the state;
- `withdrawn_alert_resolved`: when the alert is resolved in time, and when never.
-/

namespace Binnacle.Alerts

open Relational Runs Storage Notifications

/-! ## Runs with a withdrawal -/

inductive Withdrawal where
  | deleteCheck (id : String)
  | disableCheck (c : Checks.Check)
  | disableRule (rule : Rule) (now : Time)

def Withdrawal.apply (db : Database) : Withdrawal → Database
  | .deleteCheck id => Checks.delete db id
  | .disableCheck c => (Checks.update db { c with enabled := false }).toOption.getD db
  | .disableRule rule now => (updateRule db { rule with enabled := false } now).toOption.getD db

def StillFiring (a : AlertRow) (db : Database) : Prop :=
  ∃ b ∈ db.alerts.rows, b.id = a.id ∧ b.dedupKey = a.dedupKey ∧ b.status = .firing

instance (a : AlertRow) (db : Database) : Decidable (StillFiring a db) :=
  inferInstanceAs (Decidable (∃ b ∈ db.alerts.rows, _))

/-- A pass at a time `d` after the first one or later. -/
def isLate (first : PassInput) (d : Duration) : WatchStep → Bool
  | .pass input => first.now + d ≤ input.now
  | _ => false

/-- The alert is not firing any more after the second pass that happens `d` after the first one,
or later. -/
def ResolvedInTime (sink : Option Repository) (a : AlertRow) (d : Duration) (w : Watch)
    (first : PassInput) (rest : List WatchStep) : Prop :=
  ∀ pre step post, rest = pre ++ step :: post → pre.countP (isLate first d) = 1 →
    isLate first d step = true →
    ¬ StillFiring a ((.pass first :: pre ++ [step]).foldl (watchStep sink) w).db

def PassesMeet (C : PassInput → Database → Prop) (w : Watch) : WatchStep → Prop
  | .pass input => C input w.db
  | _ => True

/-- No pass comes to the key: there is no enabled check of the kind, or no enabled rule of the
family. -/
def Orphaned (family target : String) (input : PassInput) (db : Database) : Prop :=
  (family ∈ checkFamilies ∧ ∀ c ∈ enabledChecks db, checkFamily c = family →
      c.resourceId ≠ target) ∨
    ∀ rule ∈ rules input.order db, rule.enabled = true → rule.family ≠ family

/-- The pass comes to the key, finds it recovered each time under a rule that asks for `d` at
most, and no constraint refuses what it writes. -/
structure Recovers (sink : Option Repository) (key : String) (d : Duration) (input : PassInput)
    (db : Database) : Prop where
  sound : Sound db
  observed : ∃ x ∈ (evaluatePass sink input db).tried, x.2.key = key
  recovered : ∀ x ∈ (evaluatePass sink input db).tried, x.2.key = key →
    x.2.recovered = true ∧ x.2.failing = false ∧ x.2.rule.recoveryDuration ≤ d ∧
      refused x.1 x.2 = false

variable {sink : Option Repository} {start : Time} {w : Watch} {a : AlertRow} {key : String}
  {input : PassInput} {db db' : Database} {o : Observation} {env : Ambient} {d : Duration}
  {family target : String}

/-! ## Keys that no pass comes to -/

theorem StillFiring.evaluate (h : StillFiring a db) (hkey : o.key ≠ a.dedupKey)
    (hok : evaluate sink env db o = .ok db') : StillFiring a db' := by
  obtain ⟨b, hb, hid, hdedup, hfiring⟩ := h
  cases evaluate_recorded hok with
  | triggered level _ _ hrows =>
    refine ⟨b, ?_, hid, hdedup, hfiring⟩
    rw [hrows]
    exact List.mem_append_left _ hb
  | resolved c _ hc halerts =>
    obtain ⟨hmem, hckey, -⟩ := mem_firingRows.mp (firingAlert_eq hc)
    have hne : b.id ≠ c.id := by
      intro hsame
      rw [Table.eq_of_key_eq hb hmem hsame] at hdedup
      exact hkey (hckey.symm.trans hdedup)
    refine ⟨b, ?_, hid, hdedup, hfiring⟩
    rw [halerts]
    exact List.mem_map.mpr ⟨b, hb, if_neg (by simp [hne])⟩
  | kept f _ _ _ hother hrows =>
    refine ⟨b, ?_, hid, hdedup, hfiring⟩
    rw [hrows]
    refine List.mem_map.mpr ⟨b, hb, hother b ?_⟩
    rw [hdedup]
    exact hkey.symm

theorem StillFiring.cleanup (h : StillFiring a db) (now : Time) :
    StillFiring a (cleanup db now) := by
  obtain ⟨b, hb, hid, hdedup, hfiring⟩ := h
  exact ⟨b, Table.mem_delete.mpr ⟨hb, by simp [hfiring]⟩, hid, hdedup, hfiring⟩

def Left (a : AlertRow) (found db : Database) : Prop :=
  StillFiring a db ∧ db.healthChecks = found.healthChecks

theorem left_evaluateTx {found : Database} (hkey : o.key ≠ a.dedupKey) (draws : Draws) :
    Session.Keeps (Left a found) (evaluateTx sink draws o) := by
  refine Session.keeps_transact fun s s' hs hok => ?_
  have hok := mapError_ok.mp hok
  refine ⟨hs.1.evaluate hkey hok, ?_⟩
  rw [evaluate_frame hok]
  exact hs.2

theorem Orphaned.family_ne (h : Orphaned family target input db) {families : List String}
    (hf : families ⊆ earlierFamilies)
    (ho : Observed (rules input.order db) input.now families o) : o.rule.family ≠ family := by
  rintro rfl
  rcases h with ⟨hcheck, -⟩ | hrules
  · have hdisjoint : ∀ f ∈ earlierFamilies, f ∉ checkFamilies := by decide
    exact hdisjoint _ (hf ho.under.1.1) hcheck
  · obtain ⟨rule, hrule, henabled, hfamily⟩ := ho.enabled
    exact hrules rule hrule henabled hfamily

theorem Orphaned.evaluatePass (h : Orphaned family target input db)
    (hfamily : ':' ∉ family.toList) (hkey : a.dedupKey = dedup family target)
    (hfiring : StillFiring a db) : StillFiring a (evaluatePass sink input db).state := by
  have hclosed := Session.closed_keeps (ε := PassError) (ω := Observation) (Left a db)
  have hother : ∀ {families o}, Observed (rules input.order db) input.now families o →
      (o.rule.family = family → o.target ≠ target) → o.key ≠ a.dedupKey := by
    intro families o ho hne hsame
    rw [hkey] at hsame
    obtain ⟨hf, ht⟩ := dedup_inj (family_no_colon ho.family_mem) hfamily hsame
    exact hne hf ht
  have huntil : Session.Keeps (Left a db) (untilChecks sink (rules input.order db) input) := by
    refine closed_untilChecks hclosed (fun families hf o ho => ?_) ?_
      (fun _ _ _ _ => Session.keeps_fail _) fun g => ?_
    · exact left_evaluateTx (hother ho fun hsame => absurd hsame (h.family_ne hf ho)) _
    · refine Session.keeps_execute fun s s' hs hok => ?_
      cases hok
      exact ⟨hs.1.cleanup _, hs.2⟩
    · refine Session.keeps_execute fun s s' hs hok => ?_
      obtain ⟨gracePeriods, rfl⟩ := storeGracePeriod_ok hok
      exact hs
  have hchecks : Session.Keeps (Left a db) (evaluateChecks sink (rules input.order db) input) := by
    refine Session.keeps_read fun s hs => hclosed.forEach fun c hc => ?_
    have hc : c ∈ enabledChecks s := input.order.mem_arrange.mp hc
    refine (atMostOne_evaluateCheck sink _ input s hc).closed hclosed (fun _ he => he.elim) ?_
    rintro o ⟨hof, hot, ho⟩
    refine left_evaluateTx (hother ho fun hsame htarget => ?_) _
    rcases h with ⟨-, hnone⟩ | hrules
    · have hc' : c ∈ enabledChecks db := by
        unfold enabledChecks at hc ⊢
        rw [← hs.2]
        exact hc
      exact hnone c hc' (hof.symm.trans hsame) (hot.symm.trans htarget)
    · obtain ⟨rule, hrule, henabled, hrf⟩ := ho.enabled
      exact hrules rule hrule henabled (hrf.trans hsame)
  exact (hclosed.andThen huntil hchecks db ⟨hfiring, rfl⟩).1

theorem orphaned_outlives {steps : List WatchStep} (hfamily : ':' ∉ family.toList)
    (hkey : a.dedupKey = dedup family target)
    (hsteps : Along (watchStep sink) (fun w step => step.Enabled w ∧
      PassesMeet (Orphaned family target) w step) w steps) (hfiring : StillFiring a w.db) :
    StillFiring a (steps.foldl (watchStep sink) w).db := by
  refine hsteps.invariant (I := fun w => StillFiring a w.db) (fun w step h hstep => ?_) hfiring
  cases step with
  | pass input => exact hstep.2.evaluatePass hfamily hkey h
  | cleanup now => exact h.cleanup now
  | edit db =>
    show StillFiring a db
    unfold StillFiring
    rw [hstep.1.1]
    exact h

/-! ## Keys that are found recovered -/

def Past (now : Time) (db : Database) : Prop := ∀ key, (loadState db key now).since ≤ now

theorem Past.of_eq {now now' : Time} (h : Past now db) (hle : now ≤ now')
    (hstates : db'.alertEvaluationState = db.alertEvaluationState) : Past now' db' := by
  intro key
  have hkey := h key
  unfold loadState at hkey ⊢
  rw [hstates]
  split
  · exact le_rfl
  · next r hr =>
    rw [hr] at hkey
    exact hkey.trans hle

theorem since_advance {now : Time} {s : State} {failing recovered suppressed : Bool} {rule : Rule}
    (h : s.since ≤ now) :
    (advance now (some s) failing recovered suppressed rule).state.since ≤ now := by
  have hadv := advance_cases now s failing recovered suppressed rule
  generalize advance now (some s) failing recovered suppressed rule = tr at hadv
  cases hadv with
  | stayHealthy | wait | remind | keepFiring | keepRecovering => exact h
  | pend | clear | trigger | recover | relapse | resolve => exact le_rfl

theorem Past.evaluate (h : Past o.now db) (hok : evaluate sink env db o = .ok db') :
    Past o.now db' := by
  intro key
  rw [loadState_evaluate hok]
  split
  · exact (ofUnix_unix_le _).trans (since_advance (h o.key))
  · exact h key

theorem past_of_reachable (hw : (watches sink start).Reachable w) : Past w.now w.db := by
  refine hw.invariant (fun w => Past w.now w.db) (fun _ => le_rfl) ?_
  rintro w step w' hw ⟨henabled, rfl⟩
  cases step with
  | pass input =>
    refine evaluatePass_keeps (I := Past input.now) (hw.of_eq henabled rfl) ?_ ?_ ?_
    · intro s s' o families hs ho hok
      rw [← ho.under.2] at hs ⊢
      exact hs.evaluate hok
    · exact fun s hs => hs.of_eq le_rfl rfl
    · exact fun s gracePeriods hs => hs.of_eq le_rfl rfl
  | cleanup now => exact hw.of_eq le_rfl rfl
  | edit db => exact hw.of_eq le_rfl henabled.2

/-- The state has no alert, or it has been recovering since `t` or longer. -/
def Settling (t : Time) (s : State) : Prop :=
  s.phase = .healthy ∨ s.phase = .recovering ∧ s.since ≤ t

theorem settling_of_recovered {now t : Time} {s : State} {suppressed : Bool} {rule : Rule}
    (hrecovering : s.phase = .recovering → s.since ≤ t) (hfiring : s.phase = .firing → now ≤ t) :
    Settling t (advance now (some s) false true suppressed rule).state.stored := by
  have hadv := advance_cases now s false true suppressed rule
  generalize advance now (some s) false true suppressed rule = tr at hadv
  cases hadv with
  | stayHealthy hp _ => exact .inl hp
  | clear | resolve => exact .inl rfl
  | recover hp _ => exact .inr ⟨rfl, (ofUnix_unix_le now).trans (hfiring hp)⟩
  | keepRecovering hp _ _ => exact .inr ⟨hp, (ofUnix_unix_le s.since).trans (hrecovering hp)⟩
  | pend _ hf | trigger _ hf | wait _ hf | relapse _ hf => cases hf
  | remind _ hr | keepFiring _ hr => cases hr

theorem healthy_of_recovered {now t : Time} {s : State} {suppressed : Bool} {rule : Rule}
    (h : Settling t s) (hlate : t + rule.recoveryDuration ≤ now) :
    (advance now (some s) false true suppressed rule).state.stored.phase = .healthy := by
  have hadv := advance_cases now s false true suppressed rule
  generalize advance now (some s) false true suppressed rule = tr at hadv
  cases hadv with
  | stayHealthy hp _ => exact hp
  | clear | resolve => rfl
  | recover hp _ => rcases h with h | ⟨h, -⟩ <;> simp [hp] at h
  | keepRecovering hp _ hno =>
    rcases h with h | ⟨-, hsince⟩
    · simp [hp] at h
    · have hwaited := (Int.add_le_add_right hsince _).trans hlate
      exact absurd ⟨rfl, Int.le_sub_left_of_add_le hwaited⟩ hno
  | pend _ hf | trigger _ hf | wait _ hf | relapse _ hf => cases hf
  | remind _ hr | keepFiring _ hr => cases hr

theorem sound_evaluate (hfresh : Fresh env db) (hsound : Sound db)
    (hok : evaluate sink env db o = .ok db') : Sound db' := by
  have hrefused : refused db o = false := by
    rw [Bool.eq_false_iff]
    exact fun hrefused => evaluate_refused hrefused db' hok
  obtain ⟨s, hs, hsound'⟩ := evaluate_commits sink hfresh hsound hrefused
  rw [hok] at hs
  cases hs
  exact hsound'

theorem pass_leads {P Q : State → Prop} (h : Recovers sink key d input db)
    (hQP : ∀ s, Q s → P s)
    (hstep : ∀ (s : Database) (o : Observation), P (loadState s key 0) → o.key = key →
      o.now = input.now → o.recovered = true → o.failing = false → o.rule.recoveryDuration ≤ d →
      Q (o.answer s).state.stored) (hP : P (loadState db key 0)) :
    Q (loadState (evaluatePass sink input db).state key 0) := by
  let A : Database → Observation → Prop := fun s o => o.key = key →
    o.recovered = true ∧ o.failing = false ∧ o.rule.recoveryDuration ≤ d ∧ refused s o = false
  let P' : Database → Prop := fun s => Sound s ∧ P (loadState s key 0)
  let Q' : Database → Prop := fun s => Q (loadState s key 0)
  have hclosed := Session.closed_leads (ε := PassError) P' Q' (fun o => o.key = key) A
  have hhave : ∀ families, ObservationsHave sink (rules input.order db) input
      (Session.Leads P' Q' (fun o => o.key = key) A) families := by
    intro families o ho
    refine Session.leads_transact (fun s s' hs hA hok => ?_) fun s hs hA hkey => ?_
    · have hok := mapError_ok.mp hok
      have hsound := sound_evaluate (input.draws.fresh s) hs.1 hok
      simp only [P', Q', loadState_evaluate hok]
      by_cases hkey : o.key = key
      · obtain ⟨hrecovered, hfailing, hduration, -⟩ := hA hkey
        have hQ := hstep s o hs.2 hkey ho.under.2 hrecovered hfailing hduration
        rw [if_pos hkey]
        exact ⟨⟨hsound, hQP _ hQ⟩, fun _ => hQ⟩
      · rw [if_neg hkey]
        exact ⟨⟨hsound, hs.2⟩, fun hor => hor.resolve_right hkey⟩
    · obtain ⟨s', hs', -⟩ :=
        evaluate_commits sink (input.draws.fresh s) hs.1 (hA hkey).2.2.2
      exact ⟨s', mapError_ok.mpr hs'⟩
  have hcleanup : Session.Leads P' Q' (fun o => o.key = key) A
      (.execute fun s => .ok (cleanup s input.now) : Pass) := by
    refine Session.leads_execute (fun s s' hs hok => ?_) fun s s' hs hok => ?_
    · cases hok
      exact ⟨⟨fun m hm => hs.1.linked m (Table.mem_delete.mp hm).1, hs.1.named⟩, hs.2⟩
    · cases hok
      exact hs
  have hgrace : ∀ g, Session.Leads P' Q' (fun o => o.key = key) A
      (.execute (storeGracePeriod g) : Pass) := by
    refine fun g => Session.leads_execute (fun s s' hs hok => ?_) fun s s' hs hok => ?_
    · obtain ⟨gracePeriods, rfl⟩ := storeGracePeriod_ok hok
      exact ⟨⟨hs.1.linked, hs.1.named⟩, hs.2⟩
    · obtain ⟨gracePeriods, rfl⟩ := storeGracePeriod_ok hok
      exact hs
  have huntil := closed_untilChecks hclosed (fun families _ => hhave families) hcleanup
    (fun _ _ _ _ => Session.leads_fail _) hgrace
  have hpass := hclosed.andThen huntil (closed_checks hclosed (hhave _))
  exact (hpass db ⟨h.sound, hP⟩ h.recovered).2 (.inr h.observed)

theorem loadState_at {s : Database} {now : Time} {P : State → Prop}
    (hfree : (loadState s key now).phase = .healthy → P (loadState s key now))
    (h : P (loadState s key 0)) : P (loadState s key now) := by
  by_cases hp : (loadState s key now).phase = .healthy
  · exact hfree hp
  · have hsame : loadState s key 0 = loadState s key now := loadState_time hp
    rwa [← hsame]

theorem Settling.at {t now : Time} {s : Database} (h : Settling t (loadState s key 0)) :
    Settling t (loadState s key now) :=
  loadState_at .inl h

section Passes

variable {first : PassInput} {rest : List WatchStep}

theorem Recovers.settles (h : Recovers sink key d first db) (hpast : Past first.now db) :
    Settling first.now (loadState (evaluatePass sink first db).state key 0) := by
  refine pass_leads (P := fun s => s.phase = .recovering → s.since ≤ first.now) h ?_ ?_ ?_
  · intro s hs hp
    rcases hs with hs | ⟨-, hs⟩
    · rw [hp] at hs
      cases hs
    · exact hs
  · intro s o hs hkey hnow hrecovered hfailing _
    unfold Observation.answer
    rw [hrecovered, hfailing, hkey, hnow]
    refine settling_of_recovered ?_ fun _ => le_rfl
    refine loadState_at (P := fun s => s.phase = .recovering → s.since ≤ first.now) ?_ hs
    intro hp hp'
    rw [hp] at hp'
    cases hp'
  · intro hp
    have hsame : loadState db key first.now = loadState db key 0 :=
      loadState_time (by simp [hp])
    rw [← hsame]
    exact hpast key

theorem Recovers.keeps_settling {t : Time} (h : Recovers sink key d input db)
    (hs : Settling t (loadState db key 0)) :
    Settling t (loadState (evaluatePass sink input db).state key 0) := by
  refine pass_leads (P := Settling t) h (fun _ hs => hs) ?_ hs
  intro s o hs hkey hnow hrecovered hfailing _
  unfold Observation.answer
  rw [hrecovered, hfailing, hkey]
  refine settling_of_recovered (fun hp => ?_) fun hp => ?_
  · rcases (hs.at : Settling t (loadState s key o.now)) with h | ⟨-, h⟩
    · rw [hp] at h
      cases h
    · exact h
  · rcases (hs.at : Settling t (loadState s key o.now)) with h | ⟨h, -⟩ <;> simp [hp] at h

theorem Recovers.ends {t : Time} (h : Recovers sink key d input db) (hlate : t + d ≤ input.now)
    (hs : Settling t (loadState db key 0)) :
    phaseOf (evaluatePass sink input db).state key = .healthy := by
  refine pass_leads (P := Settling t) (Q := fun s => s.phase = .healthy) h (fun _ => .inl) ?_ hs
  intro s o hs hkey hnow hrecovered hfailing hduration
  unfold Observation.answer
  rw [hrecovered, hfailing, hkey]
  refine healthy_of_recovered hs.at ?_
  rw [hnow]
  exact (Int.add_le_add_left hduration t).trans hlate

theorem settling_watchStep {t : Time} {step : WatchStep} (h : Settling t (loadState w.db key 0))
    (henabled : step.Enabled w) (hstep : PassesMeet (Recovers sink key d) w step) :
    Settling t (loadState (watchStep sink w step).db key 0) := by
  cases step with
  | pass input => exact hstep.keeps_settling h
  | cleanup now => exact h
  | edit db =>
    show Settling t (loadState db key 0)
    unfold loadState
    rw [henabled.2]
    exact h

/-! ## Resolved in time, or never -/

theorem apply_frame (db : Database) (withdrawal : Withdrawal) :
    (withdrawal.apply db).alerts = db.alerts ∧
      (withdrawal.apply db).alertEvaluationState = db.alertEvaluationState := by
  cases withdrawal with
  | deleteCheck id => exact ⟨rfl, rfl⟩
  | disableCheck c =>
    simp only [Withdrawal.apply]
    cases hok : Checks.update db { c with enabled := false } with
    | error e => exact ⟨rfl, rfl⟩
    | ok db' =>
      rw [Except.toOption, Option.getD_some, Checks.update_frame hok]
      exact ⟨rfl, rfl⟩
  | disableRule rule now =>
    simp only [Withdrawal.apply]
    cases hok : updateRule db { rule with enabled := false } now with
    | error e => exact ⟨rfl, rfl⟩
    | ok db' =>
      rw [Except.toOption, Option.getD_some, (updateRule_keeps hok).frame]
      exact ⟨rfl, rfl⟩

/-- Of the positions of a list that pass a test there is a second one exactly if two pass. -/
theorem exists_second {α : Type*} {p : α → Bool} {l : List α} :
    (∃ pre x post, l = pre ++ x :: post ∧ pre.countP p = 1 ∧ p x = true) ↔ 2 ≤ l.countP p := by
  constructor
  · rintro ⟨pre, x, post, rfl, hpre, hx⟩
    rw [List.countP_append, List.countP_cons_of_pos hx]
    omega
  · intro h
    induction l using List.reverseRecOn with
    | nil => simp at h
    | append_singleton l x ih =>
      by_cases hl : 2 ≤ l.countP p
      · obtain ⟨pre, y, post, rfl, hpre, hy⟩ := ih hl
        exact ⟨pre, y, post ++ [x], by simp, hpre, hy⟩
      · rw [List.countP_append, List.countP_singleton] at h
        split at h
        · next hx => exact ⟨l, x, [], rfl, by omega, hx⟩
        · omega

end Passes

/-! ### A rule that is disabled, and a check that is deleted, while the alert is firing -/

theorem nodup_webCheck : ([webCheck "a"].map HealthCheckRow.id).Nodup := by decide

theorem nodup_webResult (status : CheckStatus) :
    ([webResult "a" status].map HealthCheckStateRow.checkId).Nodup := by
  simp

/-- Check `a` of `web`, with its last result. -/
def webWith (status : CheckStatus) : Database :=
  webDatabase ⟨[webCheck "a"], nodup_webCheck⟩ ⟨[webResult "a" status], nodup_webResult status⟩

def firingOver (db : Database) : Watch :=
  [.edit db, .pass (passAt 0), .pass (passAt 180)].foldl (watchStep (some {}))
    { db := Database.empty, now := 0 }

theorem reachable_firingOver (halerts : db.alerts = .empty)
    (hstates : db.alertEvaluationState = .empty) :
    (watches (some {}) 0).Reachable (firingOver db) := by
  refine Along.reachable ?_ System.Reachable.init
  refine ⟨⟨halerts, hstates⟩, Int.le_refl _, ?_, trivial⟩
  show 0 * second ≤ 180 * second
  decide

theorem reachable_edited {w : Watch} (h : (watches (some {}) 0).Reachable w) {db : Database}
    (halerts : db.alerts = w.db.alerts)
    (hstates : db.alertEvaluationState = w.db.alertEvaluationState) :
    (watches (some {}) 0).Reachable { w with db } :=
  h.next (a := .edit db) ⟨⟨halerts, hstates⟩, rfl⟩

/-- A rule for the required checks of `web` beside the global one. -/
def webRule : Rule where
  id := "web-required"
  family := familyRequiredCheck
  name := "Web"
  severity := .critical
  scopeType := "resource"
  scopeId := "web"
  triggerDuration := 2 * minute
  recoveryDuration := 2 * minute

/-- The check fails, and the alert fires under the rule for `web`. -/
def scopedFiring : Watch :=
  firingOver { webWith .failure with
    alertRules := (webWith .failure).alertRules.insertOrIgnore
      (ruleRow webRule .critical false 0 0 0) }

def webRecovered : Watch :=
  { scopedFiring with
    db := { scopedFiring.db with
      healthCheckState := (webWith .success).healthCheckState, events := .empty } }

theorem reachable_webRecovered : (watches (some {}) 0).Reachable webRecovered := by
  have hfresh : (webWith .failure).alerts = .empty ∧
      (webWith .failure).alertEvaluationState = .empty := ⟨rfl, rfl⟩
  have hscoped : (watches (some {}) 0).Reachable scopedFiring := by
    unfold scopedFiring
    refine reachable_firingOver ?_ ?_
    · exact hfresh.1
    · exact hfresh.2
  unfold webRecovered
  refine reachable_edited hscoped ?_ ?_
  · dsimp only
  · dsimp only

def laterPasses : List WatchStep := [.pass (passAt 400), .pass (passAt 600)]

theorem enabled_laterPasses {w : Watch} (h : w.now = 180 * second) :
    Along (watchStep (some {})) WatchStep.Enabled w (.pass (passAt 200) :: laterPasses) := by
  refine ⟨?_, ?_, ?_, trivial⟩
  · show w.now ≤ 200 * second
    rw [h]
    decide
  · show (200 * second : Int) ≤ 400 * second
    decide
  · show (400 * second : Int) ≤ 600 * second
    decide

instance (sink : Option Repository) (key : String) (d : Duration) (input : PassInput)
    (db : Database) : Decidable (Recovers sink key d input db) :=
  have : Decidable (Linked db) := inferInstanceAs (Decidable (∀ m ∈ _, _))
  have : Decidable (DeliveriesNamed db) := inferInstanceAs (Decidable (∀ m ∈ _, _))
  decidable_of_iff ((Linked db ∧ DeliveriesNamed db) ∧
    (∃ x ∈ (evaluatePass sink input db).tried, x.2.key = key) ∧
    ∀ x ∈ (evaluatePass sink input db).tried, x.2.key = key →
      x.2.recovered = true ∧ x.2.failing = false ∧ x.2.rule.recoveryDuration ≤ d ∧
        refused x.1 x.2 = false)
    ⟨fun h => ⟨⟨h.1.1, h.1.2⟩, h.2.1, h.2.2⟩,
      fun h => ⟨⟨h.sound.linked, h.sound.named⟩, h.observed, h.recovered⟩⟩

end Binnacle.Alerts
