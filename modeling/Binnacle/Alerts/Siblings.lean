import Binnacle.Alerts.Lifecycle
import Binnacle.Alerts.Pass

/-!
# Checks of one resource over many passes

All required checks of a resource share one dedup key. In a pass they are
observed one after another, and each observation advances the state the one
before has left: a check that does not fail sends a pending key back to healthy,
however long its sibling has been failing.

A sequence of passes is a list of `Round`s. Between two of them anything may be
done to the database but to the evaluation state.

- `pass_advances`: what a pass does to the key of a resource whose required
  checks all fail;
- `failing_check_raises`: over any number of such passes a failing required check
  raises its alert once the trigger duration has passed since the first.
-/

namespace Binnacle.Alerts

open Relational Storage Notifications

structure Round where
  db : Database
  sound : Sound db
  input : PassInput

namespace Round

def rules (r : Round) : List Rule := Alerts.rules r.input.order r.db

def rule (r : Round) (resource : String) : Rule :=
  effectiveRule r.rules familyRequiredCheck "resource" resource

def outcome (sink : Option Repository) (r : Round) : Outcome PassError Database Observation :=
  evaluatePass sink r.input r.db

def Before (sink : Option Repository) (r r' : Round) : Prop :=
  r'.db.alertEvaluationState = (r.outcome sink).state.alertEvaluationState ∧
    r.input.now ≤ r'.input.now

def Required (r : Round) (resource : String) (c : HealthCheckRow) : Prop :=
  c ∈ enabledChecks r.db ∧ c.required = true ∧ c.resourceId = resource

def Fails (r : Round) (check resource : String) : Prop :=
  (r.rule resource).id ≠ "" ∧
    ∃ c, r.Required resource c ∧ c.id = check ∧ checkStatus r.db c = .failure

end Round

def requiredKey (resource : String) : String := dedup familyRequiredCheck resource

namespace Round

/-- No cooldown of the key runs any more, and where the pass observes the key, neither
a silence nor a deployment grace period applies. -/
def Clear (sink : Option Repository) (r : Round) (resource : String) : Prop :=
  (∀ until_ ∈ (loadState r.db (requiredKey resource) r.input.now).cooldownUntil,
    until_ ≤ r.input.now) ∧
  ∀ x ∈ (r.outcome sink).tried, x.2.key = requiredKey resource →
    suppressedTx x.1 x.2.rule x.2.target x.2.now = false

instance (sink : Option Repository) (r : Round) (resource : String) :
    Decidable (r.Clear sink resource) := inferInstanceAs (Decidable (_ ∧ _))

/-- No sibling stands in the way, and nothing stops the pass: no constraint refuses an
evaluation in the state it is made in, host rules have their thresholds, and recent
deployments name stored resources. -/
structure Unhindered (sink : Option Repository) (r : Round) (resource : String) : Prop where
  siblings : ∀ c, r.Required resource c → checkStatus r.db c = .failure
  accepted : ∀ x ∈ (r.outcome sink).tried, refused x.1 x.2 = false
  thresholds : ∀ rule ∈ r.rules, rule.family ∈ [familyHostCPU, familyHostMemory] →
    rule.threshold ≠ none ∧ rule.recoveryThreshold ≠ none
  deployments : ∀ e ∈ recentDeployments r.db r.input.now, ∀ id ∈ e.resourceId,
    r.db.resources.has id = true

end Round

/-! ## The stages before the checks -/

structure Undisturbed (found : Database) (key : String) (db : Database) : Prop where
  checks : db.healthChecks = found.healthChecks
  results : db.healthCheckState = found.healthCheckState
  resources : db.resources = found.resources
  deployments : ∀ e ∈ db.events.rows, e.type ∈ deploymentTypes → e ∈ found.events.rows
  state : db.alertEvaluationState.find? key = found.alertEvaluationState.find? key
  sound : Sound db

theorem earlierFamilies_not_required {family : String} (h : family ∈ earlierFamilies) :
    family ≠ familyRequiredCheck := by
  revert family
  decide

variable {db : Database}

section Earlier

variable {sink : Option Repository} {found : Database} {key : String}
  {A : Database → Observation → Prop} {input : PassInput}

theorem tried_commits (hA : ∀ db o, A db o → refused db o = false) (hsound : Sound db)
    {o : Observation} (htried : ∀ x ∈ (evaluateTx sink input.draws o db).tried, A x.1 x.2) :
    A db o ∧ ∃ db', evaluate sink (input.draws.draw db) db o = .ok db' ∧ Sound db' := by
  have ho : A db o := by
    refine htried (db, o) ?_
    unfold evaluateTx Session.transact
    split <;> exact List.mem_singleton_self _
  exact ⟨ho, evaluate_commits sink (input.draws.fresh db) hsound (hA db o ho)⟩

theorem completes_evaluateTx (hA : ∀ db o, A db o → refused db o = false) {o : Observation}
    (hkey : o.key ≠ key) (draws : Draws) :
    Session.Completes (Undisturbed found key) A (evaluateTx sink draws o) := by
  refine Session.completes_transact fun db hdb ho => ?_
  obtain ⟨db', hok, hsound⟩ := evaluate_commits sink (draws.fresh db) hdb.sound (hA db o ho)
  have hframe := evaluate_frame hok
  refine ⟨db', mapError_ok.mpr hok, ?_, ?_, ?_, fun e he htype => ?_, ?_, hsound⟩
  · rw [hframe]
    exact hdb.checks
  · rw [hframe]
    exact hdb.results
  · rw [hframe]
    exact hdb.resources
  · exact hdb.deployments e ((evaluate_events hok).mem_old (by decide) he htype) htype
  · rw [evaluate_state hok, if_neg hkey]
    exact hdb.state

theorem evaluationsHave_completes (hA : ∀ db o, A db o → refused db o = false)
    {rules : List Rule} {families : List String}
    (hf : families ⊆ earlierFamilies) (resource : String) :
    EvaluationsHave sink rules input
      (Session.Completes (Undisturbed found (requiredKey resource)) A) families := by
  intro o ho _
  refine completes_evaluateTx hA (fun hkey => ?_) input.draws
  have hfamily : o.rule.family ∈ earlierFamilies := hf ho.1
  have hsame := (dedup_inj (family_no_colon (List.mem_append_left _ hfamily))
    (family_no_colon (by decide)) hkey).1
  exact earlierFamilies_not_required hfamily hsame

theorem completes_deployments
    (hstored : ∀ e ∈ recentDeployments found input.now, ∀ id ∈ e.resourceId,
      found.resources.has id = true) :
    Session.Completes (Undisturbed found key) A (correlateDeployments input) := by
  refine Session.completes_read fun db hdb => ?_
  refine (Session.closed_completes _ A).forEach fun resource hres => ?_
  have hhas : found.resources.has resource = true := by
    obtain ⟨e, he, hid⟩ := List.mem_filterMap.mp
      (List.mem_dedup.mp (input.order.mem_arrange.mp hres))
    obtain ⟨hmem, hrecent⟩ := List.mem_filter.mp he
    have htype : e.type ∈ deploymentTypes := by
      simp only [Bool.and_eq_true, decide_eq_true_eq] at hrecent
      exact hrecent.1.1
    exact hstored e (List.mem_filter.mpr ⟨hdb.deployments e hmem htype, hrecent⟩) resource hid
  refine Session.completes_execute fun s hs => ?_
  have hgrace : s.resources.has
      (gracePeriod (recentDeployments db input.now) resource).resourceId = true := by
    rw [hs.resources]
    exact hhas
  refine ⟨_, if_pos hgrace, ⟨hs.checks, hs.results, hs.resources, hs.deployments, hs.state, ?_⟩⟩
  exact ⟨hs.sound.linked, hs.sound.named⟩

end Earlier

variable {sink : Option Repository} {r : Round} {resource : String}

theorem Round.Unhindered.untilChecks
    (h : r.Unhindered sink resource) {A : Database → Observation → Prop}
    (hA : ∀ db o, A db o → refused db o = false) :
    Session.Completes (Undisturbed r.db (requiredKey resource)) A
      (untilChecks sink r.rules r.input) := by
  have hclosed := Session.closed_completes (ε := PassError)
    (Undisturbed r.db (requiredKey resource)) A
  have hhave : ∀ families ⊆ earlierFamilies, EvaluationsHave sink r.rules r.input
      (Session.Completes (Undisturbed r.db (requiredKey resource)) A) families :=
    fun families hf => evaluationsHave_completes hA hf resource
  have hcleanup : Session.Completes (Undisturbed r.db (requiredKey resource)) A
      (.execute fun db => .ok (cleanup db r.input.now) : Pass) := by
    refine Session.completes_execute fun s hs => ⟨_, rfl, ?_⟩
    refine ⟨hs.checks, hs.results, hs.resources, hs.deployments, hs.state, ?_, hs.sound.named⟩
    intro m hm
    exact hs.sound.linked m (Table.mem_delete.mp hm).1
  have hhost : Session.Completes (Undisturbed r.db (requiredKey resource)) A
      (.forEach r.rules (evaluateRule sink r.rules r.input)) := by
    refine closed_hostRules hclosed (hhave _ (by decide)).observed ?_
    rintro rule hrule e ⟨hfamily, -, hmissing, -⟩
    obtain ⟨ht, hr⟩ := h.thresholds rule hrule hfamily
    exact absurd hmissing (not_or.mpr ⟨ht, hr⟩)
  exact hclosed.andThen hcleanup <|
    hclosed.andThen hhost <|
    hclosed.andThen (closed_filesystems hclosed (hhave _ (by decide)).observed) <|
    hclosed.andThen (closed_events hclosed (hhave _ (by decide)).observed) <|
    hclosed.andThen (closed_persistence hclosed (hhave _ (by decide)).observed)
      (completes_deployments h.deployments)

/-! ## The checks -/

structure FailingAt (r : Round) (resource : String) (o : Observation) : Prop where
  key : o.key = requiredKey resource
  failing : o.failing = true
  notRecovered : o.recovered = false
  now : o.now = r.input.now
  duration : o.rule.triggerDuration = (r.rule resource).triggerDuration

variable {rule : Rule} {c : HealthCheckRow}

theorem check_of_key {now : Time} (hrule : rule.family = checkFamily c)
    (hkey : (checkObservation db now rule c).key = requiredKey resource) :
    c.required = true ∧ c.resourceId = resource := by
  have hfamily : (checkObservation db now rule c).rule.family = checkFamily c := by
    simp only [checkObservation]
    split <;> exact hrule
  have hkeys : dedup (checkFamily c) c.resourceId = requiredKey resource := by
    rw [← hfamily]
    exact hkey
  have hknown : checkFamily c ∈ earlierFamilies ++ checkFamilies := by
    unfold checkFamily
    split <;> decide
  obtain ⟨hf, hr⟩ := dedup_inj (family_no_colon hknown) (family_no_colon (by decide)) hkeys
  refine ⟨?_, hr⟩
  by_contra hopt
  rw [checkFamily, if_neg hopt] at hf
  exact absurd hf (by decide)

theorem Round.Unhindered.failingAt (h : r.Unhindered sink resource)
    (hdb : Undisturbed r.db (requiredKey resource) db)
    (hc : c ∈ enabledChecks db) (hreq : c.required = true) (hres : c.resourceId = resource)
    (hrule : (r.rule resource).id ≠ "") :
    FailingAt r resource (checkObservation db r.input.now (r.rule resource) c) := by
  have hstatus : checkStatus db c = .failure := by
    have hrequired : r.Required resource c := by
      refine ⟨?_, hreq, hres⟩
      unfold enabledChecks at hc ⊢
      rw [← hdb.checks]
      exact hc
    unfold checkStatus
    rw [hdb.results]
    exact h.siblings c hrequired
  have hfamily : (r.rule resource).family = familyRequiredCheck := (effectiveRule_cases hrule).2
  refine ⟨?_, ?_, ?_, rfl, ?_⟩
  · simp only [Observation.key, checkObservation, requiredKey, hres]
    split <;> exact congrArg (dedup · resource) hfamily
  · simp [checkObservation, hstatus]
  · simp [checkObservation, hstatus]
  · simp only [checkObservation]
    split <;> rfl

section Advance

variable {sink : Option Repository} {r : Round} {resource : String}
  {A : Database → Observation → Prop} {P Q : State → Prop} {l : List HealthCheckRow}

/-- One failing observation of the key takes it from `P` to `Q` and keeps `Q`. -/
def FailureAdvances (r : Round) (resource : String) (A : Database → Observation → Prop)
    (P Q : State → Prop) : Prop :=
  ∀ db o, FailingAt r resource o → A db o →
    P (loadState db (requiredKey resource) r.input.now) ∨
      Q (loadState db (requiredKey resource) r.input.now) → Q (o.answer db).state.stored

/-- In the loop over the checks: one of the resource is still to come, or `Q` holds. -/
structure ChecksLeft (r : Round) (resource : String) (found : Database) (P Q : State → Prop)
    (l : List HealthCheckRow) (db : Database) : Prop where
  sound : Sound db
  enabled : ∀ c ∈ l, c ∈ enabledChecks found
  advanced : (∃ c ∈ l, c.required = true ∧ c.resourceId = resource) ∧
      P (loadState db (requiredKey resource) r.input.now) ∨
    Q (loadState db (requiredKey resource) r.input.now)

theorem ChecksLeft.skip {found db' : Database}
    (h : ChecksLeft r resource found P Q (c :: l) db) (hsound : Sound db')
    (hother : ¬ (c.required = true ∧ c.resourceId = resource))
    (hstate : loadState db' (requiredKey resource) r.input.now
      = loadState db (requiredKey resource) r.input.now) :
    ChecksLeft r resource found P Q l db' := by
  refine ⟨hsound, fun c' hc' => h.enabled c' (List.mem_cons_of_mem c hc'), ?_⟩
  rw [hstate]
  rcases h.advanced with ⟨⟨c', hc', hown⟩, hP⟩ | hQ
  · rcases List.mem_cons.mp hc' with rfl | hc'
    · exact absurd hown hother
    · exact .inl ⟨⟨c', hc', hown⟩, hP⟩
  · exact .inr hQ

theorem Round.Unhindered.evaluateCheck (h : r.Unhindered sink resource)
    (hrule : (r.rule resource).id ≠ "") (hA : ∀ db o, A db o → refused db o = false)
    (hstep : FailureAdvances r resource A P Q) {found : Database}
    (hfound : Undisturbed r.db (requiredKey resource) found)
    (hleft : ChecksLeft r resource found P Q (c :: l) db)
    (htried : ∀ x ∈ (evaluateCheck sink r.rules r.input found c db).tried, A x.1 x.2) :
    (evaluateCheck sink r.rules r.input found c db).error = none ∧
      ChecksLeft r resource found P Q l (evaluateCheck sink r.rules r.input found c db).state := by
  have hc := hleft.enabled c List.mem_cons_self
  unfold Alerts.evaluateCheck at htried ⊢
  by_cases hown : c.required = true ∧ c.resourceId = resource
  · -- a required check of the resource: it fails, like all of them
    obtain ⟨hreq, hres⟩ := hown
    have happlies : effectiveRule r.rules (checkFamily c) "resource" c.resourceId
        = r.rule resource := by
      rw [checkFamily, if_pos hreq, hres]
      rfl
    rw [happlies, if_neg hrule] at htried ⊢
    have hfailing := h.failingAt hfound hc hreq hres hrule
    obtain ⟨ho, db', hok, hsound⟩ := tried_commits hA hleft.sound htried
    rw [evaluateTx_eq sink r.input.draws hok]
    refine ⟨rfl, hsound, fun c' hc' => hleft.enabled c' (List.mem_cons_of_mem c hc'), .inr ?_⟩
    rw [loadState_evaluate hok, if_pos hfailing.key]
    exact hstep db _ hfailing ho (hleft.advanced.imp And.right id)
  · -- another key
    split
    · exact ⟨rfl, hleft.skip hleft.sound hown rfl⟩
    · next hid =>
      rw [if_neg hid] at htried
      generalize hother : effectiveRule r.rules (checkFamily c) "resource" c.resourceId = rule
        at hid htried
      obtain ⟨-, db', hok, hsound⟩ := tried_commits hA hleft.sound htried
      rw [evaluateTx_eq sink r.input.draws hok]
      refine ⟨rfl, hleft.skip hsound hown ?_⟩
      rw [loadState_evaluate hok, if_neg fun hkey => hown (check_of_key ?_ hkey)]
      rw [← hother]
      rw [← hother] at hid
      exact (effectiveRule_cases hid).2

theorem pass_advances {check : String} (h : r.Unhindered sink resource)
    (hfails : r.Fails check resource) (hA : ∀ db o, A db o → refused db o = false)
    (htried : ∀ x ∈ (r.outcome sink).tried, A x.1 x.2) (hstep : FailureAdvances r resource A P Q)
    (hP : P (loadState r.db (requiredKey resource) r.input.now)) :
    Q (loadState (r.outcome sink).state (requiredKey resource) r.input.now) := by
  obtain ⟨hrule, c, ⟨hc, hreq, hres⟩, -, -⟩ := hfails
  have huntil := h.untilChecks hA r.db ⟨rfl, rfl, rfl, fun _ he _ => he, rfl, r.sound⟩
  obtain ⟨hfirst, hchecks, -, hstate⟩ :=
    Session.goes_on (q := evaluateChecks sink r.rules r.input) (fun ha => (huntil ha).1) htried
  have hfound := (huntil hfirst).2
  rw [show (r.outcome sink).state = _ from hstate]
  generalize (untilChecks sink r.rules r.input r.db).state = found at hfound hchecks ⊢
  have hleft : ChecksLeft r resource found P Q (r.input.order.arrange (enabledChecks found))
      found := by
    refine ⟨hfound.sound, fun c hc => r.input.order.mem_arrange.mp hc,
      .inl ⟨⟨c, ?_, hreq, hres⟩, ?_⟩⟩
    · rw [r.input.order.mem_arrange]
      unfold enabledChecks at hc ⊢
      rw [hfound.checks]
      exact hc
    · unfold loadState
      rw [hfound.state]
      exact hP
  have hrun := Session.forEach_run (A := A) (ChecksLeft r resource found P Q)
    (fun c l db hleft htried => h.evaluateCheck hrule hA hstep hfound hleft htried) hleft hchecks
  rcases hrun.2.advanced with ⟨⟨c, hc, -⟩, -⟩ | hQ
  · cases hc
  · exact hQ

end Advance

/-! ## A failing check over many passes -/

/-- The alert is out, or the key has been pending since `t` at the latest. -/
def Waiting (t : Time) (s : State) : Prop :=
  s.phase = .firing ∨ s.phase = .pending ∧ s.since ≤ t

variable {t : Time}

theorem waiting_of_failing {now : Time} {s : State} {suppressed : Bool}
    (hnow : s.phase = .healthy → now ≤ t) (hsince : s.phase = .pending → s.since ≤ t) :
    Waiting t (advance now (some s) true false suppressed rule).state.stored := by
  have h := advance_cases now s true false suppressed rule
  generalize advance now (some s) true false suppressed rule = tr at h
  cases h with
  | pend hp _ => exact .inr ⟨rfl, (ofUnix_unix_le now).trans (hnow hp)⟩
  | trigger hp _ _ => exact .inl rfl
  | wait hp _ _ => exact .inr ⟨hp, (ofUnix_unix_le s.since).trans (hsince hp)⟩
  | remind hp _ => exact .inl rfl
  | keepFiring hp _ => exact .inl hp
  | relapse hp _ => exact .inl rfl
  | stayHealthy _ hf | clear _ hf | resolve _ hf | keepRecovering _ hf => cases hf
  | recover _ hr => cases hr

theorem firing_of_failing {now : Time} {s : State} (h : Waiting t s)
    (hlate : t + rule.triggerDuration ≤ now)
    (hcool : s.phase = .pending → ∀ until_ ∈ s.cooldownUntil, until_ ≤ now) :
    (advance now (some s) true false false rule).state.stored.phase = .firing := by
  have hadv := advance_cases now s true false false rule
  generalize advance now (some s) true false false rule = tr at hadv
  rcases h with hp | ⟨hp, hsince⟩
  · cases hadv with
    | remind | relapse => rfl
    | keepFiring => exact hp
    | recover _ hr => cases hr
    | _ => simp_all
  · cases hadv with
    | trigger => rfl
    | wait _ _ hno =>
      have hwaited : s.since + rule.triggerDuration ≤ now :=
        (Int.add_le_add_right hsince _).trans hlate
      exact absurd ⟨Int.le_sub_left_of_add_le hwaited, rfl, hcool hp⟩ hno
    | _ => simp_all

theorem loadState_time {key : String} {t' : Time}
    (h : (loadState db key t).phase ≠ .healthy) : loadState db key t' = loadState db key t := by
  unfold loadState at h ⊢
  split
  · next hnone =>
    rw [hnone] at h
    exact absurd rfl h
  · rfl

section Raise

variable {sink : Option Repository} {check resource : String}

theorem Waiting.before {r' : Round} (hb : r.Before sink r')
    (h : Waiting t (loadState (r.outcome sink).state (requiredKey resource) r.input.now)) :
    Waiting t (loadState r'.db (requiredKey resource) r'.input.now) := by
  have hload : loadState r'.db (requiredKey resource) r'.input.now
      = loadState (r.outcome sink).state (requiredKey resource) r'.input.now := by
    simp only [loadState, hb.1]
  rw [hload, loadState_time (t := r.input.now)]
  · exact h
  · rcases h with h | ⟨h, -⟩ <;> simp [h]

/-- The first pass makes the key wait, whatever its state was. -/
theorem Round.Unhindered.begins (h : r.Unhindered sink resource) (hfails : r.Fails check resource)
    (hpast : (loadState r.db (requiredKey resource) r.input.now).since ≤ r.input.now) :
    Waiting r.input.now (loadState (r.outcome sink).state (requiredKey resource) r.input.now) := by
  refine pass_advances (P := fun s => s.since ≤ r.input.now) h hfails (fun _ _ ho => ho)
    h.accepted (fun db o ho _ hstate => ?_) hpast
  unfold Observation.answer
  rw [ho.key, ho.failing, ho.notRecovered, ho.now]
  refine waiting_of_failing (fun _ => le_rfl) fun hp => ?_
  rcases hstate with hsince | hfiring | ⟨-, hsince⟩
  · exact hsince
  · rw [hp] at hfiring
    cases hfiring
  · exact hsince

theorem Round.Unhindered.keeps_waiting (h : r.Unhindered sink resource)
    (hfails : r.Fails check resource)
    (hwait : Waiting t (loadState r.db (requiredKey resource) r.input.now)) :
    Waiting t (loadState (r.outcome sink).state (requiredKey resource) r.input.now) := by
  refine pass_advances (P := Waiting t) h hfails (fun _ _ ho => ho) h.accepted
    (fun db o ho _ hstate => ?_) hwait
  have hw := hstate.elim id id
  unfold Observation.answer
  rw [ho.key, ho.failing, ho.notRecovered, ho.now]
  refine waiting_of_failing (fun hp => ?_) fun hp => ?_
  · rcases hw with hf | ⟨hf, -⟩ <;> simp [hp] at hf
  · rcases hw with hf | ⟨-, hsince⟩
    · simp [hp] at hf
    · exact hsince

theorem Round.Unhindered.raises (h : r.Unhindered sink resource)
    (hfails : r.Fails check resource) (hclear : r.Clear sink resource)
    (hlate : t + (r.rule resource).triggerDuration ≤ r.input.now)
    (hwait : Waiting t (loadState r.db (requiredKey resource) r.input.now)) :
    phaseOf (r.outcome sink).state (requiredKey resource) = .firing := by
  rw [← loadState_phase _ _ r.input.now]
  refine pass_advances
    (A := fun db o => refused db o = false ∧ (o.key = requiredKey resource →
      suppressedTx db o.rule o.target o.now = false))
    (P := fun s => Waiting t s ∧ ∀ until_ ∈ s.cooldownUntil, until_ ≤ r.input.now)
    (Q := fun s => s.phase = .firing) h hfails (fun _ _ ho => ho.1)
    (fun x hx => ⟨h.accepted x hx, hclear.2 x hx⟩) (fun db o ho ha hstate => ?_) ⟨hwait, hclear.1⟩
  unfold Observation.answer
  rw [ho.failing, ho.notRecovered, ha.2 ho.key, ho.key, ho.now]
  refine firing_of_failing (t := t) ?_ (ho.duration ▸ hlate) fun hp => ?_
  · exact hstate.elim And.left .inl
  · rcases hstate with hcool | hfiring
    · exact hcool.2
    · rw [hp] at hfiring
      cases hfiring

theorem raises_after {last : Round} {rest : List Round}
    (hchain : (r :: (rest ++ [last])).IsChain (Round.Before sink))
    (hwait : Waiting t (loadState (r.outcome sink).state (requiredKey resource) r.input.now))
    (hfails : ∀ s ∈ rest ++ [last], s.Fails check resource)
    (hfree : ∀ s ∈ rest ++ [last], s.Unhindered sink resource) (hclear : last.Clear sink resource)
    (hlate : t + (last.rule resource).triggerDuration ≤ last.input.now) :
    phaseOf (last.outcome sink).state (requiredKey resource) = .firing := by
  induction rest generalizing r with
  | nil =>
    have hb : r.Before sink last := (List.isChain_cons_cons.mp hchain).1
    exact (hfree last (by simp)).raises (hfails last (by simp)) hclear hlate (hwait.before hb)
  | cons s rest ih =>
    obtain ⟨hb, hchain⟩ := List.isChain_cons_cons.mp hchain
    have hs := (hfree s (by simp)).keeps_waiting (hfails s (by simp)) (hwait.before hb)
    exact ih hchain hs (fun u hu => hfails u (List.mem_cons_of_mem s hu))
      fun u hu => hfree u (List.mem_cons_of_mem s hu)

/-- A required check that fails at every pass raises its alert at the first pass that
comes the trigger duration after the first one, as long as no sibling of it is
anything but failing and nothing stops the passes. -/
theorem failing_check_raises {first last : Round} {rest : List Round}
    (hchain : (first :: (rest ++ [last])).IsChain (Round.Before sink))
    (hpast : (loadState first.db (requiredKey resource) first.input.now).since ≤ first.input.now)
    (hfails : ∀ r ∈ first :: (rest ++ [last]), r.Fails check resource)
    (hclear : last.Clear sink resource)
    (hlate : first.input.now + (last.rule resource).triggerDuration ≤ last.input.now)
    (hfree : ∀ r ∈ first :: (rest ++ [last]), r.Unhindered sink resource) :
    phaseOf (last.outcome sink).state (requiredKey resource) = .firing := by
  have hbegins := (hfree first List.mem_cons_self).begins (hfails first List.mem_cons_self) hpast
  exact raises_after hchain hbegins (fun r hr => hfails r (List.mem_cons_of_mem first hr))
    (fun r hr => hfree r (List.mem_cons_of_mem first hr)) hclear hlate

end Raise

/-! ### Two passes over a resource with one or two checks -/

theorem sound_seeded : Sound seeded.db := (consistent_of_reachable reachable_seeded).sound

/-- A required check of `web`. -/
def webCheck (id : String) : HealthCheckRow where
  id
  resourceId := "web"
  intervalSeconds := 60
  required := true
  enabled := true

def webResult (id : String) (status : CheckStatus) : HealthCheckStateRow where
  checkId := id
  status
  checkedAt := some 0
  consecutiveSuccesses := if status = .success then 1 else 0
  consecutiveFailures := if status = .failure then 1 else 0
  nextRunAt := none

/-- The seeded rules, the resource `web`, its checks and their last results. -/
def webDatabase (checks : Table HealthCheckRow.id) (results : Table HealthCheckStateRow.checkId) :
    Database :=
  { seeded.db with
    hosts := ⟨[⟨"host", "h", "Server"⟩], by decide⟩
    resources := ⟨[⟨"web", "host", "k", "docker", "web", "", none, none, "app", "healthy", none, 0,
      0⟩], by decide⟩
    healthChecks := checks
    healthCheckState := results }

def webRound (checks : Table HealthCheckRow.id) (results : Table HealthCheckStateRow.checkId)
    (states : Table EvaluationStateRow.dedupKey) (seconds : Int) : Round where
  db := { webDatabase checks results with alertEvaluationState := states }
  sound := ⟨sound_seeded.linked, sound_seeded.named⟩
  input := passAt seconds

/-- Passes at 0 s and 180 s. -/
def webRounds (checks : Table HealthCheckRow.id) (results : Table HealthCheckStateRow.checkId) :
    Round × Round :=
  let first := webRound checks results .empty 0
  (first, webRound checks results (first.outcome (some {})).state.alertEvaluationState 180)

/-- Check `a` of `web` fails. -/
def oneFailing : Round × Round :=
  webRounds ⟨[webCheck "a"], by decide⟩ ⟨[webResult "a" .failure], by decide⟩

/-- Check `a` of `web` fails, and its sibling `b` succeeds. -/
def oneOfTwoFailing : Round × Round :=
  webRounds ⟨[webCheck "a", webCheck "b"], by decide⟩
    ⟨[webResult "a" .failure, webResult "b" .success], by decide⟩

theorem oneFailing_evaluates : ∀ r ∈ [oneFailing.1, oneFailing.2],
    (r.rule "web").id ≠ "" ∧ webCheck "a" ∈ enabledChecks r.db ∧
    (∀ x ∈ (r.outcome (some {})).tried, refused x.1 x.2 = false) ∧
    (∀ rule ∈ r.rules, rule.family ∈ [familyHostCPU, familyHostMemory] →
      rule.threshold ≠ none ∧ rule.recoveryThreshold ≠ none) ∧
    ∀ e ∈ recentDeployments r.db r.input.now, ∀ id ∈ e.resourceId,
      r.db.resources.has id = true := by
  decide +kernel

theorem enabledChecks_oneFailing (h : r ∈ [oneFailing.1, oneFailing.2]) :
    enabledChecks r.db = [webCheck "a"] ∧ checkStatus r.db (webCheck "a") = .failure := by
  simp only [List.mem_cons, List.not_mem_nil, or_false] at h
  rcases h with rfl | rfl
  · exact ⟨rfl, rfl⟩
  · exact ⟨rfl, rfl⟩

theorem fails_oneFailing (h : r ∈ [oneFailing.1, oneFailing.2]) :
    r.Fails "a" "web" := by
  obtain ⟨hrule, hcheck, -⟩ := oneFailing_evaluates r h
  exact ⟨hrule, webCheck "a", ⟨hcheck, rfl, rfl⟩, rfl, (enabledChecks_oneFailing h).2⟩

theorem unhindered_oneFailing (h : r ∈ [oneFailing.1, oneFailing.2]) :
    r.Unhindered (some {}) "web" := by
  obtain ⟨-, -, haccepted, hthresholds, hdeployments⟩ := oneFailing_evaluates r h
  obtain ⟨hchecks, hstatus⟩ := enabledChecks_oneFailing h
  refine ⟨?_, haccepted, hthresholds, hdeployments⟩
  rintro c ⟨hc, -, -⟩
  rw [hchecks, List.mem_singleton] at hc
  rw [hc]
  exact hstatus

theorem oneFailing_times :
    (loadState oneFailing.1.db (requiredKey "web") oneFailing.1.input.now).since
      ≤ oneFailing.1.input.now ∧
    oneFailing.2.Clear (some {}) "web" ∧
    oneFailing.1.input.now + (oneFailing.2.rule "web").triggerDuration
      ≤ oneFailing.2.input.now := by
  decide +kernel

/-- With the one check, the alert is out after 180 s. -/
theorem one_check_raises :
    phaseOf (oneFailing.2.outcome (some {})).state (requiredKey "web") = .firing :=
  @failing_check_raises (some {}) "a" "web" oneFailing.1 oneFailing.2 []
    (List.isChain_pair.mpr ⟨rfl, by decide⟩) oneFailing_times.1 (fun _ hr => fails_oneFailing hr)
    oneFailing_times.2.1 oneFailing_times.2.2 fun _ hr => unhindered_oneFailing hr

theorem oneOfTwoFailing_evaluates :
    (∀ r ∈ [oneOfTwoFailing.1, oneOfTwoFailing.2],
      (r.rule "web").id ≠ "" ∧ webCheck "a" ∈ enabledChecks r.db) ∧
    oneOfTwoFailing.2.Clear (some {}) "web" ∧
    oneOfTwoFailing.1.input.now + (oneOfTwoFailing.2.rule "web").triggerDuration
      ≤ oneOfTwoFailing.2.input.now ∧
    (oneOfTwoFailing.2.outcome (some {})).error = none ∧
    phaseOf (oneOfTwoFailing.2.outcome (some {})).state (requiredKey "web") = .healthy := by
  decide +kernel

/-- With the sibling, check `a` fails at both passes, 180 s apart, and the key is healthy
after both: the success of `b` has cleared it. -/
theorem sibling_clears_failure :
    oneOfTwoFailing.1.Before (some {}) oneOfTwoFailing.2 ∧
    oneOfTwoFailing.1.Fails "a" "web" ∧ oneOfTwoFailing.2.Fails "a" "web" ∧
    oneOfTwoFailing.2.Clear (some {}) "web" ∧
    oneOfTwoFailing.1.input.now + (oneOfTwoFailing.2.rule "web").triggerDuration
      ≤ oneOfTwoFailing.2.input.now ∧
    (oneOfTwoFailing.2.outcome (some {})).error = none ∧
    phaseOf (oneOfTwoFailing.2.outcome (some {})).state (requiredKey "web") = .healthy := by
  obtain ⟨hrounds, hrest⟩ := oneOfTwoFailing_evaluates
  obtain ⟨hrule₁, hcheck₁⟩ := hrounds oneOfTwoFailing.1 (by simp)
  obtain ⟨hrule₂, hcheck₂⟩ := hrounds oneOfTwoFailing.2 (by simp)
  exact ⟨⟨rfl, by decide⟩, ⟨hrule₁, webCheck "a", ⟨hcheck₁, rfl, rfl⟩, rfl, rfl⟩,
    ⟨hrule₂, webCheck "a", ⟨hcheck₂, rfl, rfl⟩, rfl, rfl⟩, hrest⟩

end Binnacle.Alerts
