import Binnacle.Alerts.Quiet

/-!
# Which rule decides

A pass is meant to advance each key once per observed subject, under the most specific rule for
its target. `effectiveRule` knows rules for exactly a target and global ones, and the loop over
the event rules does not ask it:

- a rule for a project is passed over for the checks of its resources;
- a restart-storm or OOM rule decides every resource, whatever its scope.

`one_rule_decides_iff` says for which rule sets a pass is right over every database.
-/

namespace Binnacle.Alerts

open Relational Storage Notifications

/-! ## What a pass is meant to do -/

/-- How many subjects a pass observes of a family and a target: the last samples of a mount, the
enabled checks of a resource, and otherwise the host, collector or resource itself. -/
def subjects (db : Database) (family target : String) : Nat :=
  if family ∈ filesystemFamilies then
    (latestFilesystems db).countP fun f => f.mountKey = target
  else if family ∈ checkFamilies then
    (enabledChecks db).countP fun c => checkFamily c = family && c.resourceId = target
  else 1

/-- One rule decides each target of the pass: what it tries is tried under the most specific
rule, once per subject, and a rule for one target does not change the state of another. -/
structure Decided (sink : Option Repository) (input : PassInput) (db : Database) : Prop where
  chosen : ∀ x ∈ (evaluatePass sink input db).tried, ∃ rule,
    mostSpecific db x.2.rule.family x.2.targetType x.2.target = some rule ∧ x.2.MadeUnder rule
  once : ∀ family target, (evaluatePass sink input db).tried.countP
    (fun x => x.2.rule.family = family && x.2.target = target) ≤ subjects db family target
  apart : ∀ x ∈ (evaluatePass sink input db).tried, x.2.rule.scopeType ∉ ["global", "project"] →
    ∀ db', evaluate sink (input.draws.draw x.1) x.1 x.2 = .ok db' →
      ∀ key ≠ dedup x.2.rule.family x.2.rule.scopeId,
        db'.alertEvaluationState.find? key = x.1.alertEvaluationState.find? key

/-- The rule sets under which it does: no enabled check rule for a project stands beside an
enabled global one, and an enabled event rule with a threshold is a global one, beside which no
rule of the family for a resource or a project is enabled. -/
def Unshadowed (rules : Table AlertRuleRow.id) : Prop :=
  (∀ r ∈ rules.rows, r.enabled = true → r.family ∈ checkFamilies → r.scopeType = "project" →
    ∀ g ∈ rules.rows, g.enabled = true → g.family = r.family → g.scopeType ≠ "global") ∧
  ∀ r ∈ rules.rows, r.enabled = true → r.family ∈ eventFamilies → r.threshold.isSome = true →
    r.scopeType = "global" ∧ ∀ r' ∈ rules.rows, r'.enabled = true → r'.family = r.family →
      r'.scopeType ∉ ["resource", "project"]

instance (rules : Table AlertRuleRow.id) : Decidable (Unshadowed rules) :=
  @instDecidableAnd _ _ inferInstance inferInstance

/-! ## The rule that is chosen -/

variable {target : String} {rule : Rule}

section Chosen

variable {db : Database} {order : RowOrder} {now : Time} {families : List String} {o : Observation}

theorem mostSpecific_of_eq (h : WellScoped db.alertRules) {targetType : String}
    (hrule : rule ∈ rules order db) (htype : targetType ≠ "resource")
    (hid : (effectiveRule (rules order db) rule.family targetType target).id = rule.id) :
    mostSpecific db rule.family targetType target = some rule := by
  have hproject : projectOf db targetType target = none := if_neg htype
  refine mostSpecific_of_found (found_of_id h hrule hid) (.inl ?_)
  rw [hproject]
  rfl

theorem Unshadowed.mostSpecific_event (hu : Unshadowed db.alertRules) (h : WellScoped db.alertRules)
    {threshold : ℚ} (hrule : rule ∈ rules order db)
    (hcounts : CountsEvents rule threshold) (target : String) :
    mostSpecific db rule.family "resource" target = some rule := by
  obtain ⟨ht, henabled, hfamily⟩ := hcounts
  have hmem := mem_rules.mp hrule
  obtain ⟨r, hr, rfl⟩ := rules_mem_iff.mp hrule
  obtain ⟨hglobal, hnone⟩ := hu.2 r hr henabled hfamily (by
    rw [show r.threshold = some threshold from ht]
    rfl)
  have hnotFor : ∀ scopeType ∈ ["resource", "project"], ∀ scopeId,
      ruleFor db.alertRules (ruleOf r).family scopeType scopeId = none := by
    intro scopeType htype scopeId
    refine ruleFor_eq_none.mpr fun rule' hmem' hc => ?_
    obtain ⟨r', hr', rfl⟩ := List.mem_map.mp hmem'
    refine hnone r' hr' hc.1 hc.2.1 ?_
    rw [show r'.scopeType = scopeType from hc.2.2.1]
    exact htype
  have hfound : ruleFor db.alertRules (ruleOf r).family "global" "" = some (ruleOf r) :=
    h.ruleFor_eq_some.mpr ⟨hmem, (h.concerns_global hmem).mpr ⟨henabled, rfl, hglobal⟩⟩
  have hproject : (projectOf db "resource" target).bind
      (ruleFor db.alertRules (ruleOf r).family "project") = none := by
    cases projectOf db "resource" target with
    | none => rfl
    | some project => exact hnotFor "project" (by simp) project
  rw [mostSpecific, hnotFor "resource" (by simp), hproject, hfound]
  rfl

theorem Observed.chosen (hu : Unshadowed db.alertRules) (h : WellScoped db.alertRules)
    (ho : Observed (rules order db) now families o) :
    ∃ rule, mostSpecific db o.rule.family o.targetType o.target = some rule ∧ o.MadeUnder rule := by
  cases ho with
  | host v hrule _ _ hid | docker state hrule _ _ hid
  | filesystem mount v hrule _ _ hid => exact ⟨_, mostSpecific_of_eq h hrule (by simp) hid, rfl⟩
  | counted resource count hrule henabled hfamily ht
  | uncounted resource hrule henabled hfamily ht =>
    exact ⟨_, hu.mostSpecific_event h hrule ⟨ht, henabled, hfamily⟩ resource, rfl⟩
  | persistence eventType hid =>
    refine ⟨_, ?_, rfl⟩
    show mostSpecific db (effectiveRule (rules order db) familyPersistence "server"
      "persistence").family "server" "persistence" = _
    rw [(effectiveRule_cases hid).2]
    exact mostSpecific_of_found (effectiveRule_some h hid) (.inl rfl)
  | @check db' c _ hid =>
    refine ⟨_, ?_, checkObservation_rule _ _ _ _⟩
    have hfamily : (checkObservation db' now (effectiveRule (rules order db) (checkFamily c)
        "resource" c.resourceId) c).rule.family = checkFamily c := by
      rw [checkObservation_rule]
      exact (effectiveRule_cases hid).2
    rw [hfamily]
    show mostSpecific db (checkFamily c) "resource" c.resourceId = _
    refine mostSpecific_of_found (effectiveRule_some h hid) ?_
    -- a rule for the project and a global one do not stand side by side
    cases hproject : (projectOf db "resource" c.resourceId).bind
        (ruleFor db.alertRules (checkFamily c) "project") with
    | none => exact .inl rfl
    | some rule =>
      refine .inr (ruleFor_eq_none.mpr fun global hmem hc => ?_)
      obtain ⟨project, -, hrule⟩ := Option.bind_eq_some_iff.mp hproject
      obtain ⟨hmem', hc'⟩ := concerns_of_ruleFor hrule
      obtain ⟨r, hr, rfl⟩ := List.mem_map.mp hmem'
      obtain ⟨g, hg, rfl⟩ := List.mem_map.mp hmem
      have hfamily' : r.family = checkFamily c := hc'.2.1
      exact hu.1 r hr hc'.1 (hfamily'.symm ▸ checkFamily_mem c) hc'.2.2.1 g hg hc.1
        (hc.2.1.trans hfamily'.symm) hc.2.2.1

end Chosen

/-! ## How often a key is advanced -/

def Keyed (db : Database) : Prop :=
  ∀ s ∈ db.alertEvaluationState.rows, ∃ r ∈ db.alertRules.rows, r.id = s.ruleId ∧
    r.family ∈ earlierFamilies ++ checkFamilies ∧ s.dedupKey = dedup r.family s.targetId

structure Steady (found db : Database) : Prop where
  rules : db.alertRules = found.alertRules
  filesystems : db.filesystemSamples = found.filesystemSamples
  checks : db.healthChecks = found.healthChecks
  keyed : Keyed db

section Once

variable {sink : Option Repository} {input : PassInput} {found db db' : Database}
  {families : List String} {o : Observation} {family : String}

theorem Steady.evaluate {env : Ambient} (h : Steady found db)
    (ho : Observed (Alerts.rules input.order found) input.now families o)
    (hok : Alerts.evaluate sink env db o = .ok db') : Steady found db' := by
  have hframe := evaluate_frame hok
  have hrules : db'.alertRules = found.alertRules := by
    rw [hframe]
    exact h.rules
  refine ⟨hrules, by rw [hframe]; exact h.filesystems, by rw [hframe]; exact h.checks,
    fun s hs => ?_⟩
  obtain ⟨rule, hrule, hid, hfamily, -⟩ := ho.under.1.2
  obtain ⟨r, hr, rfl⟩ := rules_mem_iff.mp hrule
  have hfind := Table.find?_eq_some_iff.mpr ⟨hs, rfl⟩
  rw [evaluate_state hok] at hfind
  by_cases hkey : o.key = s.dedupKey
  · -- the row that was stored or merged
    have hmem : r.family ∈ earlierFamilies ++ checkFamilies :=
      (show r.family = o.rule.family from hfamily) ▸ ho.family_mem
    rw [if_pos hkey] at hfind
    refine ⟨r, hrules ▸ hr, ?_, hmem, ?_⟩
    · rw [← Option.some.inj hfind]
      cases db.alertEvaluationState.find? s.dedupKey <;> exact hid
    · have htarget : s.targetId = o.target := by
        cases hold : db.alertEvaluationState.find? s.dedupKey with
        | none =>
          rw [hold] at hfind
          rw [← Option.some.inj hfind]
          rfl
        | some s' =>
          rw [hold] at hfind
          obtain ⟨hs', hkey'⟩ := Table.find?_eq_some_iff.mp hold
          obtain ⟨r', hr', -, hfamily', hdedup⟩ := h.keyed s' hs'
          have hsame : dedup r'.family s'.targetId = dedup o.rule.family o.target := by
            rw [← hdedup, hkey', ← hkey]
            rfl
          rw [← Option.some.inj hfind]
          exact (dedup_inj (family_no_colon hfamily') (family_no_colon ho.family_mem) hsame).2
      rw [htarget, show r.family = o.rule.family from hfamily]
      exact hkey.symm
  · rw [if_neg hkey] at hfind
    rw [hrules, ← h.rules]
    exact h.keyed s (Table.find?_eq_some_iff.mp hfind).1

def ofKind (family target : String) (o : Observation) : Bool :=
  o.rule.family = family && o.target = target

/-- The part of a pass tries the kind at most `n` times. -/
abbrev TriesKind (found : Database) (family target : String) (n : Nat) (p : Pass) : Prop :=
  Session.TriesAtMost (Steady found) (ofKind family target) n p

theorem ofKind_iff :
    ofKind family target o = true ↔ o.rule.family = family ∧ o.target = target := by
  simp [ofKind]

def targetTypeOf (family : String) : String :=
  if family ∈ [familyDockerDown, familyPersistence] then "server"
  else if family ∈ hostFamilies then "host"
  else if family ∈ filesystemFamilies then "filesystem"
  else "resource"

theorem Observed.targetType {rules : List Rule} {now : Time} (h : Observed rules now families o) :
    o.targetType = targetTypeOf o.rule.family := by
  have hother : ∀ family ∈ eventFamilies ++ checkFamilies, targetTypeOf family = "resource" := by
    decide
  cases h with
  | host v _ _ hfamily =>
    have hall : ∀ family ∈ [familyHostCPU, familyHostMemory], targetTypeOf family = "host" := by
      decide
    exact (hall _ hfamily).symm
  | docker state _ _ hfamily =>
    show "server" = targetTypeOf _
    rw [hfamily]
    rfl
  | filesystem mount v _ _ hfamily =>
    have hall : ∀ family ∈ filesystemFamilies, targetTypeOf family = "filesystem" := by decide
    exact (hall _ hfamily).symm
  | counted resource count _ _ hfamily =>
    exact (hother _ (List.mem_append_left _ hfamily)).symm
  | uncounted resource _ _ hfamily => exact (hother _ (List.mem_append_left _ hfamily)).symm
  | persistence eventType hid =>
    show "server" = targetTypeOf (effectiveRule _ _ _ _).family
    rw [(effectiveRule_cases hid).2]
    rfl
  | @check db c _ hid =>
    rw [checkObservation_rule]
    show "resource" = targetTypeOf (effectiveRule _ _ _ _).family
    rw [(effectiveRule_cases hid).2]
    exact (hother _ (List.mem_append_right _ (checkFamily_mem c))).symm

def decider (db : Database) (family target : String) : String :=
  ((mostSpecific db family (targetTypeOf family) target).getD Rule.zero).id

theorem Observed.decider (hu : Unshadowed found.alertRules) (hw : WellScoped found.alertRules)
    (ho : Observed (rules input.order found) input.now families o)
    (hkind : ofKind family target o = true) : o.rule.id = decider found family target := by
  rw [ofKind_iff] at hkind
  obtain ⟨rule, hrule, hmade⟩ := ho.chosen hu hw
  rw [ho.targetType, hkind.1, hkind.2] at hrule
  rw [Alerts.decider, hrule, hmade]
  rfl

theorem triesAtMost_evaluateTx {n : Nat}
    (ho : Observed (rules input.order found) input.now families o)
    (hn : ofKind family target o = true → 1 ≤ n) :
    TriesKind found family target n (evaluateTx sink input.draws o) :=
  Session.triesAtMost_transact (fun _ _ hs hok => hs.evaluate ho (mapError_ok.mp hok)) hn

theorem AtMostOne.triesAtMost {E : PassError → Prop} {Q : Observation → Prop} {p : Pass}
    {n : Nat} (h : AtMostOne sink input E Q p)
    (hQ : ∀ o, Q o → (∃ families, Observed (rules input.order found) input.now families o) ∧
      (ofKind family target o = true → 1 ≤ n)) :
    TriesKind found family target n p := by
  rcases h with rfl | ⟨e, -, rfl⟩ | ⟨o, ho, rfl⟩
  · exact Session.triesAtMost_done
  · exact Session.triesAtMost_fail e
  · obtain ⟨⟨families, hobserved⟩, hn⟩ := hQ o ho
    exact triesAtMost_evaluateTx hobserved hn

theorem countP_le_one {α κ : Type} {l : List α} {g : α → κ} [DecidableEq κ] (hl : (l.map g).Nodup)
    {c : α → Bool} (k : κ) (h : ∀ a ∈ l, c a = true → g a = k) : l.countP c ≤ 1 := by
  calc l.countP c ≤ l.countP (fun a => g a == k) :=
        List.countP_mono_left fun a ha hc => beq_iff_eq.mpr (h a ha hc)
    _ = (l.map g).count k := by rw [List.count, List.countP_map]; rfl
    _ ≤ 1 := List.nodup_iff_count_le_one.mp hl k

section Stages

variable (hu : Unshadowed found.alertRules) (hw : WellScoped found.alertRules)
  (sink input) (family target : String)

include hu hw

theorem once_hostRules :
    TriesKind found family target 1
      (.forEach (rules input.order found) (evaluateRule sink (rules input.order found) input)) := by
  have heach : ∀ rule ∈ rules input.order found, TriesKind found family target
      (if decide (rule.id = decider found family target) then 1 else 0)
      (evaluateRule sink (rules input.order found) input rule) := by
    intro rule hrule
    refine (atMostOne_evaluateRule sink _ input hrule).triesAtMost ?_
    rintro o ⟨rfl, ho⟩
    refine ⟨⟨_, ho⟩, fun hkind => ?_⟩
    rw [if_pos (decide_eq_true (ho.decider hu hw hkind))]
  refine (Session.triesAtMost_forEach _ heach).mono ?_
  exact countP_le_one (nodup_rules _ _) _ fun rule _ hc => of_decide_eq_true hc

theorem once_filesystems :
    TriesKind found family target
      ((latestFilesystems found).countP fun f => f.mountKey = target)
      (evaluateFilesystems sink (rules input.order found) input) := by
  refine Session.triesAtMost_read fun s hs => ?_
  have hlatest : latestFilesystems s = latestFilesystems found := by
    unfold latestFilesystems
    rw [hs.filesystems]
  rw [hlatest, ← (input.order.perm _).countP_eq]
  refine Session.triesAtMost_forEach _ fun f _ => ?_
  have heach : ∀ rule ∈ rules input.order found, TriesKind found family target
      (if decide (f.mountKey = target ∧ rule.id = decider found family target) then 1 else 0)
      (evaluateFilesystem sink (rules input.order found) input f rule) := by
    intro rule hrule
    refine (atMostOne_evaluateFilesystem sink _ input hrule f).triesAtMost ?_
    rintro o ⟨rfl, htarget, -, ho⟩
    refine ⟨⟨_, ho⟩, fun hkind => ?_⟩
    have hmount : o.target = target := (ofKind_iff.mp hkind).2
    rw [if_pos (decide_eq_true ⟨htarget.symm.trans hmount, ho.decider hu hw hkind⟩)]
  refine (Session.triesAtMost_forEach _ heach).mono ?_
  by_cases hmount : f.mountKey = target
  · rw [if_pos (decide_eq_true hmount)]
    exact countP_le_one (nodup_rules _ _) _ fun rule _ hc => (of_decide_eq_true hc).2
  · rw [List.countP_eq_zero.mpr fun rule _ hc => hmount (of_decide_eq_true hc).1]
    exact Nat.zero_le _

omit hu hw in
theorem nodup_unhealthyTargets (hdb : Keyed db) :
    (unhealthyTargets db rule).Nodup := by
  have hrows : (db.alertEvaluationState.rows.filter fun s =>
      s.ruleId = rule.id && s.phase ≠ .healthy).Nodup :=
    (List.Nodup.of_map _ db.alertEvaluationState.nodup).filter _
  refine (List.nodup_map_iff_inj_on hrows).mpr fun s hs s' hs' htarget => ?_
  rw [List.mem_filter, Bool.and_eq_true, decide_eq_true_eq] at hs hs'
  obtain ⟨r, hr, hid, -, hkey⟩ := hdb s hs.1
  obtain ⟨r', hr', hid', -, hkey'⟩ := hdb s' hs'.1
  have hsame : r = r' := Table.eq_of_key_eq hr hr'
    (hid.trans (hs.2.1.trans (hs'.2.1.symm.trans hid'.symm)))
  refine Table.eq_of_key_eq hs.1 hs'.1 ?_
  rw [hkey, hkey', hsame, htarget]

omit hu hw in
theorem nodup_eventCounts (db : Database) (rule : Rule) (now : Time) :
    ((eventCounts db rule now).map Prod.fst).Nodup := by
  have hresources : (eventCounts db rule now).map Prod.fst =
      ((countedEvents db rule now).filterMap EventRow.resourceId).dedup := by
    unfold eventCounts
    rw [List.map_map]
    exact List.map_id _
  rw [hresources]
  exact List.nodup_dedup _

theorem triesAtMost_targets (rule : Rule) {α : Type} {l : List α} {obs : α → Observation}
    (g : α → String) (hobs : ∀ a ∈ l, (obs a).rule = rule ∧ (obs a).target = g a ∧
      Observed (rules input.order found) input.now eventFamilies (obs a)) (hl : (l.map g).Nodup) :
    TriesKind found family target
      (if rule.id = decider found family target ∧ target ∈ l.map g then 1 else 0)
      (.forEach l fun a => evaluateTx sink input.draws (obs a)) := by
  have heach : ∀ a ∈ l, TriesKind found family target
      (if decide (rule.id = decider found family target ∧ g a = target) then 1 else 0)
      (evaluateTx sink input.draws (obs a)) := by
    intro a ha
    obtain ⟨hrule, htarget, ho⟩ := hobs a ha
    refine triesAtMost_evaluateTx ho fun hkind => ?_
    have hid := ho.decider hu hw hkind
    rw [hrule] at hid
    rw [if_pos (decide_eq_true ⟨hid, htarget.symm.trans (ofKind_iff.mp hkind).2⟩)]
  refine (Session.triesAtMost_forEach _ heach).mono ?_
  split
  · exact countP_le_one hl target fun a _ hc => (of_decide_eq_true hc).2
  · next hnone =>
    refine Nat.le_of_eq (List.countP_eq_zero.mpr fun a ha hc => hnone ?_)
    obtain ⟨hid, rfl⟩ := of_decide_eq_true hc
    exact ⟨hid, List.mem_map_of_mem ha⟩

theorem once_eventRule (hrule : rule ∈ rules input.order found) :
    TriesKind found family target
      (if decide (rule.id = decider found family target) then 1 else 0)
      (evaluateEventRule sink input rule) := by
  rcases evaluateEventRule_cases rule with hdone | ⟨threshold, hcounts⟩
  · rw [hdone]
    exact Session.triesAtMost_done
  rw [hcounts.evaluateEventRule_eq]
  obtain ⟨ht, henabled, hfamily⟩ := hcounts
  refine Session.triesAtMost_read fun s _ => ?_
  have hperm := (input.order.perm (eventCounts s rule input.now)).map Prod.fst
  have hcounted := triesAtMost_targets sink input hu hw family target rule Prod.fst
    (fun c hc => ⟨rfl, rfl, .counted c.1 c.2 hrule henabled hfamily ht
      (pos_of_mem_eventCounts (input.order.mem_arrange.mp hc))⟩)
    (hperm.nodup_iff.mpr (nodup_eventCounts s rule input.now))
  refine (hcounted.andThen (m := if rule.id = decider found family target ∧
    target ∉ (eventCounts s rule input.now).map Prod.fst then 1 else 0) ?_).mono ?_
  · refine Session.triesAtMost_read fun s' hs' => ?_
    refine (triesAtMost_targets sink input hu hw family target rule id
      (fun resource _ => ⟨rfl, rfl, .uncounted resource hrule henabled hfamily ht⟩) ?_).mono ?_
    · rw [List.map_id]
      exact ((input.order.perm _).nodup_iff.mpr (nodup_unhealthyTargets hs'.keyed)).filter _
    · rw [List.map_id]
      split
      · next h => rw [if_pos ⟨h.1, of_decide_eq_true (List.mem_filter.mp h.2).2⟩]
      · exact Nat.zero_le _
  · simp only [hperm.mem_iff]
    by_cases hdecides : rule.id = decider found family target
    · by_cases hmem : target ∈ (eventCounts s rule input.now).map Prod.fst <;>
        simp [hdecides, hmem]
    · simp [hdecides]

theorem once_events :
    TriesKind found family target 1
      (evaluateEvents sink (rules input.order found) input) := by
  refine (Session.triesAtMost_forEach _ fun rule hrule =>
    once_eventRule sink input hu hw family target hrule).mono ?_
  exact countP_le_one (nodup_rules _ _) _ fun rule _ hc => of_decide_eq_true hc

omit hu hw

theorem once_persistence :
    TriesKind found family target 1
      (evaluatePersistence sink (rules input.order found) input) := by
  refine Session.triesAtMost_read fun s _ => ?_
  simp only
  split
  · exact Session.triesAtMost_done
  · next hid =>
    split
    · exact Session.triesAtMost_done
    · exact triesAtMost_evaluateTx (.persistence _ hid) fun _ => Nat.le_refl 1

theorem once_checks :
    TriesKind found family target
      ((enabledChecks found).countP fun c => checkFamily c = family && c.resourceId = target)
      (evaluateChecks sink (rules input.order found) input) := by
  refine Session.triesAtMost_read fun s hs => ?_
  have hchecks : enabledChecks s = enabledChecks found := by
    unfold enabledChecks
    rw [hs.checks]
  rw [hchecks, ← (input.order.perm _).countP_eq]
  refine Session.triesAtMost_forEach _ fun c hc => ?_
  have hmem : c ∈ enabledChecks s := hchecks ▸ input.order.mem_arrange.mp hc
  refine (atMostOne_evaluateCheck sink _ input s hmem).triesAtMost ?_
  rintro o ⟨hfamily, htarget, ho⟩
  refine ⟨⟨_, ho⟩, fun hkind => ?_⟩
  unfold ofKind at hkind
  rw [hfamily, htarget] at hkind
  rw [if_pos hkind]

theorem observationsHave_triesNone {families : List String} (hfamily : family ∉ families) :
    ObservationsHave sink (rules input.order found) input
      (TriesKind found family target 0) families := by
  intro o ho
  refine triesAtMost_evaluateTx ho fun hkind => ?_
  rw [ofKind_iff] at hkind
  exact absurd (hkind.1 ▸ ho.under.1.1) hfamily

end Stages

theorem Steady.cleanup {now : Time} (h : Steady found db) : Steady found (cleanup db now) :=
  ⟨h.rules, h.filesystems, h.checks, h.keyed⟩

theorem Steady.storeGracePeriod {g : GracePeriodRow} (h : Steady found db)
    (hok : storeGracePeriod g db = .ok db') : Steady found db' := by
  obtain ⟨gracePeriods, rfl⟩ := storeGracePeriod_ok hok
  exact ⟨h.rules, h.filesystems, h.checks, h.keyed⟩

theorem stages_le_subjects (db : Database) (family target : String) :
    0 + ((if family ∈ hostFamilies then 1 else 0) +
      ((if family ∈ filesystemFamilies then
          (latestFilesystems db).countP (fun f => f.mountKey = target) else 0) +
        ((if family ∈ eventFamilies then 1 else 0) +
          ((if family ∈ [familyPersistence] then 1 else 0) + 0)))) +
      (if family ∈ checkFamilies then
        (enabledChecks db).countP (fun c => checkFamily c = family && c.resourceId = target)
        else 0) ≤ subjects db family target := by
  have hfilesystem : ∀ family ∈ filesystemFamilies, family ∉ hostFamilies ∧ family ∉ eventFamilies ∧
      family ∉ [familyPersistence] ∧ family ∉ checkFamilies := by decide
  have hcheck : ∀ family ∈ checkFamilies, family ∉ hostFamilies ∧ family ∉ eventFamilies ∧
      family ∉ [familyPersistence] := by decide
  have hhost : ∀ family ∈ hostFamilies, family ∉ eventFamilies ∧ family ∉ [familyPersistence] := by
    decide
  have hevent : ∀ family ∈ eventFamilies, family ∉ [familyPersistence] := by decide
  unfold subjects
  by_cases hf : family ∈ filesystemFamilies
  · obtain ⟨h₁, h₂, h₃, h₄⟩ := hfilesystem family hf
    rw [if_pos hf, if_pos hf, if_neg h₁, if_neg h₂, if_neg h₃, if_neg h₄]
    omega
  · rw [if_neg hf, if_neg hf]
    by_cases hc : family ∈ checkFamilies
    · obtain ⟨h₁, h₂, h₃⟩ := hcheck family hc
      rw [if_pos hc, if_pos hc, if_neg h₁, if_neg h₂, if_neg h₃]
      omega
    · rw [if_neg hc, if_neg hc]
      by_cases hh : family ∈ hostFamilies
      · rw [if_pos hh, if_neg (hhost family hh).1, if_neg (hhost family hh).2]
      · rw [if_neg hh]
        by_cases he : family ∈ eventFamilies
        · rw [if_pos he, if_neg (hevent family he)]
        · rw [if_neg he]
          split <;> omega

inductive Managed (sink : Option Repository) : Database → Prop
  | empty : Managed sink Database.empty
  | seedDefaults {db db' : Database} (now : Time) : Managed sink db →
      Alerts.seedDefaults db now = .ok db' → Managed sink db'
  | createRule {db db' : Database} (v : Rule) (now : Time) : Managed sink db →
      Alerts.createRule db v now = .ok db' → Managed sink db'
  | updateRule {db db' : Database} (v : Rule) (now : Time) : Managed sink db →
      Alerts.updateRule db v now = .ok db' → Managed sink db'
  | pass {db : Database} (input : PassInput) : Managed sink db →
      Managed sink (evaluatePass sink input db).state

theorem Keyed.of_rules (h : Keyed db) (hkept : RulesKept db db') : Keyed db' := by
  intro s hs
  rw [hkept.frame] at hs
  obtain ⟨r, hr, hid, hfamily, hkey⟩ := h s hs
  obtain ⟨r', hr', hid', hfamily'⟩ := hkept.families r hr
  exact ⟨r', hr', hid'.trans hid, hfamily' ▸ hfamily, hfamily' ▸ hkey⟩

theorem Keyed.evaluatePass (h : Keyed db) : Keyed (evaluatePass sink input db).state := by
  have hsteady : Steady db db := ⟨rfl, rfl, rfl, h⟩
  refine (evaluatePass_keeps (I := Steady db) hsteady ?_ ?_ ?_).keyed
  · exact fun s s' o families hs ho hok => hs.evaluate ho hok
  · exact fun s hs => hs.cleanup
  · exact fun s gracePeriods hs => ⟨hs.rules, hs.filesystems, hs.checks, hs.keyed⟩

theorem Managed.keyed (h : Managed sink db) : Keyed db := by
  induction h with
  | empty =>
    intro s hs
    cases hs
  | seedDefaults now _ hok ih => exact ih.of_rules (seedDefaults_keeps hok)
  | createRule v now _ hok ih => exact ih.of_rules (createRule_keeps hok)
  | updateRule v now _ hok ih => exact ih.of_rules (updateRule_keeps hok)
  | pass input _ ih => exact ih.evaluatePass

theorem once_evaluatePass (hu : Unshadowed found.alertRules) (hw : WellScoped found.alertRules)
    (hkeyed : Keyed found) (family target : String) :
    (evaluatePass sink input found).tried.countP (fun x => ofKind family target x.2) ≤
      subjects found family target := by
  have hsteady : Steady found found := ⟨rfl, rfl, rfl, hkeyed⟩
  have hclosed := Session.closed_triesNone (ε := PassError) (Steady found) (ofKind family target)
  have hnone : ∀ {families}, family ∉ families →
      ObservationsHave sink (rules input.order found) input
      (TriesKind found family target 0) families :=
    fun hfamily => observationsHave_triesNone sink input family target hfamily
  -- each stage tries the kind as often as it has subjects, if the family is one of its own
  have hhost := (once_hostRules sink input hu hw family target).ite
    fun hfamily : family ∉ hostFamilies =>
      closed_hostRules hclosed (hnone hfamily) fun _ _ _ _ => Session.triesAtMost_fail _
  have hfilesystems := (once_filesystems sink input hu hw family target).ite
    fun hfamily : family ∉ filesystemFamilies => closed_filesystems hclosed (hnone hfamily)
  have hevents := (once_events sink input hu hw family target).ite
    fun hfamily : family ∉ eventFamilies => closed_events hclosed (hnone hfamily)
  have hpersistence := (once_persistence sink input family target).ite
    fun hfamily : family ∉ [familyPersistence] => closed_persistence hclosed (hnone hfamily)
  have hchecks := (once_checks sink input family target).ite
    fun hfamily : family ∉ checkFamilies => closed_checks hclosed (hnone hfamily)
  have hcleanup : TriesKind found family target 0
      (.execute fun db => .ok (cleanup db input.now) : Pass) := by
    refine Session.triesAtMost_execute fun s s' hs hok => ?_
    cases hok
    exact hs.cleanup
  have hdeployments : TriesKind found family target 0
      (correlateDeployments input) :=
    closed_deployments hclosed fun _ _ _ =>
      Session.triesAtMost_execute fun s s' hs hok => hs.storeGracePeriod hok
  have hall := (hcleanup.andThen (hhost.andThen (hfilesystems.andThen (hevents.andThen
    (hpersistence.andThen hdeployments))))).andThen hchecks
  refine Nat.le_trans (hall found hsteady).2 ?_
  exact stages_le_subjects found family target

end Once

/-! ## When it does -/

theorem Unshadowed.decided {db : Database} (hu : Unshadowed db.alertRules)
    (hw : WellScoped db.alertRules) (hkeyed : Keyed db) (sink : Option Repository)
    (input : PassInput) : Decided sink input db where
  chosen x hx := by
    obtain ⟨families, ho⟩ := observed_of_tried hx
    exact ho.chosen hu hw
  once family target := once_evaluatePass hu hw hkeyed family target
  apart x hx hscope db' hok key hkey := by
    obtain ⟨families, ho⟩ := observed_of_tried hx
    obtain ⟨rule, hrule, hmade⟩ := ho.chosen hu hw
    -- a rule that is neither global nor for a project is for exactly the target
    have htarget : x.2.rule.scopeId = x.2.target := by
      rw [hmade] at hscope ⊢
      rcases mostSpecific_cases hrule with hexact | ⟨project, hproject⟩ | hglobal
      · exact (concerns_of_ruleFor hexact).2.2.2.2
      · refine absurd ?_ hscope
        simp [(concerns_of_ruleFor hproject).2.2.2.1]
      · refine absurd ?_ hscope
        simp [(concerns_of_ruleFor hglobal).2.2.2.1]
    rw [evaluate_state hok, if_neg]
    rw [Observation.key, ← htarget]
    exact hkey.symm

theorem mostSpecific_probe (rules : Table AlertRuleRow.id) (family resource : String)
    (project : Option String) (states : Table EvaluationStateRow.dedupKey)
    (checks : Table HealthCheckRow.id) :
    mostSpecific (probe rules resource project states checks) family "resource" resource =
      ((ruleFor rules family "resource" resource).or
        (project.bind (ruleFor rules family "project"))).or (ruleFor rules family "global" "") := by
  have hproject : projectOf (probe rules resource project states checks) "resource" resource =
      project := by simp [projectOf, probe, Table.find?]
  rw [mostSpecific, hproject]
  rfl

section Shadowed

variable {rules : Table AlertRuleRow.id} (hw : WellScoped rules)
  (hall : ∀ sink input db, db.alertRules = rules → Keyed db → Decided sink input db)

include hw hall

theorem no_project_of_decided {r g : AlertRuleRow} (hr : r ∈ rules.rows) (hg : g ∈ rules.rows)
    (henabled : r.enabled = true) (hfamily : r.family ∈ checkFamilies)
    (htype : r.scopeType = "project") (henabled' : g.enabled = true)
    (hfamily' : g.family = r.family) : g.scopeType ≠ "global" := by
  intro htype'
  obtain ⟨name, -, hname⟩ := exists_unscoped rules
  let db := probe rules name (some r.scopeId) .empty
    ⟨[probeCheck r.family name], List.nodup_singleton _⟩
  have hmem := List.mem_map_of_mem (f := ruleOf) hr
  have hmem' := List.mem_map_of_mem (f := ruleOf) hg
  have hglobal : ruleFor rules r.family "global" "" = some (ruleOf g) :=
    hw.ruleFor_eq_some.mpr ⟨hmem', (hw.concerns_global hmem').mpr ⟨henabled', hfamily', htype'⟩⟩
  have hproject : ruleFor rules r.family "project" r.scopeId = some (ruleOf r) :=
    hw.ruleFor_eq_some.mpr ⟨hmem, henabled, rfl, htype, rfl⟩
  -- the code decides by the global rule
  have heffective : ∀ order, effectiveRule (Alerts.rules order db) r.family "resource" name =
      ruleOf g := by
    refine fun order => effectiveRule_of_found hw ?_
    show (ruleFor rules r.family "resource" name).or (ruleFor rules r.family "global" "") = _
    rw [ruleFor_unscoped hname, hglobal]
    rfl
  obtain ⟨x, hx, hmade, hresource, htarget⟩ := tries_check hfamily name (some r.scopeId) heffective
    (hw.named g hg)
  -- the most specific one is that of the project
  obtain ⟨rule, hrule, hmade'⟩ := (hall none (passAt 0) db rfl fun _ hs => nomatch hs).chosen x hx
  have hspecific : mostSpecific db r.family "resource" name = some (ruleOf r) := by
    rw [mostSpecific_probe, ruleFor_unscoped hname, Option.bind_some, hproject]
    rfl
  have hxfamily : x.2.rule.family = r.family := by
    rw [hmade]
    exact hfamily'
  rw [hxfamily, hresource, htarget, hspecific] at hrule
  cases hrule
  have hid : g.id = r.id := (congrArg Rule.id hmade).symm.trans (congrArg Rule.id hmade')
  have hsame := Table.eq_of_key_eq hg hr hid
  rw [hsame, htype] at htype'
  exact absurd htype' (by decide)

omit hw in
theorem mostSpecific_of_decided {r : AlertRuleRow} {threshold : ℚ} (hr : r ∈ rules.rows)
    (hcounts : CountsEvents (ruleOf r) threshold) (resource : String) (project : Option String) :
    ((ruleFor rules r.family "resource" resource).or
      (project.bind (ruleFor rules r.family "project"))).or (ruleFor rules r.family "global" "") =
      some (ruleOf r) := by
  obtain ⟨x, hx, hmade, hresource, htarget⟩ := tries_pending hr hcounts resource project
  let db := probe rules resource project ⟨[pendingState r resource], List.nodup_singleton _⟩ .empty
  have hkeyed : Keyed db := by
    intro s hs
    rw [List.mem_singleton.mp hs]
    have hfamily : r.family ∈ eventFamilies := hcounts.2.2
    exact ⟨r, hr, rfl, by simp [earlierFamilies, hfamily], rfl⟩
  obtain ⟨rule, hrule, hmade'⟩ := (hall none (passAt 0) db rfl hkeyed).chosen x hx
  have hstored : rule ∈ rules.rows.map ruleOf := by
    rcases mostSpecific_cases hrule with h | ⟨_, h⟩ | h <;> exact (concerns_of_ruleFor h).1
  rw [hmade, hresource, htarget, mostSpecific_probe] at hrule
  obtain ⟨r', hr', rfl⟩ := List.mem_map.mp hstored
  have hid : r.id = r'.id := (congrArg Rule.id hmade).symm.trans (congrArg Rule.id hmade')
  exact hrule.trans (by rw [Table.eq_of_key_eq hr hr' hid])

end Shadowed

/-- A pass advances each key once per observed subject and under the most specific rule, over
every database, exactly if the rule set is unshadowed. -/
theorem one_rule_decides_iff {rules : Table AlertRuleRow.id} (h : RuleSet rules) :
    (∀ sink input db, db.alertRules = rules → Keyed db → Decided sink input db) ↔
      Unshadowed rules := by
  have hw := h.wellScoped
  constructor
  · intro hall
    refine ⟨fun r hr henabled hfamily htype g hg henabled' hfamily' => no_project_of_decided hw hall
      hr hg henabled hfamily htype henabled' hfamily', fun r hr henabled hfamily ht => ?_⟩
    obtain ⟨threshold, ht⟩ := Option.isSome_iff_exists.mp ht
    have hspecific := mostSpecific_of_decided hall hr ⟨ht, henabled, hfamily⟩
    have hglobal : r.scopeType = "global" := by
      obtain ⟨name, -, hname⟩ := exists_unscoped rules
      have hfound := hspecific name none
      rw [ruleFor_unscoped hname] at hfound
      exact (concerns_of_ruleFor hfound).2.2.2.1
    refine ⟨hglobal, fun r' hr' henabled' hfamily' htype => ?_⟩
    -- the rule for the resource or the project would be the one
    have hfor : ∀ scopeType, r'.scopeType = scopeType →
        ruleFor rules r.family scopeType r'.scopeId = some (ruleOf r') := fun scopeType hscope =>
      hw.ruleFor_eq_some.mpr ⟨List.mem_map_of_mem hr', henabled', hfamily', hscope, rfl⟩
    simp only [List.mem_cons, List.not_mem_nil, or_false] at htype
    have hsame : ruleOf r' = ruleOf r := by
      rcases htype with htype | htype
      · have hfound := hspecific r'.scopeId none
        rw [hfor "resource" htype] at hfound
        exact Option.some.inj hfound
      · obtain ⟨name, -, hname⟩ := exists_unscoped rules
        have hfound := hspecific name (some r'.scopeId)
        rw [ruleFor_unscoped hname, Option.bind_some, hfor "project" htype] at hfound
        exact Option.some.inj hfound
    have hscope : r'.scopeType = r.scopeType := congrArg Rule.scopeType hsame
    rw [hglobal] at hscope
    rw [hscope] at htype
    revert htype
    decide
  · rintro hu sink input db rfl hkeyed
    exact hu.decided hw hkeyed sink input

/-! ### A rule for one resource and the events of another -/

/-- A restart-storm rule for the resource `web`. -/
def webStorm : Rule :=
  { id := "web-storm", family := familyRestartStorm, name := "Web restarts", severity := .warning
    scopeType := "resource", scopeId := "web", threshold := some 1, window := 10 * minute }

theorem nodup_server : ([⟨"host", "h", "Server"⟩].map HostRow.id).Nodup := by decide

/-- The resource `api` has restarted once. -/
def apiRestarted (db : Database) : Database :=
  { db with
    hosts := ⟨[⟨"host", "h", "Server"⟩], nodup_server⟩
    resources := ⟨[⟨"api", "host", "k", "docker", "api", "", none, none, "app", "healthy", none, 0,
      0⟩], List.nodup_singleton _⟩
    events := ⟨[{ id := "restart", ts := 0, resourceId := some "api", type := "container_restart",
                  severity := "info", summary := "", source := "docker", createdAt := 0 }],
      List.nodup_singleton _⟩ }

/-- Under the built-in rules one rule decides `api`. -/
theorem one_rule_decides_iff_seeded :
    Decided (some {}) (passAt 0) (apiRestarted (seededDatabase [])) :=
  (one_rule_decides_iff ⟨_, accepted_seededDatabase [], rfl⟩).mpr (by decide +kernel) (some {})
    (passAt 0) (apiRestarted (seededDatabase [])) rfl fun _ hs => nomatch hs

/-- With the rule for `web`, the state of `api` is advanced twice, the second time under the rule
for `web`. -/
theorem scoped_rule_decides_others :
    RuleSet (seededDatabase [webStorm]).alertRules ∧
    ((evaluatePass (some {}) (passAt 0) (apiRestarted (seededDatabase [webStorm]))).tried.map
      fun x => (x.2.rule.id, x.2.target)) =
      [("builtin-docker-down", "docker"), ("builtin-restart-storm", "api"), ("web-storm", "api")] ∧
    ¬ Decided (some {}) (passAt 0) (apiRestarted (seededDatabase [webStorm])) := by
  refine ⟨⟨_, accepted_seededDatabase [webStorm], rfl⟩, by decide +kernel, fun h => ?_⟩
  have honce := h.once familyRestartStorm "api"
  revert honce
  decide +kernel

end Binnacle.Alerts
