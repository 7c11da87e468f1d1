import Binnacle.Alerts.Pass

/-!
# Rule sets

The rules that `SeedDefaults`, `CreateRule` and `UpdateRule` can store, and which of them is
meant for a target.

- `Accepted`: the databases that the three operations lead to;
- `WellScoped`: what their checks and the constraints of `alert_rules` leave of rules: an id, and
  a scope that no other rule of the family has.
-/

namespace Binnacle.Alerts

open Relational Storage

inductive Accepted : Database → Prop where
  | empty : Accepted Database.empty
  | seedDefaults {db db' : Database} {now : Time} : Accepted db →
      Alerts.seedDefaults db now = .ok db' → Accepted db'
  | createRule {db db' : Database} {rule : Rule} {now : Time} : Accepted db →
      Alerts.createRule db rule now = .ok db' → Accepted db'
  | updateRule {db db' : Database} {rule : Rule} {now : Time} : Accepted db →
      Alerts.updateRule db rule now = .ok db' → Accepted db'

def RuleSet (rules : Table AlertRuleRow.id) : Prop := ∃ db, Accepted db ∧ db.alertRules = rules

/-! ## What accepted rules have -/

structure WellScoped (rules : Table AlertRuleRow.id) : Prop where
  named : ∀ r ∈ rules.rows, r.id ≠ ""
  apart : ∀ r ∈ rules.rows, ∀ r' ∈ rules.rows, r.family = r'.family → r.scopeType = r'.scopeType →
    r.scopeId = r'.scopeId → r = r'
  global : ∀ r ∈ rules.rows, r.scopeType = "global" → r.scopeId = ""

variable {db db' : Database} {v : Rule} {now : Time}

theorem WellScoped.insertRule {builtIn : Bool} {cooldownSeconds repeatSeconds now : Int}
    (h : WellScoped db.alertRules)
    (hok : insertRule db v builtIn cooldownSeconds repeatSeconds now = .ok db') (hid : v.id ≠ "")
    (hglobal : v.scopeType = "global" → v.scopeId = "") : WellScoped db'.alertRules := by
  obtain ⟨hfree, level, hrows, -⟩ := insertRule_row hok
  refine ⟨fun r hr => ?_, fun r hr r' hr' hfamily htype hscope => ?_, fun r hr => ?_⟩
  · rcases mem_snoc hrows hr with hr | rfl
    · exact h.named r hr
    · exact hid
  · rcases mem_snoc hrows hr with hr | rfl
    · rcases mem_snoc hrows hr' with hr' | rfl
      · exact h.apart r hr r' hr' hfamily htype hscope
      · exact absurd ⟨hfamily, htype, hscope⟩ (hfree r hr)
    · rcases mem_snoc hrows hr' with hr' | rfl
      · exact absurd ⟨hfamily.symm, htype.symm, hscope.symm⟩ (hfree r' hr')
      · rfl
  · rcases mem_snoc hrows hr with hr | rfl
    · exact h.global r hr
    · exact hglobal

theorem WellScoped.seedDefaults (h : WellScoped db.alertRules)
    (hok : seedDefaults db now = .ok db') : WellScoped db'.alertRules := by
  have hdefaults : ∀ v ∈ defaultRules, v.id ≠ "" ∧ v.scopeId = "" := by decide
  refine (foldlM_ok_inv (fun l s => (∀ v ∈ l, v ∈ defaultRules) ∧ WellScoped s.alertRules)
    (fun v l s s' hs hseed => ?_) hok ⟨fun _ hv => hv, h⟩).2
  refine ⟨fun w hw => hs.1 w (List.mem_cons_of_mem v hw), ?_⟩
  obtain ⟨hid, hscope⟩ := hdefaults v (hs.1 v List.mem_cons_self)
  unfold seedRule at hseed
  split at hseed
  · cases hseed
    exact hs.2
  · exact hs.2.insertRule hseed hid fun _ => hscope

theorem WellScoped.createRule (h : WellScoped db.alertRules)
    (hok : createRule db v now = .ok db') : WellScoped db'.alertRules := by
  have hinserted := createRule_ok hok
  unfold Alerts.createRule at hok
  split at hok
  · cases hok
  · next hvalid =>
    simp only [Bool.or_eq_true, decide_eq_true_eq, not_or] at hvalid
    exact h.insertRule hinserted hvalid.1.1.1.1 fun hglobal => absurd hglobal hvalid.1.2

theorem WellScoped.updateRule (h : WellScoped db.alertRules)
    (hok : updateRule db v now = .ok db') : WellScoped db'.alertRules := by
  obtain ⟨f, hrows, -, hf⟩ := updateRule_rows hok
  have hmem : ∀ {r}, r ∈ db'.alertRules.rows → ∃ s ∈ db.alertRules.rows, f s = r := by
    intro r hr
    rw [hrows] at hr
    exact List.mem_map.mp hr
  refine ⟨fun r hr => ?_, fun r hr r' hr' hfamily htype hscope => ?_, fun r hr htype => ?_⟩
  · obtain ⟨s, hs, rfl⟩ := hmem hr
    rw [(hf s).1]
    exact h.named s hs
  · obtain ⟨s, hs, rfl⟩ := hmem hr
    obtain ⟨s', hs', rfl⟩ := hmem hr'
    rw [(hf s).2.1, (hf s').2.1] at hfamily
    rw [(hf s).2.2.1, (hf s').2.2.1] at htype
    rw [(hf s).2.2.2, (hf s').2.2.2] at hscope
    rw [h.apart s hs s' hs' hfamily htype hscope]
  · obtain ⟨s, hs, rfl⟩ := hmem hr
    rw [(hf s).2.2.1] at htype
    rw [(hf s).2.2.2]
    exact h.global s hs htype

theorem Accepted.wellScoped (h : Accepted db) : WellScoped db.alertRules := by
  induction h with
  | empty => exact ⟨fun _ hr => (nomatch hr), fun _ hr => (nomatch hr), fun _ hr => (nomatch hr)⟩
  | seedDefaults _ hok ih => exact ih.seedDefaults hok
  | createRule _ hok ih => exact ih.createRule hok
  | updateRule _ hok ih => exact ih.updateRule hok

theorem RuleSet.wellScoped {rules : Table AlertRuleRow.id} (h : RuleSet rules) :
    WellScoped rules := by
  obtain ⟨db, hdb, rfl⟩ := h
  exact hdb.wellScoped

def seededWith (created : List Rule) : Except RuleError Database := do
  let db ← (Alerts.seedDefaults Database.empty 0).mapError .sql
  created.foldlM (fun db rule => Alerts.createRule db rule 0) db

def seededDatabase (created : List Rule) : Database :=
  (seededWith created).toOption.getD Database.empty

theorem accepted_seededDatabase (created : List Rule) : Accepted (seededDatabase created) := by
  unfold seededDatabase
  cases h : seededWith created with
  | error e => exact .empty
  | ok db =>
    obtain ⟨db₁, h₁, h₂⟩ := bind_ok.mp h
    have hseeded : Accepted db₁ := .seedDefaults .empty (mapError_ok.mp h₁)
    exact foldlM_ok_inv (fun _ db => Accepted db) (fun _ _ _ _ hdb hok => hdb.createRule hok) h₂
      hseeded

theorem exists_unscoped (rules : Table AlertRuleRow.id) :
    ∃ name, name ≠ "" ∧ ∀ r ∈ rules.rows, r.scopeId ≠ name := by
  obtain ⟨name, hname⟩ := Infinite.exists_notMem_finset
    ("" :: rules.rows.map AlertRuleRow.scopeId).toFinset
  simp only [List.toFinset_cons, Finset.mem_insert, List.mem_toFinset, List.mem_map, not_or,
    not_exists, not_and] at hname
  exact ⟨name, hname.1, fun r hr hscope => hname.2 r hr hscope⟩

/-! ## The rule meant for a target -/

def Concerns (family scopeType scopeId : String) (rule : Rule) : Prop :=
  rule.enabled = true ∧ rule.family = family ∧ rule.scopeType = scopeType ∧ rule.scopeId = scopeId

instance (family scopeType scopeId : String) (rule : Rule) :
    Decidable (Concerns family scopeType scopeId rule) := inferInstanceAs (Decidable (_ ∧ _))

def ruleFor (rules : Table AlertRuleRow.id) (family scopeType scopeId : String) : Option Rule :=
  (rules.rows.map ruleOf).find? fun rule => Concerns family scopeType scopeId rule

def projectOf (db : Database) (targetType target : String) : Option String :=
  if targetType = "resource" then (db.resources.find? target).bind ResourceRow.projectName else none

def mostSpecific (db : Database) (family targetType target : String) : Option Rule :=
  ((ruleFor db.alertRules family targetType target).or
    ((projectOf db targetType target).bind (ruleFor db.alertRules family "project"))).or
    (ruleFor db.alertRules family "global" "")

section RuleFor

variable {rules : Table AlertRuleRow.id} {family scopeType scopeId : String} {rule : Rule}

theorem WellScoped.eq_of_concerns (h : WellScoped rules) {rule' : Rule}
    (hmem : rule ∈ rules.rows.map ruleOf) (hmem' : rule' ∈ rules.rows.map ruleOf)
    (hc : Concerns family scopeType scopeId rule) (hc' : Concerns family scopeType scopeId rule') :
    rule = rule' := by
  obtain ⟨r, hr, rfl⟩ := List.mem_map.mp hmem
  obtain ⟨r', hr', rfl⟩ := List.mem_map.mp hmem'
  obtain ⟨-, hfamily, htype, hscope⟩ := hc
  obtain ⟨-, hfamily', htype', hscope'⟩ := hc'
  rw [h.apart r hr r' hr' (hfamily.trans hfamily'.symm) (htype.trans htype'.symm)
    (hscope.trans hscope'.symm)]

theorem concerns_of_ruleFor (h : ruleFor rules family scopeType scopeId = some rule) :
    rule ∈ rules.rows.map ruleOf ∧ Concerns family scopeType scopeId rule := by
  unfold ruleFor at h
  have hfound := List.find?_some h
  exact ⟨List.mem_of_find?_eq_some h, of_decide_eq_true hfound⟩

theorem WellScoped.ruleFor_eq_some (h : WellScoped rules) :
    ruleFor rules family scopeType scopeId = some rule ↔
      rule ∈ rules.rows.map ruleOf ∧ Concerns family scopeType scopeId rule := by
  refine ⟨concerns_of_ruleFor, fun ⟨hmem, hc⟩ => ?_⟩
  cases hfind : ruleFor rules family scopeType scopeId with
  | none => exact absurd (decide_eq_true hc) (List.find?_eq_none.mp hfind rule hmem)
  | some rule' =>
    obtain ⟨hmem', hc'⟩ := concerns_of_ruleFor hfind
    rw [h.eq_of_concerns hmem' hmem hc' hc]

theorem mostSpecific_cases {db : Database} {targetType target : String}
    (h : mostSpecific db family targetType target = some rule) :
    ruleFor db.alertRules family targetType target = some rule ∨
      (∃ project, ruleFor db.alertRules family "project" project = some rule) ∨
        ruleFor db.alertRules family "global" "" = some rule := by
  unfold mostSpecific at h
  rcases Option.or_eq_some_iff.mp h with h | ⟨-, h⟩
  · rcases Option.or_eq_some_iff.mp h with h | ⟨-, h⟩
    · exact .inl h
    · obtain ⟨project, -, hrule⟩ := Option.bind_eq_some_iff.mp h
      exact .inr (.inl ⟨project, hrule⟩)
  · exact .inr (.inr h)

theorem ruleFor_eq_none : ruleFor rules family scopeType scopeId = none ↔
    ∀ rule ∈ rules.rows.map ruleOf, ¬ Concerns family scopeType scopeId rule := by
  unfold ruleFor
  rw [List.find?_eq_none]
  simp only [decide_eq_true_eq]

theorem ruleFor_unscoped (h : ∀ r ∈ rules.rows, r.scopeId ≠ scopeId) :
    ruleFor rules family scopeType scopeId = none := by
  refine ruleFor_eq_none.mpr fun rule hmem hc => ?_
  obtain ⟨r, hr, rfl⟩ := List.mem_map.mp hmem
  exact h r hr hc.2.2.2

end RuleFor

/-! ## What `effectiveRule` answers -/

section Effective

variable {family targetType target : String} {rule global : Rule} {l : List Rule}

theorem effectiveRuleFrom_cons (head : Rule) :
    effectiveRuleFrom family targetType target global (head :: l) =
      if Concerns family targetType target head then head
      else effectiveRuleFrom family targetType target
        (if head.enabled = true ∧ head.family = family ∧ head.scopeType = "global" then head
          else global) l := by
  rw [effectiveRuleFrom]
  by_cases hrule : head.enabled = true ∧ head.family = family
  · simp only [Concerns, hrule, Bool.not_true, ne_eq, not_true_eq_false, decide_false,
      Bool.or_self, Bool.false_eq_true, if_false, Bool.and_eq_true, decide_eq_true_eq, true_and,
      apply_ite (effectiveRuleFrom family targetType target · l)]
  · rw [if_pos (by_contra fun h => hrule (by simpa using h)), if_neg fun h => hrule ⟨h.1, h.2.1⟩,
      if_neg fun h => hrule ⟨h.1, h.2.1⟩]

/-- The rule for exactly the target is found, wherever it stands. -/
theorem effectiveRuleFrom_exact (hmem : rule ∈ l) (hc : Concerns family targetType target rule)
    (honly : ∀ rule' ∈ l, Concerns family targetType target rule' → rule' = rule) :
    effectiveRuleFrom family targetType target global l = rule := by
  induction l generalizing global with
  | nil => cases hmem
  | cons head l ih =>
    rw [effectiveRuleFrom_cons]
    split
    · next hhead => exact honly head List.mem_cons_self hhead
    · next hhead =>
      have hmem' : rule ∈ l := (List.mem_cons.mp hmem).resolve_left fun h => hhead (h ▸ hc)
      exact ih hmem' fun rule' hrule' => honly rule' (List.mem_cons_of_mem head hrule')

/-- Without a rule for exactly the target, the last global rule is found. -/
theorem effectiveRuleFrom_global (hnone : ∀ rule' ∈ l, ¬ Concerns family targetType target rule')
    (honly : ∀ rule' ∈ l, rule'.enabled = true → rule'.family = family →
      rule'.scopeType = "global" → rule' = rule)
    (hrule : global = rule ∨ ∃ rule' ∈ l, rule'.enabled = true ∧ rule'.family = family ∧
      rule'.scopeType = "global") :
    effectiveRuleFrom family targetType target global l = rule := by
  induction l generalizing global with
  | nil =>
    rcases hrule with rfl | ⟨rule', hrule', -⟩
    · rfl
    · cases hrule'
  | cons head l ih =>
    rw [effectiveRuleFrom_cons, if_neg (hnone head List.mem_cons_self)]
    refine ih (fun rule' hrule' => hnone rule' (List.mem_cons_of_mem head hrule'))
      (fun rule' hrule' => honly rule' (List.mem_cons_of_mem head hrule')) ?_
    split
    · next hglobal => exact .inl (honly head List.mem_cons_self hglobal.1 hglobal.2.1 hglobal.2.2)
    · next hother =>
      refine hrule.imp_right fun ⟨rule', hrule', hglobal⟩ => ?_
      rcases List.mem_cons.mp hrule' with rfl | hrule'
      · exact absurd hglobal hother
      · exact ⟨rule', hrule', hglobal⟩

end Effective

section EffectiveRule

variable {db : Database} {family targetType target : String} {order : RowOrder} {rule : Rule}

theorem mem_rules :
    rule ∈ rules order db ↔ rule ∈ db.alertRules.rows.map ruleOf := by
  rw [rules_mem_iff, List.mem_map]

theorem nodup_rules (order : RowOrder) (db : Database) : ((rules order db).map Rule.id).Nodup := by
  have hperm : (rules order db).Perm (db.alertRules.rows.map ruleOf) :=
    ((List.perm_insertionSort _ _).trans (order.perm _)).map ruleOf
  rw [(hperm.map Rule.id).nodup_iff, List.map_map]
  exact db.alertRules.nodup

theorem rules_eq_of_id {rule' : Rule} (h : rule ∈ rules order db) (h' : rule' ∈ rules order db)
    (hid : rule.id = rule'.id) : rule = rule' :=
  List.inj_on_of_nodup_map (nodup_rules order db) h h' hid

theorem WellScoped.concerns_global {rules : Table AlertRuleRow.id} (h : WellScoped rules)
    (hmem : rule ∈ rules.rows.map ruleOf) :
    Concerns family "global" "" rule ↔
      rule.enabled = true ∧ rule.family = family ∧ rule.scopeType = "global" := by
  refine ⟨fun hc => ⟨hc.1, hc.2.1, hc.2.2.1⟩, fun ⟨henabled, hfamily, htype⟩ => ?_⟩
  obtain ⟨r, hr, rfl⟩ := List.mem_map.mp hmem
  exact ⟨henabled, hfamily, htype, h.global r hr htype⟩

/-- `effectiveRule` answers the rule for exactly the target, else the global one. -/
theorem effectiveRule_eq (h : WellScoped db.alertRules) :
    effectiveRule (rules order db) family targetType target =
      ((ruleFor db.alertRules family targetType target).or
        (ruleFor db.alertRules family "global" "")).getD Rule.zero := by
  unfold effectiveRule
  cases hexact : ruleFor db.alertRules family targetType target with
  | some rule =>
    obtain ⟨hmem, hc⟩ := h.ruleFor_eq_some.mp hexact
    exact effectiveRuleFrom_exact (mem_rules.mpr hmem) hc fun rule' hrule' hc' =>
      h.eq_of_concerns (mem_rules.mp hrule') hmem hc' hc
  | none =>
    have hnone : ∀ rule ∈ rules order db, ¬ Concerns family targetType target rule :=
      fun rule hrule => ruleFor_eq_none.mp hexact rule (mem_rules.mp hrule)
    cases hglobal : ruleFor db.alertRules family "global" "" with
    | some rule =>
      obtain ⟨hmem, hc⟩ := h.ruleFor_eq_some.mp hglobal
      refine effectiveRuleFrom_global hnone (fun rule' hrule' henabled hfamily htype => ?_)
        (.inr ⟨rule, mem_rules.mpr hmem, (h.concerns_global hmem).mp hc⟩)
      have hmem' := mem_rules.mp hrule'
      exact h.eq_of_concerns hmem' hmem
        ((h.concerns_global hmem').mpr ⟨henabled, hfamily, htype⟩) hc
    | none =>
      refine effectiveRuleFrom_global hnone
        (fun rule' hrule' henabled hfamily htype => ?_) (.inl rfl)
      have hmem' := mem_rules.mp hrule'
      exact absurd ((h.concerns_global hmem').mpr ⟨henabled, hfamily, htype⟩)
        (ruleFor_eq_none.mp hglobal rule' hmem')

theorem effectiveRule_some (h : WellScoped db.alertRules)
    (hid : (effectiveRule (rules order db) family targetType target).id ≠ "") :
    (ruleFor db.alertRules family targetType target).or (ruleFor db.alertRules family "global" "") =
      some (effectiveRule (rules order db) family targetType target) := by
  rw [effectiveRule_eq h] at hid ⊢
  generalize (ruleFor db.alertRules family targetType target).or
    (ruleFor db.alertRules family "global" "") = answer at hid ⊢
  cases answer with
  | none => exact absurd rfl hid
  | some rule => rfl

theorem effectiveRule_of_found (h : WellScoped db.alertRules)
    (hfound : (ruleFor db.alertRules family targetType target).or
      (ruleFor db.alertRules family "global" "") = some rule) :
    effectiveRule (rules order db) family targetType target = rule := by
  rw [effectiveRule_eq h, hfound]
  rfl

theorem found_of_id (h : WellScoped db.alertRules) (hrule : rule ∈ rules order db)
    (hid : (effectiveRule (rules order db) family targetType target).id = rule.id) :
    (ruleFor db.alertRules family targetType target).or
      (ruleFor db.alertRules family "global" "") = some rule := by
  have hnamed : (effectiveRule (rules order db) family targetType target).id ≠ "" := by
    obtain ⟨r, hr, rfl⟩ := rules_mem_iff.mp hrule
    rw [hid]
    exact h.named r hr
  rw [effectiveRule_some h hnamed, rules_eq_of_id (effectiveRule_cases hnamed).1 hrule hid]

/-- The rule found is the most specific one, unless a rule for the target's project stands
behind a global one. -/
theorem mostSpecific_of_found
    (hfound : (ruleFor db.alertRules family targetType target).or
      (ruleFor db.alertRules family "global" "") = some rule)
    (hproject :
      (projectOf db targetType target).bind (ruleFor db.alertRules family "project") = none ∨
      ruleFor db.alertRules family "global" "" = none) :
    mostSpecific db family targetType target = some rule := by
  unfold mostSpecific
  rcases hproject with hnone | hnone
  · rw [hnone, Option.or_none]
    exact hfound
  · rw [hnone, Option.or_none] at hfound
    rw [hfound, Option.some_or, Option.some_or]

end EffectiveRule

end Binnacle.Alerts
