import Binnacle.Alerts.Quiet
import Mathlib.Tactic.Linarith

/-!
# Thresholds of accepted rules

A pass dereferences both thresholds of the host rule that applies, and compares what it observes
of the host and of filesystems with a threshold and a recovery threshold. Neither `CreateRule` nor
`UpdateRule` looks at either of them.

`evaluation_safe_iff` says for which rule sets no pass panics and no observation is both failing
and recovered: those in which the host rules that apply have both thresholds, and the recovery
threshold of a host or filesystem rule that can apply is not above the threshold.
-/

namespace Binnacle.Alerts

open Relational Storage Metrics Notifications

structure Safe (sink : Option Repository) (input : PassInput) (db : Database) : Prop where
  noPanic : ∀ rule, (evaluatePass sink input db).error ≠ some (.nilThreshold rule)
  exclusive : ∀ x ∈ (evaluatePass sink input db).tried,
    ¬ (x.2.failing = true ∧ x.2.recovered = true)

def Rule.Ordered (rule : Rule) : Prop :=
  (rule.threshold.any fun t => rule.recoveryThreshold.any fun r => r ≤ t) = true

instance (rule : Rule) : Decidable rule.Ordered := inferInstanceAs (Decidable (_ = true))

variable {rule : Rule}

theorem Rule.ordered_iff : rule.Ordered ↔
    ∃ t r, rule.threshold = some t ∧ rule.recoveryThreshold = some r ∧ r ≤ t := by
  unfold Rule.Ordered
  cases rule.threshold with
  | none => simp
  | some t =>
    cases rule.recoveryThreshold with
    | none => simp
    | some r => simp

def hostRule (rules : Table AlertRuleRow.id) (family : String) : Option Rule :=
  (ruleFor rules family "host" "server").or (ruleFor rules family "global" "")

/-- The host rules that apply have thresholds in order, and so has every filesystem rule that can
apply, if it has both. -/
def Guarded (rules : Table AlertRuleRow.id) : Prop :=
  (∀ family ∈ [familyHostCPU, familyHostMemory], ∀ rule ∈ (hostRule rules family).toList,
    rule.Ordered) ∧
  ∀ r ∈ rules.rows, r.enabled = true → r.family ∈ filesystemFamilies →
    r.scopeType ∈ ["global", "filesystem"] → r.threshold.isSome = true →
      r.recoveryThreshold.isSome = true → (ruleOf r).Ordered

instance (rules : Table AlertRuleRow.id) : Decidable (Guarded rules) :=
  @instDecidableAnd _ _ inferInstance inferInstance

/-! ## Under guarded rules -/

section Guarded

variable {db : Database} {order : RowOrder} {now : Time} {families : List String} {o : Observation}

theorem Guarded.host_ordered (hg : Guarded db.alertRules) (hw : WellScoped db.alertRules)
    (hrule : rule ∈ rules order db) (hfamily : rule.family ∈ [familyHostCPU, familyHostMemory])
    (hid : (effectiveRule (rules order db) rule.family "host" "server").id = rule.id) :
    rule.Ordered := by
  refine hg.1 _ hfamily rule ?_
  rw [hostRule, found_of_id hw hrule hid]
  exact List.mem_singleton_self rule

theorem scope_of_effective (hw : WellScoped db.alertRules) {mount : String}
    (hrule : rule ∈ rules order db)
    (hid : (effectiveRule (rules order db) rule.family "filesystem" mount).id = rule.id) :
    rule.scopeType ∈ ["global", "filesystem"] := by
  rcases Option.or_eq_some_iff.mp (found_of_id hw hrule hid) with h | ⟨-, h⟩
  · simp [(concerns_of_ruleFor h).2.2.2.1]
  · simp [(concerns_of_ruleFor h).2.2.2.1]

theorem Rule.Ordered.exclusive (h : rule.Ordered) {t r v : ℚ}
    (ht : rule.threshold = some t) (hr : rule.recoveryThreshold = some r) :
    ¬ (decide (v > t) = true ∧ decide (v < r) = true) := by
  obtain ⟨t', r', ht', hr', hle⟩ := Rule.ordered_iff.mp h
  rw [ht] at ht'
  rw [hr] at hr'
  cases ht'
  cases hr'
  rw [decide_eq_true_eq, decide_eq_true_eq]
  rintro ⟨habove, hbelow⟩
  linarith

theorem Observed.exclusive (hw : WellScoped db.alertRules) (hg : Guarded db.alertRules)
    (ho : Observed (rules order db) now families o) :
    ¬ (o.failing = true ∧ o.recovered = true) := by
  cases ho with
  | @host rule v _ _ hrule _ hfamily hid ht hr =>
    exact (hg.host_ordered hw hrule hfamily hid).exclusive ht hr
  | docker state =>
    rintro ⟨hfailing, hrecovered⟩
    have hdown := of_decide_eq_true hfailing
    have hhealthy := of_decide_eq_true hrecovered
    rw [hdown] at hhealthy
    cases hhealthy
  | filesystem mount v hrule henabled hfamily hid ht hr =>
    have hscope := scope_of_effective hw hrule hid
    obtain ⟨r, hmem, rfl⟩ := rules_mem_iff.mp hrule
    have hordered := hg.2 r hmem henabled hfamily hscope (Option.isSome_iff_exists.mpr ⟨_, ht⟩)
      (Option.isSome_iff_exists.mpr ⟨_, hr⟩)
    exact hordered.exclusive ht hr
  | counted resource count _ _ _ _ hpos =>
    rintro ⟨-, hrecovered⟩
    have hle : (count : ℚ) ≤ 0 := of_decide_eq_true hrecovered
    have hlt : (0 : ℚ) < count := by exact_mod_cast hpos
    linarith
  | uncounted => exact fun h => Bool.false_ne_true h.1
  | persistence eventType =>
    rintro ⟨hfailing, hrecovered⟩
    have hresumed : eventType = "persistence_resumed" := of_decide_eq_true hrecovered
    rw [hresumed] at hfailing
    simp [persistenceObservation] at hfailing
  | @check db' c =>
    rintro ⟨hfailing, hrecovered⟩
    have hfailure : checkStatus db' c = .failure := of_decide_eq_true hfailing
    have hsuccess : checkStatus db' c = .success := of_decide_eq_true hrecovered
    rw [hfailure] at hsuccess
    cases hsuccess

def NoPanic (p : Pass) : Prop := ∀ s rule, (p s).error ≠ some (.nilThreshold rule)

theorem noPanic_execute {t : Database → Except PassError Database}
    (h : ∀ s rule, t s ≠ .error (.nilThreshold rule)) : NoPanic (.execute t) := by
  intro s rule herror
  unfold Session.execute at herror
  split at herror
  · cases herror
  · next e he =>
    rw [Option.some.inj herror] at he
    exact h s rule he

theorem noPanic_evaluateTx (sink : Option Repository) (draws : Draws) (o : Observation) :
    NoPanic (evaluateTx sink draws o) := by
  intro s rule herror
  unfold evaluateTx Session.transact at herror
  split at herror
  · cases herror
  · next e he =>
    rw [Option.some.inj herror] at he
    simp only at he
    cases hev : evaluate sink (draws.draw s) s o with
    | ok db | error e => rw [hev] at he; cases he

theorem closed_noPanic : Session.Closed NoPanic where
  done _ _ h := nomatch h
  read h s rule := h s s rule
  andThen {p q} hp hq s rule herror := by
    cases he : (p s).error with
    | some e =>
      rw [Session.andThen_of_error he] at herror
      exact hp s rule herror
    | none =>
      rw [Session.andThen_of_none he] at herror
      exact hq _ rule herror

theorem Guarded.safe (hg : Guarded db.alertRules) (hw : WellScoped db.alertRules)
    (sink : Option Repository) (input : PassInput) : Safe sink input db where
  noPanic := by
    have hhave : ∀ families, ObservationsHave sink (rules input.order db) input NoPanic families :=
      fun _ o _ => noPanic_evaluateTx sink input.draws o
    have huntil : NoPanic (untilChecks sink (rules input.order db) input) := by
      refine closed_untilChecks closed_noPanic (fun _ _ => hhave _) (noPanic_execute nofun) ?_
        fun g => noPanic_execute fun s rule h => ?_
      · rintro rule hrule e ⟨hfamily, hid, hmissing, -⟩
        obtain ⟨t, r, ht, hr, -⟩ := Rule.ordered_iff.mp (hg.host_ordered hw hrule hfamily hid)
        rw [ht, hr] at hmissing
        rcases hmissing with h | h <;> cases h
      · unfold storeGracePeriod at h
        split at h <;> cases h
    exact closed_noPanic.andThen huntil (closed_checks closed_noPanic (hhave _)) db
  exclusive x hx := by
    obtain ⟨families, ho⟩ := observed_of_tried hx
    exact ho.exclusive hw hg

end Guarded

/-! ## Under other rules -/

def Faulty (o : Outcome PassError Database Observation) : Prop :=
  Session.Exposes (fun e => ∃ rule, e = .nilThreshold rule)
    (fun _ o => o.failing = true ∧ o.recovered = true) o

variable {sink : Option Repository} {input : PassInput}

theorem Safe.not_faulty {db : Database}
    (h : Safe sink input db) : ¬ Faulty (evaluatePass sink input db) := by
  rintro (⟨e, he, rule, rfl⟩ | ⟨x, hx, hboth⟩)
  · exact h.noPanic rule he
  · exact h.exclusive x hx hboth

/-- Between thresholds that are out of order, a value is both above the one and below the
other. -/
theorem exists_both {t r : ℚ} (h : ¬ r ≤ t) : ∃ v, v > t ∧ v < r := by
  refine ⟨(t + r) / 2, ?_, ?_⟩ <;> linarith

def measured (family : String) (v : ℚ) : PassInput :=
  { passAt 0 with
    snapshot := { host := if family = familyHostCPU then { cpuPercent := some v }
      else { memoryPercent := some v } } }

theorem measured_docker (family : String) (v : ℚ) :
    collectorState (measured family v).snapshot "docker" ≠ some .down := by
  simp [collectorState, measured]

theorem measured_host {family : String} (h : family ∈ [familyHostCPU, familyHostMemory]) (v : ℚ) :
    (measured family v).snapshot.host.cpuPercent =
        (if family = familyHostCPU then some v else none) ∧
      (measured family v).snapshot.host.memoryPercent =
        (if family = familyHostMemory then some v else none) := by
  simp only [List.mem_cons, List.not_mem_nil, or_false] at h
  rcases h with rfl | rfl <;> exact ⟨rfl, rfl⟩

/-- A database with nothing but the rules. -/
def onlyRules (rules : Table AlertRuleRow.id) : Database :=
  { Database.empty with alertRules := rules }

theorem noDocker_onlyRules (rules : Table AlertRuleRow.id) : NoDocker (onlyRules rules) :=
  fun _ hs => (nomatch hs)

/-- The host rule that applies and a value measured come to a panic, or to an observation that is
both, if the rule is out of order. -/
theorem faulty_evaluateHost {rules : List Rule}
    (hid : (effectiveRule rules rule.family "host" "server").id = rule.id)
    {v : ℚ} (hv : ∀ t r, rule.threshold = some t → rule.recoveryThreshold = some r → v > t ∧ v < r)
    (s : Database) : Faulty (evaluateHost sink rules input rule (some v) s) := by
  unfold evaluateHost
  rw [if_neg (by rw [hid]; exact fun h => h rfl)]
  cases ht : rule.threshold with
  | none => exact Session.exposes_fail ⟨rule.id, rfl⟩
  | some t =>
    cases hr : rule.recoveryThreshold with
    | none => exact Session.exposes_fail ⟨rule.id, rfl⟩
    | some r =>
      obtain ⟨habove, hbelow⟩ := hv t r ht hr
      exact Session.exposes_transact ⟨decide_eq_true habove, decide_eq_true hbelow⟩

theorem exists_value (h : ¬ rule.Ordered) :
    ∃ v, ∀ t r, rule.threshold = some t → rule.recoveryThreshold = some r → v > t ∧ v < r := by
  cases ht : rule.threshold with
  | none => exact ⟨0, nofun⟩
  | some t =>
    cases hr : rule.recoveryThreshold with
    | none => exact ⟨0, nofun⟩
    | some r =>
      have hlt : ¬ r ≤ t := fun hle => h (Rule.ordered_iff.mpr ⟨t, r, ht, hr, hle⟩)
      obtain ⟨v, hv⟩ := exists_both hlt
      refine ⟨v, fun t' r' ht' hr' => ?_⟩
      cases ht'
      cases hr'
      exact hv

theorem faulty_of_hostRule {rules : Table AlertRuleRow.id} (hw : WellScoped rules)
    {family : String} (hfamily : family ∈ [familyHostCPU, familyHostMemory])
    (hrule : hostRule rules family = some rule) (h : ¬ rule.Ordered) :
    ∃ v, Faulty (evaluatePass none (measured family v) (onlyRules rules)) := by
  obtain ⟨v, hv⟩ := exists_value h
  refine ⟨v, ?_⟩
  let input := measured family v
  let found := onlyRules rules
  obtain ⟨hcpu, hmemory⟩ := measured_host hfamily v
  have hconcerns : rule ∈ rules.rows.map ruleOf ∧ rule.enabled = true ∧ rule.family = family := by
    rcases Option.or_eq_some_iff.mp hrule with h | ⟨-, h⟩ <;>
      exact ⟨(concerns_of_ruleFor h).1, (concerns_of_ruleFor h).2.1, (concerns_of_ruleFor h).2.2.1⟩
  obtain ⟨hmem, henabled, rfl⟩ := hconcerns
  have heffective : effectiveRule (Alerts.rules input.order found) rule.family "host" "server" =
      rule := effectiveRule_of_found hw hrule
  -- the other rules of the family do not apply, and nothing else was measured
  have hothers : ∀ b ∈ Alerts.rules input.order found, b ≠ rule →
      StaysQuiet found (evaluateRule none (Alerts.rules input.order found) input b) := by
    intro b hb hne
    have hdone : ∀ value, b.family = rule.family →
        evaluateHost none (Alerts.rules input.order found) input b value = .done := by
      intro value hsame
      refine if_pos ?_
      rw [hsame, heffective]
      exact fun hid => hne (rules_eq_of_id hb (mem_rules.mpr hmem) hid.symm)
    refine completes_evaluateRule (noDocker_onlyRules rules) (measured_docker _ v) hb
      (fun hf => ?_) fun hf => ?_
    · by_cases hsame : rule.family = familyHostCPU
      · exact hdone _ (hf.trans hsame.symm)
      · rw [show input.snapshot.host.cpuPercent = none by rw [hcpu, if_neg hsame]]
        exact evaluateHost_none _ _ _ _
    · by_cases hsame : rule.family = familyHostMemory
      · exact hdone _ (hf.trans hsame.symm)
      · rw [show input.snapshot.host.memoryPercent = none by rw [hmemory, if_neg hsame]]
        exact evaluateHost_none _ _ _ _
  have hown : ∀ s, Faulty (evaluateRule none (Alerts.rules input.order found) input rule s) := by
    intro s
    have hexposes : Faulty (evaluateHost none (Alerts.rules input.order found) input rule (some v)
        s) := faulty_evaluateHost (congrArg Rule.id heffective) hv s
    unfold evaluateRule
    rw [if_neg (by simp [henabled])]
    simp only [List.mem_cons, List.not_mem_nil, or_false] at hfamily
    rcases hfamily with hf | hf
    · rw [if_pos hf, hcpu, if_pos hf]
      exact hexposes
    · rw [if_neg (by rw [hf]; decide), if_pos hf, hmemory, if_pos hf]
      exact hexposes
  have hloop : ∀ s, Quiet found s → Faulty (Session.forEach (Alerts.rules input.order found)
      (evaluateRule none (Alerts.rules input.order found) input) s) :=
    fun s hs => Session.exposes_of_completes hothers (fun s _ => hown s) (mem_rules.mpr hmem) hs
  have huntil : Faulty (untilChecks none (Alerts.rules input.order found) input found) :=
    completes_cleanup.exposes (fun s hs => (hloop s hs).andThen) (.refl rfl)
  exact huntil.andThen

def mountSample (mount : String) (v : ℚ) : FilesystemSample where
  ts := 0
  hostId := "host"
  mountKey := mount
  mountPoint := mount
  fsType := "ext4"
  totalBytes := none
  usedBytes := none
  availableBytes := none
  usedPct := some v
  inodesTotal := none
  inodesUsed := none
  inodesUsedPct := some v

def sampled (rules : Table AlertRuleRow.id) (mount : String) (v : ℚ) : Database :=
  { onlyRules rules with filesystemSamples := ⟨[mountSample mount v], List.nodup_singleton _⟩ }

theorem filesystemValue_mountSample (h : rule.family ∈ filesystemFamilies)
    (mount : String) (v : ℚ) : filesystemValue rule (mountSample mount v) = some v := by
  simp only [filesystemFamilies, List.mem_cons, List.not_mem_nil, or_false] at h
  rcases h with h | h | h | h <;> rw [filesystemValue, h] <;> rfl

structure Unlooked (found : Database) (input : PassInput) (mount : String) (l : List Rule)
    (s : Database) : Prop where
  rules : s.alertRules = found.alertRules
  stored : ∀ b ∈ l, b ∈ Alerts.rules input.order found
  nodup : (l.map Rule.id).Nodup
  healthy : ∀ b ∈ l, b.family ∈ filesystemFamilies →
    (effectiveRule (Alerts.rules input.order found) b.family "filesystem" mount).id = b.id →
    (loadState s (dedup b.family mount) input.now).phase = .healthy

theorem Unlooked.step {found : Database} {f : FilesystemSample} {b : Rule}
    {l : List Rule} {s : Database} (h : Unlooked found input f.mountKey (b :: l) s) :
    (evaluateFilesystem none (Alerts.rules input.order found) input f b s).error = none ∧
      Unlooked found input f.mountKey l
        (evaluateFilesystem none (Alerts.rules input.order found) input f b s).state := by
  have hb := h.stored b List.mem_cons_self
  have hnodup := h.nodup
  rw [List.map_cons, List.nodup_cons] at hnodup
  have htail : ∀ c ∈ l, c ∈ Alerts.rules input.order found :=
    fun c hc => h.stored c (List.mem_cons_of_mem b hc)
  rcases atMostOne_evaluateFilesystem none _ input hb f with hdone | ⟨e, he, -⟩ |
    ⟨o, ⟨hrule, htarget, hid, ho⟩, heq⟩
  · rw [hdone]
    exact ⟨rfl, h.rules, htail, hnodup.2, fun c hc => h.healthy c (List.mem_cons_of_mem b hc)⟩
  · exact he.elim
  · have hfamily : b.family ∈ filesystemFamilies := hrule ▸ ho.under.1.1
    have hkey : o.key = dedup b.family f.mountKey := by rw [Observation.key, hrule, htarget]
    have hphase : (loadState s o.key o.now).phase = .healthy := by
      rw [hkey, ho.under.2]
      exact h.healthy b List.mem_cons_self hfamily hid
    have hstored : s.alertRules.has o.rule.id = true := by
      obtain ⟨r, hr, hrb⟩ := rules_mem_iff.mp hb
      rw [hrule, h.rules]
      exact Table.has_iff.mpr ⟨r, hr, by rw [← hrb]; rfl⟩
    rw [heq, evaluateTx_eq none input.draws (evaluate_of_healthy none _ hphase hstored)]
    refine ⟨rfl, h.rules, htail, hnodup.2, fun c hc hfamily' hid' => ?_⟩
    have hne : o.key ≠ dedup c.family f.mountKey := by
      intro hsame
      rw [hkey] at hsame
      have hff := (dedup_inj (family_no_colon (by simp [earlierFamilies, hfamily]))
        (family_no_colon (by simp [earlierFamilies, hfamily'])) hsame).1
      rw [← hff, hid] at hid'
      exact hnodup.1 (hid' ▸ List.mem_map_of_mem hc)
    have hload : loadState (putState s o (o.answer s).state) (dedup c.family f.mountKey) input.now =
        loadState s (dedup c.family f.mountKey) input.now := by
      unfold loadState
      rw [show (putState s o (o.answer s).state).alertEvaluationState.find?
          (dedup c.family f.mountKey)
            = s.alertEvaluationState.find? (dedup c.family f.mountKey) from
        (Table.find?_upsert _ _ _ _ _).trans (if_neg hne)]
    rw [hload]
    exact h.healthy c (List.mem_cons_of_mem b hc) hfamily' hid'

theorem faulty_of_filesystemRule {rules : Table AlertRuleRow.id} (hw : WellScoped rules)
    {r : AlertRuleRow} (hr : r ∈ rules.rows)
    (henabled : r.enabled = true) (hfamily : r.family ∈ filesystemFamilies)
    (hscope : r.scopeType ∈ ["global", "filesystem"]) (ht : r.threshold.isSome = true)
    (hrec : r.recoveryThreshold.isSome = true) (h : ¬ (ruleOf r).Ordered) :
    ∃ mount v, Faulty (evaluatePass none (passAt 0) (sampled rules mount v)) := by
  obtain ⟨t, ht⟩ := Option.isSome_iff_exists.mp ht
  obtain ⟨rec, hrec⟩ := Option.isSome_iff_exists.mp hrec
  obtain ⟨v, hv⟩ := exists_value h
  have hmem := List.mem_map_of_mem (f := ruleOf) hr
  -- a mount that the rule decides
  obtain ⟨mount, hmount⟩ : ∃ mount, (ruleFor rules r.family "filesystem" mount).or
      (ruleFor rules r.family "global" "") = some (ruleOf r) := by
    simp only [List.mem_cons, List.not_mem_nil, or_false] at hscope
    rcases hscope with hscope | hscope
    · obtain ⟨name, -, hname⟩ := exists_unscoped rules
      refine ⟨name, ?_⟩
      rw [ruleFor_unscoped hname, Option.none_or]
      exact hw.ruleFor_eq_some.mpr
        ⟨hmem, (hw.concerns_global hmem).mpr ⟨henabled, rfl, hscope⟩⟩
    · have hfor : ruleFor rules r.family "filesystem" r.scopeId = some (ruleOf r) :=
        hw.ruleFor_eq_some.mpr ⟨hmem, henabled, rfl, hscope, rfl⟩
      exact ⟨r.scopeId, by rw [hfor, Option.some_or]⟩
  refine ⟨mount, v, ?_⟩
  let found := sampled rules mount v
  let input := passAt 0
  have heffective : effectiveRule (Alerts.rules input.order found) r.family "filesystem" mount =
      ruleOf r := effectiveRule_of_found hw hmount
  have hown : ∀ s, Faulty (evaluateFilesystem none (Alerts.rules input.order found) input
      (mountSample mount v) (ruleOf r) s) := by
    intro s
    obtain ⟨habove, hbelow⟩ := hv t rec ht hrec
    unfold evaluateFilesystem
    rw [show (ruleOf r).threshold = some t from ht,
      show (ruleOf r).recoveryThreshold = some rec from hrec]
    simp only
    rw [if_neg, filesystemValue_mountSample hfamily]
    · exact Session.exposes_transact ⟨decide_eq_true habove, decide_eq_true hbelow⟩
    · have happlies : effectiveRule (Alerts.rules input.order found) (ruleOf r).family "filesystem"
          (mountSample mount v).mountKey = ruleOf r := heffective
      rw [happlies, show (ruleOf r).enabled = true from henabled]
      simp
  have hloop : ∀ s, Quiet found s → Faulty (evaluateFilesystems none
      (Alerts.rules input.order found) input s) := by
    intro s hs
    have hlatest : latestFilesystems s = [mountSample mount v] := by
      unfold latestFilesystems
      rw [hs.filesystems]
      simp [found, sampled]
    show Faulty (Session.forEach (input.order.arrange (latestFilesystems s)) _ s)
    rw [hlatest]
    refine Session.Exposes.andThen (Session.exposes_forEach (Unlooked found input mount)
      (fun b l s hJ _ => Unlooked.step (f := mountSample mount v) hJ) (fun l s _ => hown s)
      (mem_rules.mpr hmem) ⟨hs.rules, fun _ hb => hb, nodup_rules _ _, fun b _ _ _ => ?_⟩)
    exact hs.phase_of_free fun _ hrow => by cases hrow
  have hdocker : NoDocker found := fun _ hs => by cases hs
  have huntil : Faulty (untilChecks none (Alerts.rules input.order found) input found) :=
    completes_cleanup.exposes (fun s hs =>
      (completes_hostRules hdocker (unmeasured_passAt 0)).exposes
        (fun s hs => (hloop s hs).andThen) hs) (.refl rfl)
  exact huntil.andThen

/-- No pass panics or presents an observation as both failing and recovered, over any snapshot and
database, exactly if the rule set is guarded. -/
theorem evaluation_safe_iff {rules : Table AlertRuleRow.id} (h : RuleSet rules) :
    (∀ sink input db, db.alertRules = rules → Safe sink input db) ↔ Guarded rules := by
  have hw := h.wellScoped
  constructor
  · intro hall
    refine ⟨fun family hfamily rule hrule => ?_, fun r hr henabled hfamily hscope ht hrec => ?_⟩
    · by_contra hordered
      obtain ⟨v, hfaulty⟩ := faulty_of_hostRule hw hfamily (Option.mem_toList.mp hrule) hordered
      exact (hall none (measured family v) (onlyRules rules) rfl).not_faulty hfaulty
    · by_contra hordered
      obtain ⟨mount, v, hfaulty⟩ := faulty_of_filesystemRule hw hr henabled hfamily hscope ht hrec
        hordered
      exact (hall none (passAt 0) (sampled rules mount v) rfl).not_faulty hfaulty
  · rintro hg sink input db rfl
    exact hg.safe hw sink input

/-! ### A host rule without thresholds -/

def bareRule : Rule :=
  { id := "bare", family := familyHostCPU, name := "CPU", severity := .warning, scopeType := "host"
    scopeId := "server" }

def crossedRule : Rule := { bareRule with threshold := some 50, recoveryThreshold := some 80 }

/-- Under the built-in rules a pass that has measured the processor is safe. -/
theorem evaluation_safe_iff_seeded :
    Safe (some {}) (measured familyHostCPU 95) (seededDatabase []) :=
  (evaluation_safe_iff ⟨_, accepted_seededDatabase [], rfl⟩).mpr (by decide +kernel) (some {})
    (measured familyHostCPU 95) (seededDatabase []) rfl

/-- `CreateRule` accepts both rules. Under the first, the next pass panics; under the second,
60 per cent are both too much and low enough. -/
theorem created_rule_panics :
    RuleSet (seededDatabase [bareRule]).alertRules ∧
    (evaluatePass (some {}) (measured familyHostCPU 60) (seededDatabase [bareRule])).error =
      some (.nilThreshold "bare") ∧
    RuleSet (seededDatabase [crossedRule]).alertRules ∧
    ((evaluatePass (some {}) (measured familyHostCPU 60) (seededDatabase [crossedRule])).tried.map
      fun x => (x.2.rule.id, x.2.failing, x.2.recovered)) =
      [("builtin-docker-down", false, false), ("bare", true, true)] :=
  ⟨⟨_, accepted_seededDatabase _, rfl⟩, by decide +kernel, ⟨_, accepted_seededDatabase _, rfl⟩,
    by decide +kernel⟩

end Binnacle.Alerts
