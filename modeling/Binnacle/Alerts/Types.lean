import Binnacle.Clock
import Mathlib.Data.Rat.Defs

/-!
# The alert catalog (`internal/alerts/types.go`)

Severities, phases, the rule families and the built-in rules. Severities reach
the repository as free text, so `Severity` keeps what is neither of the two
names the schema admits; a stored severity is a `Level`.
-/

namespace Binnacle.Alerts

/-- `Severity` (types.go:13-18). -/
inductive Severity where
  | warning
  | critical
  | other (text : String)
  deriving DecidableEq

def Severity.text : Severity → String
  | warning => "warning"
  | critical => "critical"
  | other s => s

/-- What `CHECK(severity IN ('warning','critical'))` admits: the severities of
stored rules, alerts, incidents and channels. -/
inductive Level where
  | warning
  | critical
  deriving DecidableEq

def Level.severity : Level → Severity
  | warning => .warning
  | critical => .critical

/-- The level a severity is stored as; `none` is refused by the `CHECK`, and by
the test of `UpdateRule` and `CreateRule`. -/
def Severity.level : Severity → Option Level
  | warning => some .warning
  | critical => some .critical
  | other _ => none

@[simp] theorem Level.level_severity (l : Level) : l.severity.level = some l := by
  cases l <;> rfl

/-- `Phase` (types.go:20-27). -/
inductive Phase where
  | healthy | pending | firing | recovering
  deriving DecidableEq

/-! ## Rule families (types.go:29-42) -/

def familyHostCPU := "host_cpu_warning"
def familyHostMemory := "host_memory_warning"
def familyFilesystemWarning := "filesystem_warning"
def familyFilesystemCritical := "filesystem_critical"
def familyInodeWarning := "inode_warning"
def familyInodeCritical := "inode_critical"
def familyRestartStorm := "restart_storm"
def familyOOMLoop := "oom_loop"
def familyRequiredCheck := "required_check_failure"
def familyOptionalCheck := "optional_check_failure"
def familyDockerDown := "docker_collector_down"
def familyPersistence := "persistence_failure"

/-- `Rule` (types.go:44-61). -/
structure Rule where
  id : String
  family : String
  name : String
  builtIn : Bool := false
  enabled : Bool := true
  severity : Severity
  scopeType : String
  scopeId : String := ""
  threshold : Option ℚ := none
  recoveryThreshold : Option ℚ := none
  triggerDuration : Duration := 0
  recoveryDuration : Duration := 0
  window : Duration := 0
  cooldown : Duration := 0
  repeatEvery : Duration := 0
  suppressDuringDeployment : Bool := false
  deriving DecidableEq

/-- The zero `Rule`, which `effectiveRule` answers when no rule applies. -/
def Rule.zero : Rule :=
  { id := "", family := "", name := "", enabled := false, severity := .other "",
    scopeType := "" }

/-- A built-in rule of `DefaultRules`: global, enabled. -/
def builtinRule (id family name : String) (severity : Severity) : Rule :=
  { id, family, name, builtIn := true, severity, scopeType := "global" }

/-- `DefaultRules` (types.go:117-131). -/
def defaultRules : List Rule :=
  [{ builtinRule "builtin-host-cpu-warning" familyHostCPU "Host CPU warning" .warning with
      threshold := some 90, recoveryThreshold := some 80,
      triggerDuration := 5 * minute, recoveryDuration := 2 * minute },
   { builtinRule "builtin-host-memory-warning" familyHostMemory "Host memory warning" .warning with
      threshold := some 85, recoveryThreshold := some 80,
      triggerDuration := 10 * minute, recoveryDuration := 2 * minute },
   { builtinRule "builtin-filesystem-warning" familyFilesystemWarning "Filesystem warning"
      .warning with
      threshold := some 80, recoveryThreshold := some 80,
      triggerDuration := 5 * minute, recoveryDuration := 2 * minute },
   { builtinRule "builtin-filesystem-critical" familyFilesystemCritical "Filesystem critical"
      .critical with
      threshold := some 95, recoveryThreshold := some 90,
      triggerDuration := 2 * minute, recoveryDuration := 2 * minute },
   { builtinRule "builtin-inode-warning" familyInodeWarning "Inode warning" .warning with
      threshold := some 80, recoveryThreshold := some 80,
      triggerDuration := 5 * minute, recoveryDuration := 2 * minute },
   { builtinRule "builtin-inode-critical" familyInodeCritical "Inode critical" .critical with
      threshold := some 95, recoveryThreshold := some 90,
      triggerDuration := 2 * minute, recoveryDuration := 2 * minute },
   { builtinRule "builtin-restart-storm" familyRestartStorm "Restart storm" .warning with
      threshold := some 3, recoveryDuration := 10 * minute, window := 10 * minute,
      suppressDuringDeployment := true },
   { builtinRule "builtin-oom-loop" familyOOMLoop "OOM loop" .critical with
      threshold := some 2, recoveryDuration := 10 * minute, window := 10 * minute },
   { builtinRule "builtin-required-check" familyRequiredCheck "Required check failure"
      .critical with
      triggerDuration := 2 * minute, recoveryDuration := 2 * minute,
      suppressDuringDeployment := true },
   { builtinRule "builtin-optional-check" familyOptionalCheck "Optional check failure"
      .warning with
      triggerDuration := 2 * minute, recoveryDuration := 2 * minute,
      suppressDuringDeployment := true },
   { builtinRule "builtin-docker-down" familyDockerDown "Docker collector down" .critical with
      triggerDuration := 2 * minute, recoveryDuration := minute },
   { builtinRule "builtin-persistence-failure" familyPersistence "Persistence failure"
      .critical with
      recoveryDuration := minute }]

/-- `Alert` (types.go:62-77), with the fields the incident sink reads. -/
structure Alert where
  id : String
  dedupKey : String
  ruleId : String
  family : String
  severity : Severity
  targetType : String
  targetId : String
  startedAt : Time
  lastObservedAt : Time
  observedValue : Option ℚ
  message : String

/-- `dedup` (repository.go:208). -/
def dedup (family target : String) : String := family ++ ":" ++ target

/-- `message` (repository.go:209). -/
def message (rule : Rule) (target : String) : String := rule.name ++ " on " ++ target

theorem append_cons_inj {α : Type} [DecidableEq α] {c : α} {l l' r r' : List α} (hl : c ∉ l)
    (hl' : c ∉ l') (h : l ++ c :: r = l' ++ c :: r') : l = l' ∧ r = r' := by
  have hfront : ∀ {l r : List α}, c ∉ l → (l ++ c :: r).takeWhile (· ≠ c) = l := by
    intro l r hl
    rw [List.takeWhile_append_of_pos fun a ha => decide_eq_true (ne_of_mem_of_not_mem ha hl)]
    simp
  obtain rfl : l = l' := by rw [← hfront hl, h, hfront hl']
  exact ⟨rfl, (List.cons_inj_right c).mp (List.append_cancel_left h)⟩

theorem dedup_inj {f f' t t' : String} (hf : ':' ∉ f.toList) (hf' : ':' ∉ f'.toList)
    (h : dedup f t = dedup f' t') : f = f' ∧ t = t' := by
  have hl : f.toList ++ ':' :: t.toList = f'.toList ++ ':' :: t'.toList := by
    have := congrArg String.toList h
    simpa [dedup] using this
  obtain ⟨h₁, h₂⟩ := append_cons_inj hf hf' hl
  exact ⟨String.toList_inj.mp h₁, String.toList_inj.mp h₂⟩

end Binnacle.Alerts
