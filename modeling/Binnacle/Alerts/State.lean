import Binnacle.Alerts.Types

/-!
# The alert lifecycle (`internal/alerts/state.go`)

`advance` is the pure transition. A `State` whose phase is `""` carries nothing
`Advance` reads, so the previous state is an `Option`, `none` for that one.

- `advance_cases`: what one transition can do, with the guard of each case;
- `advance_resolved_iff`, `advance_triggered_iff`, `advance_repeated_iff`: when an alert is
  resolved, when one is triggered and when its notice is repeated.
-/

namespace Binnacle.Alerts

/-- A phase in which an alert is out. -/
def Phase.Active (p : Phase) : Prop := p = .firing ∨ p = .recovering

instance (p : Phase) : Decidable p.Active := inferInstanceAs (Decidable (_ ∨ _))

/-- `State` (state.go:7-12). -/
structure State where
  phase : Phase
  since : Time
  lastNotifiedAt : Option Time := none
  cooldownUntil : Option Time := none
  deriving DecidableEq

/-- `Transition` (state.go:13-16). -/
structure Transition where
  state : State
  triggered : Bool := false
  repeated : Bool := false
  resolved : Bool := false
  deriving DecidableEq

/-- `Advance` (state.go:19-57). -/
def advance (now : Time) (previous : Option State) (failing recovered suppressed : Bool)
    (rule : Rule) : Transition :=
  let previous := previous.getD { phase := .healthy, since := now }
  match previous.phase with
  | .healthy =>
    if failing then
      { state := { phase := .pending, since := now, cooldownUntil := previous.cooldownUntil } }
    else
      { state := previous }
  | .pending =>
    if !failing then
      { state := { phase := .healthy, since := now, cooldownUntil := previous.cooldownUntil } }
    else if now - previous.since ≥ rule.triggerDuration && !suppressed
        && previous.cooldownUntil.all (fun until_ => until_ ≤ now) then
      { state := { previous with phase := .firing, since := now, lastNotifiedAt := some now }
        triggered := true }
    else
      { state := previous }
  | .firing =>
    if recovered then
      { state := { previous with phase := .recovering, since := now } }
    else if !suppressed && rule.repeatEvery > 0
        && previous.lastNotifiedAt.any (fun last => now - last ≥ rule.repeatEvery) then
      { state := { previous with lastNotifiedAt := some now }, repeated := true }
    else
      { state := previous }
  | .recovering =>
    if failing then
      { state := { previous with phase := .firing, since := now } }
    else if recovered && now - previous.since ≥ rule.recoveryDuration then
      { state := { phase := .healthy, since := now, cooldownUntil := some (now + rule.cooldown) }
        resolved := true }
    else
      { state := previous }

def mayTrigger (now : Time) (previous : State) (suppressed : Bool) (rule : Rule) : Prop :=
  rule.triggerDuration ≤ now - previous.since ∧ suppressed = false ∧
    ∀ until_ ∈ previous.cooldownUntil, until_ ≤ now

inductive Advances (now : Time) (previous : State) (failing recovered suppressed : Bool)
    (rule : Rule) : Transition → Prop where
  | stayHealthy : previous.phase = .healthy → failing = false →
      Advances now previous failing recovered suppressed rule { state := previous }
  | pend : previous.phase = .healthy → failing = true →
      Advances now previous failing recovered suppressed rule
        { state := { phase := .pending, since := now, cooldownUntil := previous.cooldownUntil } }
  | clear : previous.phase = .pending → failing = false →
      Advances now previous failing recovered suppressed rule
        { state := { phase := .healthy, since := now, cooldownUntil := previous.cooldownUntil } }
  | trigger : previous.phase = .pending → failing = true →
      mayTrigger now previous suppressed rule →
      Advances now previous failing recovered suppressed rule
        { state := { previous with phase := .firing, since := now, lastNotifiedAt := some now }
          triggered := true }
  | wait : previous.phase = .pending → failing = true →
      ¬ mayTrigger now previous suppressed rule →
      Advances now previous failing recovered suppressed rule { state := previous }
  | recover : previous.phase = .firing → recovered = true →
      Advances now previous failing recovered suppressed rule
        { state := { previous with phase := .recovering, since := now } }
  | remind : previous.phase = .firing → recovered = false →
      Advances now previous failing recovered suppressed rule
        { state := { previous with phase := .firing, lastNotifiedAt := some now }
          repeated := true }
  | keepFiring : previous.phase = .firing → recovered = false →
      Advances now previous failing recovered suppressed rule { state := previous }
  | relapse : previous.phase = .recovering → failing = true →
      Advances now previous failing recovered suppressed rule
        { state := { previous with phase := .firing, since := now } }
  | resolve : previous.phase = .recovering → failing = false → recovered = true →
      rule.recoveryDuration ≤ now - previous.since →
      Advances now previous failing recovered suppressed rule
        { state := { phase := .healthy, since := now, cooldownUntil := some (now + rule.cooldown) }
          resolved := true }
  | keepRecovering : previous.phase = .recovering → failing = false →
      ¬ (recovered = true ∧ rule.recoveryDuration ≤ now - previous.since) →
      Advances now previous failing recovered suppressed rule { state := previous }

theorem advance_cases (now : Time) (previous : State) (failing recovered suppressed : Bool)
    (rule : Rule) :
    Advances now previous failing recovered suppressed rule
      (advance now (some previous) failing recovered suppressed rule) := by
  unfold advance
  simp only [Option.getD_some]
  cases hp : previous.phase with
  | healthy =>
    cases hf : failing with
    | false => exact .stayHealthy hp rfl
    | true => exact .pend hp rfl
  | pending =>
    cases hf : failing with
    | false => exact .clear hp rfl
    | true =>
      simp only [Bool.not_true, Bool.false_eq_true, if_false]
      split
      · next h =>
        refine .trigger hp rfl ?_
        simpa [mayTrigger, Option.all_eq_true, and_assoc] using h
      · next h =>
        refine .wait hp rfl fun hm => h ?_
        simpa [mayTrigger, Option.all_eq_true, and_assoc] using hm
  | firing =>
    cases hr : recovered with
    | true => exact .recover hp rfl
    | false =>
      simp only [Bool.false_eq_true, if_false]
      split
      · exact .remind hp rfl
      · exact .keepFiring hp rfl
  | recovering =>
    cases hf : failing with
    | true => exact .relapse hp rfl
    | false =>
      simp only [Bool.false_eq_true, if_false]
      split
      · next h =>
        simp only [Bool.and_eq_true, decide_eq_true_eq, ge_iff_le] at h
        exact .resolve hp rfl h.1 h.2
      · next h =>
        refine .keepRecovering hp rfl fun hm => h ?_
        simpa using hm

variable {now : Time} {previous : State} {failing recovered suppressed : Bool} {rule : Rule}

/-- An alert is resolved exactly when a recovering key has stayed recovered
for the recovery duration. -/
theorem advance_resolved_iff :
    (advance now (some previous) failing recovered suppressed rule).resolved = true ↔
      previous.phase = .recovering ∧ failing = false ∧ recovered = true ∧
        rule.recoveryDuration ≤ now - previous.since := by
  have h := advance_cases now previous failing recovered suppressed rule
  constructor
  · intro hr
    generalize advance now (some previous) failing recovered suppressed rule = tr at h hr
    cases h with
    | resolve hp hf hrec hd => exact ⟨hp, hf, hrec, hd⟩
    | _ => cases hr
  · rintro ⟨hp, hf, hr, hd⟩
    simp [advance, hp, hf, hr, hd]

/-- An alert is triggered exactly when a pending key fails and may trigger. -/
theorem advance_triggered_iff :
    (advance now (some previous) failing recovered suppressed rule).triggered = true ↔
      previous.phase = .pending ∧ failing = true ∧ mayTrigger now previous suppressed rule := by
  have h := advance_cases now previous failing recovered suppressed rule
  generalize advance now (some previous) failing recovered suppressed rule = tr at h
  constructor
  · intro ht
    cases h with
    | trigger hp hf hm => exact ⟨hp, hf, hm⟩
    | _ => cases ht
  · rintro ⟨hp, hf, hm⟩
    cases h with
    | trigger => rfl
    | wait _ _ hw => exact absurd hm hw
    | _ => simp_all

/-- A notice is repeated exactly when a firing key has not recovered, nothing suppresses the
alert, and the last notice lies the rule's repetition in the past. -/
theorem advance_repeated_iff :
    (advance now (some previous) failing recovered suppressed rule).repeated = true ↔
      previous.phase = .firing ∧ recovered = false ∧ suppressed = false ∧ rule.repeatEvery > 0 ∧
        ∃ last ∈ previous.lastNotifiedAt, rule.repeatEvery ≤ now - last := by
  by_cases hp : previous.phase = .firing
  · cases recovered with
    | true => simp [advance, hp]
    | false =>
      simp only [advance, Option.getD_some, hp, Bool.false_eq_true, if_false]
      split
      · next h =>
        simp only [Bool.and_eq_true, Bool.not_eq_true', decide_eq_true_eq, Option.any_eq_true] at h
        exact iff_of_true rfl ⟨trivial, trivial, h.1.1, h.1.2, h.2⟩
      · next h =>
        refine iff_of_false Bool.false_ne_true fun ⟨_, _, hs, hpos, hlast⟩ => h ?_
        simp only [Bool.and_eq_true, Bool.not_eq_true', decide_eq_true_eq, Option.any_eq_true]
        exact ⟨⟨hs, hpos⟩, hlast⟩
  · refine iff_of_false (fun hr => ?_) fun h => hp h.1
    have h := advance_cases now previous failing recovered suppressed rule
    generalize advance now (some previous) failing recovered suppressed rule = tr at h hr
    cases h with
    | remind hfiring => exact hp hfiring
    | _ => cases hr

namespace Advances

variable {tr : Transition} (h : Advances now previous failing recovered suppressed rule tr)

include h

theorem resolved_only (hr : tr.resolved = true) : tr.triggered = false ∧ tr.repeated = false := by
  cases h with
  | resolve => exact ⟨rfl, rfl⟩
  | _ => cases hr

theorem firing_of_triggered (ht : tr.triggered = true) : tr.state.phase = .firing := by
  cases h with
  | trigger => rfl
  | _ => cases ht

theorem healthy_of_resolved (hr : tr.resolved = true) : tr.state.phase = .healthy := by
  cases h with
  | resolve => rfl
  | _ => cases hr

theorem active_iff (hr : tr.resolved = false) :
    tr.state.phase.Active ↔ tr.triggered = true ∨ previous.phase.Active := by
  cases h <;> simp_all [Phase.Active]

theorem not_resolved_of_active (hactive : tr.state.phase.Active) : tr.resolved = false := by
  cases h with
  | resolve => simp [Phase.Active] at hactive
  | _ => rfl

theorem cooldownUntil_eq : tr.state.cooldownUntil =
    if tr.resolved then some (now + rule.cooldown) else previous.cooldownUntil := by
  cases h <;> rfl

theorem lastNotifiedAt_eq (hactive : tr.state.phase.Active) : tr.state.lastNotifiedAt =
    if tr.triggered || tr.repeated then some now else previous.lastNotifiedAt := by
  cases h with
  | pend | clear | resolve => simp [Phase.Active] at hactive
  | _ => rfl

theorem enters (hpending : tr.state.phase = .pending) (hbefore : previous.phase ≠ .pending) :
    failing = true ∧ tr.state.since = now := by
  cases h with
  | pend _ hf => exact ⟨hf, rfl⟩
  | _ => simp_all

theorem waits (hpending : tr.state.phase = .pending) (hbefore : previous.phase = .pending) :
    failing = true ∧ ¬ mayTrigger now previous suppressed rule ∧ tr.state = previous := by
  cases h with
  | wait _ hf hm => exact ⟨hf, hm, rfl⟩
  | trigger | clear => cases hpending
  | _ => simp_all

end Advances

end Binnacle.Alerts
