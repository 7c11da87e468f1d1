import Binnacle.Alerts.State
import Mathlib.Data.List.Chain

/-!
# Runs of `Advance`

`Advance` keeps a phase, the time it began and two optional times. What it answers along a run is
said here over the history alone: the inputs so far and the answers to them.

- `steps`, `after`: the answers of a run and the state it leaves;
- `Recalls`: what the fields of that state stand for in the history;
- `TriggerDue`: when an alert has to be triggered, with the step that entered pending, the steps
  that waited since then, and the last resolution;
- `advance_answers`: `Advance` triggers exactly then, triggers and resolves in turn, and repeats in
  between only.

The step that enters pending never triggers, also under a rule without a trigger duration
(`entry_not_triggered`).
-/

namespace Binnacle.Alerts

/-- What one call of `Advance` is given besides the state and the rule. -/
structure Input where
  now : Time
  failing : Bool
  recovered : Bool
  suppressed : Bool
  deriving DecidableEq

def Input.answer (rule : Rule) (s : State) (x : Input) : Transition :=
  advance x.now (some s) x.failing x.recovered x.suppressed rule

structure Step where
  input : Input
  answer : Transition

def after (rule : Rule) (start : State) (history : List Input) : State :=
  history.foldl (fun s x => (x.answer rule s).state) start

def steps (rule : Rule) : State → List Input → List Step
  | _, [] => []
  | s, x :: history => ⟨x, x.answer rule s⟩ :: steps rule (x.answer rule s).state history

def lastTime (p : Transition → Bool) (l : List Step) : Option Time :=
  (l.filter fun x => p x.answer).getLast?.map fun x => x.input.now

/-- The last `Resolved`. -/
def lastResolved (l : List Step) : Option Time := lastTime Transition.resolved l

/-- The last `Triggered` or `Repeated`. -/
def lastNotice (l : List Step) : Option Time := lastTime (fun tr => tr.triggered || tr.repeated) l

/-- `true` for each `Triggered` and `false` for each `Resolved`, in order. -/
def marks (l : List Step) : List Bool :=
  (l.filter fun x => x.answer.triggered || x.answer.resolved).map fun x => x.answer.triggered

section History

variable (rule : Rule) (start : State)

/-- The last `Resolved`, if any, lies at least the cooldown in the past; where there is none the
cooldown that the first state brings along is over. -/
def Cooled (history : List Input) (now : Time) : Prop :=
  match lastResolved (steps rule start history) with
  | some t => t + rule.cooldown ≤ now
  | none => ∀ until_ ∈ start.cooldownUntil, until_ ≤ now

def EntersPending (history : List Input) (entry : Input) : Prop :=
  (after rule start history).phase ≠ .pending ∧
    (after rule start (history ++ [entry])).phase = .pending

/-- A step after the history may trigger: the trigger duration has passed since the step that
entered pending, nothing suppresses it, and no cooldown runs. -/
def Ready (history : List Input) (entry x : Input) : Prop :=
  rule.triggerDuration ≤ x.now - entry.now ∧ x.suppressed = false ∧ Cooled rule start history x.now

/-- The history is a pending episode so far: `entry` entered pending, every step since then was
failing, and none of them was ready. -/
structure Pends (before : List Input) (entry : Input) (waiting : List Input) : Prop where
  enters : EntersPending rule start before entry
  failing : ∀ y ∈ entry :: waiting, y.failing = true
  unready : ∀ pre y post, waiting = pre ++ y :: post →
    ¬ Ready rule start (before ++ entry :: pre) entry y

/-- `Triggered` is due at a step: the key is not firing or recovering, some step entered pending,
every step since then was failing and so is this one, which is the first one that is ready. -/
def TriggerDue (history : List Input) (x : Input) : Prop :=
  ¬ (after rule start history).phase.Active ∧
    ∃ before entry waiting, history = before ++ entry :: waiting ∧
      Pends rule start before entry waiting ∧ x.failing = true ∧ Ready rule start history entry x

end History

/-! ## Snoc -/

section Snoc

variable {rule : Rule} {start : State}

theorem after_snoc (history : List Input) (x : Input) :
    after rule start (history ++ [x]) = (x.answer rule (after rule start history)).state := by
  unfold after
  rw [List.foldl_append]
  rfl

theorem steps_snoc (history : List Input) (x : Input) :
    steps rule start (history ++ [x]) =
      steps rule start history ++ [⟨x, x.answer rule (after rule start history)⟩] := by
  induction history generalizing start with
  | nil => rfl
  | cons y history ih =>
    rw [List.cons_append]
    simp only [steps, List.cons_append]
    rw [ih]
    rfl

theorem lastTime_snoc (p : Transition → Bool) (l : List Step) (x : Step) :
    lastTime p (l ++ [x]) = if p x.answer then some x.input.now else lastTime p l := by
  unfold lastTime
  rw [List.filter_append]
  split
  · next h => rw [List.filter_cons_of_pos (by simpa using h)]; simp
  · next h => rw [List.filter_cons_of_neg (by simpa using h)]; simp

theorem marks_snoc (l : List Step) (x : Step) :
    marks (l ++ [x]) = marks l ++
      if x.answer.triggered || x.answer.resolved then [x.answer.triggered] else [] := by
  unfold marks
  rw [List.filter_append, List.map_append]
  split
  · next h => rw [List.filter_cons_of_pos (by simpa using h)]; simp
  · next h => rw [List.filter_cons_of_neg (by simpa using h)]; simp

theorem answer_cases (rule : Rule) (start : State) (history : List Input) (x : Input) :
    Advances x.now (after rule start history) x.failing x.recovered x.suppressed rule
      (x.answer rule (after rule start history)) := advance_cases ..

end Snoc

/-! ## What the state recalls of its history -/

section Recalls

variable {rule : Rule} {start : State}

theorem cooldownUntil_after (history : List Input) :
    (after rule start history).cooldownUntil =
      ((lastResolved (steps rule start history)).map fun t => t + rule.cooldown).or
        start.cooldownUntil := by
  induction history using List.reverseRecOn with
  | nil => rfl
  | append_singleton history x ih =>
    rw [after_snoc, steps_snoc, lastResolved, lastTime_snoc]
    have hcooldown : (x.answer rule (after rule start history)).state.cooldownUntil =
        if (x.answer rule (after rule start history)).resolved then some (x.now + rule.cooldown)
        else (after rule start history).cooldownUntil := (advance_cases ..).cooldownUntil_eq
    by_cases hr : (x.answer rule (after rule start history)).resolved = true
    · rw [hcooldown, if_pos hr, if_pos hr]
      rfl
    · rw [hcooldown, if_neg hr, if_neg hr]
      exact ih

theorem cooled_iff (history : List Input) (now : Time) :
    (∀ until_ ∈ (after rule start history).cooldownUntil, until_ ≤ now) ↔
      Cooled rule start history now := by
  unfold Cooled
  rw [cooldownUntil_after]
  cases lastResolved (steps rule start history) with
  | none => exact Iff.rfl
  | some t => simp

variable {before waiting : List Input} {entry x : Input}

theorem Pends.init (h : Pends rule start before entry (waiting ++ [x])) :
    Pends rule start before entry waiting where
  enters := h.enters
  failing y hy := h.failing y (by
    rw [← List.cons_append]
    exact List.mem_append_left _ hy)
  unready pre y post hsplit := h.unready pre y (post ++ [x]) (by rw [hsplit]; simp)

/-- A step that waits in a pending episode: the key stays pending since the entry. -/
theorem pending_of_pends (h : Pends rule start before entry waiting) :
    (after rule start (before ++ entry :: waiting)).phase = .pending ∧
      (after rule start (before ++ entry :: waiting)).since = entry.now := by
  induction waiting using List.reverseRecOn with
  | nil =>
    obtain ⟨hbefore, hpending⟩ := h.enters
    refine ⟨hpending, ?_⟩
    rw [after_snoc] at hpending ⊢
    exact ((answer_cases rule start before entry).enters hpending hbefore).2
  | append_singleton waiting x ih =>
    obtain ⟨hpending, hsince⟩ := ih h.init
    have hunready := h.unready waiting x [] rfl
    have hfailing : x.failing = true := h.failing x (by simp)
    rw [← List.cons_append, ← List.append_assoc, after_snoc]
    have hcases := answer_cases rule start (before ++ entry :: waiting) x
    generalize x.answer rule (after rule start (before ++ entry :: waiting)) = tr at hcases ⊢
    cases hcases with
    | wait => exact ⟨hpending, hsince⟩
    | trigger _ _ hmay =>
      obtain ⟨hduration, hsuppressed, hcooled⟩ := hmay
      rw [hsince] at hduration
      exact absurd ⟨hduration, hsuppressed, (cooled_iff _ _).mp hcooled⟩ hunready
    | _ => simp_all

theorem triggered_of_pends (h : Pends rule start before entry waiting) (hfailing : x.failing = true)
    (hready : Ready rule start (before ++ entry :: waiting) entry x) :
    (x.answer rule (after rule start (before ++ entry :: waiting))).triggered = true := by
  obtain ⟨hpending, hsince⟩ := pending_of_pends h
  obtain ⟨hduration, hsuppressed, hcooled⟩ := hready
  refine advance_triggered_iff.mpr
    ⟨hpending, hfailing, ?_, hsuppressed, (cooled_iff _ _).mpr hcooled⟩
  rw [hsince]
  exact hduration

variable (hstart : start.phase = .healthy) (history : List Input)

include hstart

/-- An alert is out exactly from a `Triggered` to the next `Resolved`. -/
theorem active_after : (after rule start history).phase.Active ↔
    (marks (steps rule start history)).getLast? = some true := by
  induction history using List.reverseRecOn with
  | nil => simp [after, steps, marks, hstart, Phase.Active]
  | append_singleton history x ih =>
    rw [after_snoc, steps_snoc, marks_snoc]
    have h := answer_cases rule start history x
    generalize x.answer rule (after rule start history) = tr at h ⊢
    cases h <;> simp_all [Phase.Active]

theorem lastNotifiedAt_after (hactive : (after rule start history).phase.Active) :
    (after rule start history).lastNotifiedAt = lastNotice (steps rule start history) := by
  induction history using List.reverseRecOn with
  | nil =>
    rw [after, List.foldl_nil, hstart] at hactive
    cases hactive with
    | inl h => cases h
    | inr h => cases h
  | append_singleton history x ih =>
    rw [after_snoc] at hactive ⊢
    rw [steps_snoc, lastNotice, lastTime_snoc]
    have hcases := answer_cases rule start history x
    have hlast := hcases.lastNotifiedAt_eq hactive
    by_cases hnotice : ((x.answer rule (after rule start history)).triggered ||
        (x.answer rule (after rule start history)).repeated) = true
    · exact (hlast.trans (if_pos hnotice)).trans (if_pos hnotice).symm
    · rw [hlast.trans (if_neg hnotice), if_neg hnotice]
      -- this step has not triggered the alert that is out after it, so it was out before
      have hnot : (x.answer rule (after rule start history)).triggered ≠ true := by
        rw [Bool.or_eq_true, not_or] at hnotice
        exact hnotice.1
      have hresolved := hcases.not_resolved_of_active hactive
      exact ih (((hcases.active_iff hresolved).mp hactive).resolve_left hnot)

/-- A key that is pending has been since some step, and every step since then was failing and not
ready. -/
theorem pends_of_pending (hpending : (after rule start history).phase = .pending) :
    ∃ before entry waiting, history = before ++ entry :: waiting ∧
      Pends rule start before entry waiting ∧ (after rule start history).since = entry.now := by
  induction history using List.reverseRecOn with
  | nil =>
    rw [after, List.foldl_nil, hstart] at hpending
    cases hpending
  | append_singleton history x ih =>
    rw [after_snoc] at hpending ⊢
    by_cases hbefore : (after rule start history).phase = .pending
    · obtain ⟨before, entry, waiting, hsplit, hpends, hsince⟩ := ih hbefore
      obtain ⟨hfailing, hnot, hstate⟩ := (answer_cases rule start history x).waits hpending hbefore
      refine ⟨before, entry, waiting ++ [x], by simp [hsplit], ⟨hpends.enters, ?_, ?_⟩,
        by rw [hstate, hsince]⟩
      · intro y hy
        rw [← List.cons_append, List.mem_append, List.mem_singleton] at hy
        rcases hy with hy | rfl
        · exact hpends.failing y hy
        · exact hfailing
      · intro pre y post hwaiting
        rcases List.eq_nil_or_concat post with rfl | ⟨post', z, rfl⟩
        · -- the step itself: it did not trigger
          obtain ⟨rfl, hy⟩ := List.append_inj' hwaiting rfl
          rw [← List.singleton_inj.mp hy, ← hsplit]
          rintro ⟨hduration, hsuppressed, hcooled⟩
          refine hnot ⟨?_, hsuppressed, (cooled_iff history x.now).mpr hcooled⟩
          rw [hsince]
          exact hduration
        · refine hpends.unready pre y post' ?_
          rw [List.concat_eq_append, ← List.cons_append, ← List.append_assoc] at hwaiting
          exact (List.append_inj' hwaiting rfl).1
    · have hx := (answer_cases rule start history x).enters hpending hbefore
      refine ⟨history, x, [], rfl, ⟨⟨hbefore, by rw [after_snoc]; exact hpending⟩, ?_, ?_⟩, hx.2⟩
      · intro y hy
        rw [List.mem_singleton.mp hy]
        exact hx.1
      · intro pre y post hnil
        cases pre <;> cases hnil

/-- `Triggered` is answered exactly when it is due. -/
theorem triggered_iff_due (x : Input) :
    (x.answer rule (after rule start history)).triggered = true ↔
      TriggerDue rule start history x := by
  constructor
  · intro ht
    obtain ⟨hpending, hfailing, hduration, hsuppressed, hcooled⟩ := advance_triggered_iff.mp ht
    obtain ⟨before, entry, waiting, hsplit, hpends, hsince⟩ :=
      pends_of_pending hstart history hpending
    rw [hsince] at hduration
    refine ⟨?_, before, entry, waiting, hsplit, hpends, hfailing, hduration, hsuppressed,
      (cooled_iff _ _).mp hcooled⟩
    rw [hpending]
    rintro (h | h) <;> cases h
  · rintro ⟨-, before, entry, waiting, rfl, hpends, hfailing, hready⟩
    exact triggered_of_pends hpends hfailing hready

/-- `Triggered` and `Resolved` take turns, `Triggered` first. -/
theorem marks_alternate : (false :: marks (steps rule start history)).IsChain (· ≠ ·) := by
  induction history using List.reverseRecOn with
  | nil => exact List.isChain_singleton _
  | append_singleton history x ih =>
    have hactive : (after rule start history).phase.Active ↔ _ := active_after hstart history
    rw [steps_snoc, marks_snoc, ← List.cons_append, List.isChain_append, List.getLast?_cons]
    refine ⟨ih, ?_, ?_⟩
    · split
      · exact List.isChain_singleton _
      · exact List.isChain_nil
    · intro last hlast mark hmark
      rw [Option.mem_some_iff] at hlast
      have h := answer_cases rule start history x
      generalize x.answer rule (after rule start history) = tr at h hmark
      cases h with
      | trigger hpending =>
        -- the alert was not out, so the last mark was no `Triggered`
        have hquiet : (marks (steps rule start history)).getLast? ≠ some true := by
          rw [Ne, ← hactive, hpending]
          rintro (h | h) <;> cases h
        have hm : mark = true := by simpa using hmark.symm
        rw [hm, ← hlast]
        cases hmarks : (marks (steps rule start history)).getLast? with
        | none => exact Bool.false_ne_true
        | some m =>
          intro hm
          exact hquiet (hmarks.trans (congrArg some hm))
      | resolve hrecovering =>
        have hout := hactive.mp (.inr hrecovering)
        rw [hout] at hlast
        have hm : mark = false := by simpa using hmark.symm
        rw [hm, ← hlast]
        exact fun h => Bool.false_ne_true h.symm
      | _ => simp at hmark

end Recalls

/-! ## The answers of a run -/

/-- A failure that persists while steps are suppressed, or come too early, fires at the first step
that is neither. -/
def FiresAfterSilence (rule : Rule) (start : State) (history : List Input) (x : Input) : Prop :=
  ∀ before entry waiting, history = before ++ entry :: waiting →
    EntersPending rule start before entry → (∀ y ∈ entry :: (waiting ++ [x]), y.failing = true) →
    (∀ y ∈ waiting, y.suppressed = true ∨ y.now - entry.now < rule.triggerDuration) →
    Ready rule start history entry x →
    (x.answer rule (after rule start history)).triggered = true

/-- What `Advance` answers in a run from a healthy state. At each step it answers `Triggered`
exactly when that is due; `Triggered` and `Resolved` take turns and never come together;
`Repeated` is answered only after a `Triggered` without a `Resolved` since, never while suppressed,
and at least the rule's repetition after the last `Triggered` or `Repeated`; and a failure that
persists through a suppression fires at the first step after it. -/
theorem advance_answers (rule : Rule) {start : State} (hstart : start.phase = .healthy)
    (history : List Input) (x : Input) :
    ((x.answer rule (after rule start history)).triggered = true ↔
        TriggerDue rule start history x) ∧
      (false :: marks (steps rule start (history ++ [x]))).IsChain (· ≠ ·) ∧
      ¬ ((x.answer rule (after rule start history)).triggered = true ∧
        (x.answer rule (after rule start history)).resolved = true) ∧
      ((x.answer rule (after rule start history)).repeated = true →
        (marks (steps rule start history)).getLast? = some true ∧ x.suppressed = false ∧
          ∃ last ∈ lastNotice (steps rule start history), rule.repeatEvery ≤ x.now - last) ∧
      FiresAfterSilence rule start history x := by
  refine ⟨triggered_iff_due hstart history x, marks_alternate hstart _, ?_, fun hrepeated => ?_, ?_⟩
  · rintro ⟨ht, hr⟩
    exact Bool.false_ne_true (((advance_cases ..).resolved_only hr).1.symm.trans ht)
  · obtain ⟨hfiring, -, hsuppressed, -, last, hlast, hdue⟩ := advance_repeated_iff.mp hrepeated
    have hactive : (after rule start history).phase.Active := .inl hfiring
    refine ⟨(active_after hstart history).mp hactive, hsuppressed, last, ?_, hdue⟩
    rw [← lastNotifiedAt_after hstart history hactive]
    exact hlast
  · rintro before entry waiting rfl henters hfailing hwaited hready
    have hpends : Pends rule start before entry waiting := by
      refine ⟨henters, fun y hy => hfailing y ?_, ?_⟩
      · rw [← List.cons_append]
        exact List.mem_append_left _ hy
      · rintro pre y post rfl ⟨hduration, hsuppressed, -⟩
        rcases hwaited y (List.mem_append_right _ List.mem_cons_self) with hy | hy
        · exact Bool.false_ne_true (hsuppressed.symm.trans hy)
        · exact absurd hduration (Int.not_le.mpr hy)
    exact triggered_of_pends hpends (hfailing x (by simp)) hready

/-! ### A silence, and a rule without a trigger duration -/

/-- The seeded rule for required checks, and the one for persistence, as far as `Advance` reads
them. -/
def twoMinutes : Rule :=
  { builtinRule "builtin-required-check" familyRequiredCheck "Required check failure" .critical with
    triggerDuration := 2 * minute, recoveryDuration := 2 * minute }

def atOnce : Rule :=
  { builtinRule "builtin-persistence-failure" familyPersistence "Persistence failure" .critical with
    recoveryDuration := minute }

def failingAt (seconds : Int) (suppressed : Bool) : Input :=
  ⟨seconds * second, true, false, suppressed⟩

/-- The failure persists through a silence that ends between 180 s and 190 s. -/
theorem advance_answers_silenced :
    TriggerDue twoMinutes { phase := .healthy, since := 0 }
      [failingAt 0 false, failingAt 60 true, failingAt 180 true] (failingAt 190 false) :=
  (advance_answers twoMinutes rfl _ _).1.mp (by decide)

/-- `Triggered` is due at a step, where the step that enters pending counts like those after it. -/
def DueFromEntry (rule : Rule) (start : State) (history : List Input) (x : Input) : Prop :=
  ¬ (after rule start history).phase.Active ∧
    ∃ before entry rest, history ++ [x] = before ++ entry :: rest ∧
      EntersPending rule start before entry ∧ (∀ y ∈ entry :: rest, y.failing = true) ∧
      Ready rule start history entry x ∧
      ∀ pre y post, entry :: rest = pre ++ y :: post → post ≠ [] →
        ¬ Ready rule start (before ++ pre) entry y

/-- Without a trigger duration the step that enters pending is ready, and `Advance` answers
nothing. -/
theorem entry_not_triggered :
    DueFromEntry atOnce { phase := .healthy, since := 0 } [] (failingAt 0 false) ∧
      ((failingAt 0 false).answer atOnce
        (after atOnce { phase := .healthy, since := 0 } [])).triggered
        = false := by
  refine ⟨⟨by decide, [], failingAt 0 false, [], rfl, ⟨by decide, by decide⟩, by decide,
    ⟨by decide, rfl, nofun⟩, ?_⟩, by decide⟩
  rintro pre y post hsplit hpost
  cases pre with
  | nil => exact absurd (List.cons.inj hsplit).2.symm hpost
  | cons a pre => cases pre <;> cases (List.cons.inj hsplit).2

end Binnacle.Alerts
