import Binnacle.Alerts.Lifecycle
import Binnacle.Alerts.Trace

/-!
# The stored lifecycle beside one in memory

`evaluate` loads the state of the key, advances it and stores the answer, whole seconds only.
Beside it `Advance` is folded over the same inputs in memory.

- `Tracks`: the loaded state is the one in memory, cut to whole seconds;
- `Timely`: the condition on the state in memory and on the input under which one step keeps this:
  no comparison falls into the fraction of a second that is lost, and the alert is not resolved;
- `stored_follows_memory_iff`: over a whole run both give the same answers and stay together
  exactly if every step is timely.
-/

namespace Binnacle.Alerts

open Relational Runs Storage Notifications

/-- What is answered besides the state. -/
structure Flags where
  triggered : Bool
  repeated : Bool
  resolved : Bool
  deriving DecidableEq

def Transition.flags (tr : Transition) : Flags := ⟨tr.triggered, tr.repeated, tr.resolved⟩

/-! ## One step -/

def nextState (rule : Rule) (s : State) (x : Input) (flags : Flags) : State :=
  match s.phase with
  | .healthy =>
    if x.failing then { phase := .pending, since := x.now, cooldownUntil := s.cooldownUntil } else s
  | .pending =>
    if x.failing = false then
      { phase := .healthy, since := x.now, cooldownUntil := s.cooldownUntil }
    else if flags.triggered then
      { s with phase := .firing, since := x.now, lastNotifiedAt := some x.now }
    else s
  | .firing =>
    if x.recovered then { s with phase := .recovering, since := x.now }
    else if flags.repeated then { s with lastNotifiedAt := some x.now }
    else s
  | .recovering =>
    if x.failing then { s with phase := .firing, since := x.now }
    else if flags.resolved then
      { phase := .healthy, since := x.now, cooldownUntil := some (x.now + rule.cooldown) }
    else s

theorem answer_state (rule : Rule) (s : State) (x : Input) :
    (x.answer rule s).state = nextState rule s x (x.answer rule s).flags := by
  have h : Advances x.now s x.failing x.recovered x.suppressed rule (x.answer rule s) :=
    advance_cases ..
  generalize x.answer rule s = tr at h ⊢
  cases h <;> simp_all [nextState, Transition.flags]

/-- The loaded state is the one in memory, cut to whole seconds, in what `Advance` reads. -/
structure Tracks (mem loaded : State) : Prop where
  phase : loaded.phase = mem.phase
  since : mem.phase ≠ .healthy → loaded.since = ofUnix (unix mem.since)
  lastNotifiedAt : mem.phase.Active →
    loaded.lastNotifiedAt = mem.lastNotifiedAt.map fun t => ofUnix (unix t)
  cooldownUntil : loaded.cooldownUntil = mem.cooldownUntil.map fun t => ofUnix (unix t)

/-- No comparison of the step falls between a time and its whole second, and the alert is not
resolved. -/
def Timely (rule : Rule) (s : State) (x : Input) : Prop :=
  match s.phase with
  | .healthy => True
  | .pending =>
    x.failing = true → x.suppressed = false →
      rule.triggerDuration ≤ x.now - ofUnix (unix s.since) →
      (∀ until_ ∈ s.cooldownUntil, ofUnix (unix until_) ≤ x.now) →
      rule.triggerDuration ≤ x.now - s.since ∧ ∀ until_ ∈ s.cooldownUntil, until_ ≤ x.now
  | .firing =>
    x.recovered = false → x.suppressed = false → rule.repeatEvery > 0 →
      ∀ last ∈ s.lastNotifiedAt, rule.repeatEvery ≤ x.now - ofUnix (unix last) →
        rule.repeatEvery ≤ x.now - last
  | .recovering =>
    x.failing = false → x.recovered = true →
      x.now - ofUnix (unix s.since) < rule.recoveryDuration

section Step

variable {rule : Rule} {mem loaded : State} {x : Input}

theorem map_wholeSecond {t t' : Option Time} (h : t' = t.map fun t => ofUnix (unix t)) :
    (t'.map fun t => ofUnix (unix t)) = t.map fun t => ofUnix (unix t) := by
  rw [h, Option.map_map]
  simp [Function.comp_def]

theorem Tracks.stored (h : Tracks mem loaded) : Tracks mem loaded.stored where
  phase := h.phase
  since hp := by simp [State.stored, h.since hp]
  lastNotifiedAt hp := map_wholeSecond (h.lastNotifiedAt hp)
  cooldownUntil := map_wholeSecond h.cooldownUntil

theorem Tracks.next (h : Tracks mem loaded) (flags : Flags) :
    Tracks (nextState rule mem x flags) (nextState rule loaded x flags).stored := by
  have hcooldown := map_wholeSecond h.cooldownUntil
  unfold nextState
  rw [h.phase]
  cases hp : mem.phase with
  | healthy =>
    simp only
    split
    · exact ⟨rfl, fun _ => rfl, fun ha => by simp [Phase.Active] at ha, hcooldown⟩
    · exact h.stored
  | pending =>
    simp only
    split
    · exact ⟨rfl, fun _ => rfl, fun ha => by simp [Phase.Active] at ha, hcooldown⟩
    · split
      · exact ⟨rfl, fun _ => rfl, fun _ => rfl, hcooldown⟩
      · exact h.stored
  | firing =>
    have hnotified := map_wholeSecond (h.lastNotifiedAt (.inl hp))
    simp only
    split
    · exact ⟨rfl, fun _ => rfl, fun _ => hnotified, hcooldown⟩
    · split
      · exact ⟨rfl, fun _ => h.stored.since (by simp [hp]), fun _ => rfl, hcooldown⟩
      · exact h.stored
  | recovering =>
    have hnotified := map_wholeSecond (h.lastNotifiedAt (.inr hp))
    simp only
    split
    · exact ⟨rfl, fun _ => rfl, fun _ => hnotified, hcooldown⟩
    · split
      · exact ⟨rfl, fun _ => rfl, fun ha => by simp [Phase.Active] at ha, rfl⟩
      · exact h.stored

/-! ### The answers -/

theorem flags_eq_iff {tr tr' : Transition} :
    tr.flags = tr'.flags ↔ (tr.triggered = true ↔ tr'.triggered = true) ∧
      (tr.repeated = true ↔ tr'.repeated = true) ∧ (tr.resolved = true ↔ tr'.resolved = true) := by
  unfold Transition.flags
  rw [Flags.mk.injEq, ← Bool.eq_iff_iff, ← Bool.eq_iff_iff, ← Bool.eq_iff_iff]

theorem Tracks.mayTrigger (h : Tracks mem loaded) (hp : mem.phase = .pending)
    (hm : mayTrigger x.now mem x.suppressed rule) :
    mayTrigger x.now loaded x.suppressed rule := by
  obtain ⟨hduration, hsuppressed, hcooled⟩ := hm
  have hle := ofUnix_unix_le mem.since
  refine ⟨?_, hsuppressed, ?_⟩
  · rw [h.since (by simp [hp])]
    exact Int.le_trans hduration (Int.sub_le_sub_left hle x.now)
  · rw [h.cooldownUntil]
    intro until_ huntil
    obtain ⟨u, hu, rfl⟩ := Option.map_eq_some_iff.mp huntil
    exact Int.le_trans (ofUnix_unix_le u) (hcooled u hu)

theorem Tracks.mayTrigger_iff (h : Tracks mem loaded) (hp : mem.phase = .pending) :
    (Alerts.mayTrigger x.now loaded x.suppressed rule ↔
        Alerts.mayTrigger x.now mem x.suppressed rule) ↔
      (x.suppressed = false → rule.triggerDuration ≤ x.now - ofUnix (unix mem.since) →
        (∀ until_ ∈ mem.cooldownUntil, ofUnix (unix until_) ≤ x.now) →
        rule.triggerDuration ≤ x.now - mem.since ∧
          ∀ until_ ∈ mem.cooldownUntil, until_ ≤ x.now) := by
  have hloaded : Alerts.mayTrigger x.now loaded x.suppressed rule ↔
      rule.triggerDuration ≤ x.now - ofUnix (unix mem.since) ∧ x.suppressed = false ∧
        ∀ until_ ∈ mem.cooldownUntil, ofUnix (unix until_) ≤ x.now := by
    unfold Alerts.mayTrigger
    rw [h.since (by simp [hp]), h.cooldownUntil]
    simp
  constructor
  · intro hiff hsuppressed hduration hcooled
    obtain ⟨hd, -, hc⟩ := hiff.mp (hloaded.mpr ⟨hduration, hsuppressed, hcooled⟩)
    exact ⟨hd, hc⟩
  · intro hexact
    refine ⟨fun hm => ?_, h.mayTrigger hp⟩
    obtain ⟨hduration, hsuppressed, hcooled⟩ := hloaded.mp hm
    obtain ⟨hd, hc⟩ := hexact hsuppressed hduration hcooled
    exact ⟨hd, hsuppressed, hc⟩

theorem Tracks.repeat_iff (h : Tracks mem loaded) (hp : mem.phase = .firing) :
    ((∃ last ∈ loaded.lastNotifiedAt, rule.repeatEvery ≤ x.now - last) ↔
        ∃ last ∈ mem.lastNotifiedAt, rule.repeatEvery ≤ x.now - last) ↔
      ∀ last ∈ mem.lastNotifiedAt, rule.repeatEvery ≤ x.now - ofUnix (unix last) →
        rule.repeatEvery ≤ x.now - last := by
  rw [h.lastNotifiedAt (.inl hp)]
  cases mem.lastNotifiedAt with
  | none => simp
  | some last =>
    have hle : x.now - last ≤ x.now - ofUnix (unix last) :=
      Int.sub_le_sub_left (ofUnix_unix_le last) x.now
    simp only [Option.map_some, Option.mem_def, Option.some.injEq, exists_eq_left', forall_eq']
    exact ⟨fun hiff => hiff.mp, fun himp => ⟨himp, fun hdue => Int.le_trans hdue hle⟩⟩

/-- Both answer the same, and not that the alert is resolved, exactly if the step is timely. -/
theorem Tracks.timely_iff (h : Tracks mem loaded) :
    Timely rule mem x ↔ (x.answer rule loaded).flags = (x.answer rule mem).flags ∧
      (x.answer rule loaded).resolved = false := by
  rw [flags_eq_iff, Bool.eq_false_iff]
  simp only [Input.answer, advance_triggered_iff, advance_repeated_iff, advance_resolved_iff, Ne,
    h.phase]
  unfold Timely
  cases hp : mem.phase with
  | healthy => simp
  | pending =>
    simp only [reduceCtorEq, false_and, not_false_eq_true, and_true, true_and, and_congr_right_iff]
    exact forall_congr' fun _ => (h.mayTrigger_iff hp).symm
  | firing =>
    simp only [reduceCtorEq, false_and, not_false_eq_true, and_true, true_and, and_congr_right_iff]
    exact forall_congr' fun _ => forall_congr' fun _ => forall_congr' fun _ =>
      (h.repeat_iff hp).symm
  | recovering =>
    have hsince := h.since (by simp [hp])
    have hle : x.now - mem.since ≤ x.now - ofUnix (unix mem.since) :=
      Int.sub_le_sub_left (ofUnix_unix_le mem.since) x.now
    simp only [reduceCtorEq, false_and, true_and, and_congr_right_iff, hsince, not_and, Int.not_le]
    constructor
    · intro hearly
      refine ⟨fun hf hr => iff_of_false ?_ fun hdue => ?_, hearly⟩
      · exact Int.not_le.mpr (hearly hf hr)
      · exact absurd (Int.le_trans hdue hle) (Int.not_le.mpr (hearly hf hr))
    · exact fun hboth => hboth.2

end Step

/-! ## Runs -/

/-- The input that `evaluate` gives to `Advance`. -/
def Observation.input (o : Observation) (db : Database) : Input :=
  ⟨o.now, o.failing, o.recovered, suppressedTx db o.rule o.target o.now⟩

structure Twin where
  db : Database
  memory : State
  storedAnswers : List Flags := []
  memoryAnswers : List Flags := []

inductive Feed where
  | observe (env : Ambient) (o : Observation)
  /-- Anything else that is done to the database, to silences and grace periods for one. -/
  | change (db : Database)

def feed (sink : Option Repository) (t : Twin) : Feed → Twin
  | .observe env o =>
    { db := (evaluate sink env t.db o).toOption.getD t.db
      memory := ((o.input t.db).answer o.rule t.memory).state
      storedAnswers := t.storedAnswers ++ [(o.answer t.db).flags]
      memoryAnswers := t.memoryAnswers ++ [((o.input t.db).answer o.rule t.memory).flags] }
  | .change db => { t with db }

/-- Observations are of one rule and one target. Alerts, evaluation states and incidents are
written by evaluations only, events are not lost, and the rule stays. -/
def Feed.Enabled (rule : Rule) (target : String) (t : Twin) : Feed → Prop
  | .observe env o => Fresh env t.db ∧ o.rule = rule ∧ o.target = target
  | .change db => SameAlerts t.db db ∧ db.alertRules.has rule.id = true

def Feed.Timely (t : Twin) : Feed → Prop
  | .observe _ o => Alerts.Timely o.rule t.memory (o.input t.db)
  | .change _ => True

def Twin.Follows (rule : Rule) (target : String) (t : Twin) : Prop :=
  t.storedAnswers = t.memoryAnswers ∧
    ∀ now, Tracks t.memory (loadState t.db (dedup rule.family target) now)

section Runs

variable {sink : Option Repository} {rule : Rule} {target : String} {t : Twin}

/-- What a run keeps of the database. -/
structure Ruled (rule : Rule) (t : Twin) : Prop where
  consistent : Consistent t.db
  rule : t.db.alertRules.has rule.id = true

theorem Ruled.feed {f : Feed} (h : Ruled rule t) (hf : f.Enabled rule target t) :
    Ruled rule (feed sink t f) := by
  cases f with
  | change db => exact ⟨hf.1.consistent h.consistent, hf.2⟩
  | observe env o =>
    cases hok : evaluate sink env t.db o with
    | error e =>
      simp only [Alerts.feed, hok]
      exact ⟨h.consistent, h.rule⟩
    | ok db' =>
      simp only [Alerts.feed, hok]
      refine ⟨h.consistent.of_evaluate hf.1 hok, ?_⟩
      show db'.alertRules.has rule.id = true
      rw [evaluate_frame hok]
      exact h.rule

theorem loadState_feed {env : Ambient} {o : Observation} (h : Ruled rule t)
    (hsev : rule.severity.level ≠ none) (hf : (Feed.observe env o).Enabled rule target t)
    (hr : (o.answer t.db).resolved = false) (now : Time) :
    loadState (feed sink t (.observe env o)).db o.key now = (o.answer t.db).state.stored := by
  obtain ⟨hfresh, hrule, -⟩ := hf
  have hok : refused t.db o = false := by
    refine h.consistent.not_refused ?_ ?_ hr
    · rw [hrule]
      exact h.rule
    · rw [hrule]
      exact hsev
  obtain ⟨db', hdb, -⟩ := evaluate_commits sink hfresh h.consistent.sound hok
  simp only [feed, hdb, Except.toOption, Option.getD_some]
  rw [loadState_evaluate hdb, if_pos rfl]

/-- One observation keeps both together exactly if it is timely. -/
theorem follows_observe_iff {env : Ambient} {o : Observation} (h : Ruled rule t)
    (hsev : rule.severity.level ≠ none) (hf : (Feed.observe env o).Enabled rule target t)
    (hfollows : t.Follows rule target) :
    (feed sink t (.observe env o)).Follows rule target ↔ (Feed.observe env o).Timely t := by
  obtain ⟨hanswers, htracks⟩ := hfollows
  obtain ⟨hfresh, rfl, rfl⟩ := hf
  have htrack : Tracks t.memory (loadState t.db o.key o.now) := htracks o.now
  show _ ↔ Timely o.rule t.memory (o.input t.db)
  rw [htrack.timely_iff]
  have hlogs : (feed sink t (.observe env o)).storedAnswers =
      (feed sink t (.observe env o)).memoryAnswers ↔
        (o.answer t.db).flags = ((o.input t.db).answer o.rule t.memory).flags := by
    simp [feed, hanswers]
  constructor
  · rintro ⟨hlog, htracks'⟩
    have hflags := hlogs.mp hlog
    refine ⟨hflags, Bool.eq_false_iff.mpr fun hr => ?_⟩
    -- the resolution is rolled back, and only the one in memory is healthy
    have hrefused := h.consistent.refused_of_resolved hr
    have hdb : (feed sink t (.observe env o)).db = t.db := by
      cases hok : evaluate sink env t.db o with
      | error e => simp [feed, hok, Except.toOption]
      | ok db' => exact absurd hok (evaluate_refused hrefused db')
    have hresolved : ((o.input t.db).answer o.rule t.memory).resolved = true :=
      (congrArg Flags.resolved hflags).symm.trans hr
    have hphase : (loadState (feed sink t (.observe env o)).db o.key o.now).phase = .healthy :=
      (htracks' o.now).phase.trans ((advance_cases ..).healthy_of_resolved hresolved)
    rw [hdb, (advance_resolved_iff.mp hr).1] at hphase
    cases hphase
  · rintro ⟨hflags, hr⟩
    refine ⟨hlogs.mpr hflags, fun now => ?_⟩
    rw [show dedup o.rule.family o.target = o.key from rfl,
      loadState_feed h hsev ⟨hfresh, rfl, rfl⟩ hr now]
    have hnext : Tracks (nextState o.rule t.memory (o.input t.db) (o.answer t.db).flags)
        (nextState o.rule (loadState t.db o.key o.now) (o.input t.db)
          (o.answer t.db).flags).stored :=
      htrack.next _
    have hstored : (o.answer t.db).state = nextState o.rule (loadState t.db o.key o.now)
        (o.input t.db) (o.answer t.db).flags := answer_state o.rule _ (o.input t.db)
    have hmemory : ((o.input t.db).answer o.rule t.memory).state =
        nextState o.rule t.memory (o.input t.db) (o.answer t.db).flags := by
      rw [answer_state, ← hflags]
      rfl
    rw [← hstored, ← hmemory] at hnext
    exact hnext

theorem follows_feed_iff {f : Feed} (h : Ruled rule t) (hsev : rule.severity.level ≠ none)
    (hf : f.Enabled rule target t) (hfollows : t.Follows rule target) :
    (feed sink t f).Follows rule target ↔ f.Timely t := by
  cases f with
  | observe env o => exact follows_observe_iff h hsev hf hfollows
  | change db =>
    refine iff_of_true ⟨hfollows.1, fun now => ?_⟩ trivial
    have hstate : loadState db (dedup rule.family target) now =
        loadState t.db (dedup rule.family target) now := by
      unfold loadState
      rw [hf.1.states]
    show Tracks t.memory (loadState db (dedup rule.family target) now)
    rw [hstate]
    exact hfollows.2 now

theorem tracks_loadState (db : Database) (key : String) (start now : Time) :
    Tracks (loadState db key start) (loadState db key now) := by
  unfold loadState
  cases db.alertEvaluationState.find? key with
  | none =>
    refine ⟨rfl, fun hp => absurd rfl hp, ?_, rfl⟩
    rintro (h | h) <;> cases h
  | some r =>
    refine ⟨rfl, fun _ => ?_, fun _ => ?_, ?_⟩
    · simp [stateOf]
    · simp [stateOf, Function.comp_def]
    · simp [stateOf, Function.comp_def]

/-- Reloading against memory. From any database that histories reach, with the state of the key as
it is loaded there in memory, evaluations and `Advance` in memory give the same answers and keep
the same state up to whole seconds, all along a run, exactly if every step of it is timely. -/
theorem stored_follows_memory_iff {m : Manager} (hm : (histories sink).Reachable m)
    (hrule : m.db.alertRules.has rule.id = true) (hsev : rule.severity.level ≠ none)
    (target : String) (start : Time) (feeds : List Feed)
    (hfeeds : Along (feed sink) (Feed.Enabled rule target)
      { db := m.db, memory := loadState m.db (dedup rule.family target) start } feeds) :
    (∀ pre, pre <+: feeds → (pre.foldl (feed sink)
        { db := m.db, memory := loadState m.db (dedup rule.family target) start }).Follows
          rule target) ↔
      ∀ pre f, pre ++ [f] <+: feeds → f.Timely (pre.foldl (feed sink)
        { db := m.db, memory := loadState m.db (dedup rule.family target) start }) := by
  refine forall_prefix_iff (I := Ruled rule)
    (Q := fun t f => f.Enabled rule target t) ?_ ?_ ?_ ?_ ?_
  · exact fun t f hI hP hf => follows_feed_iff hI hsev hf hP
  · exact fun t f hI hf => hI.feed hf
  · exact fun pre f hpre => (hfeeds.at_snoc hpre).2
  · exact ⟨consistent_of_reachable hm, hrule⟩
  · exact ⟨rfl, fun now => tracks_loadState _ _ _ _⟩

end Runs

/-! ### Two observations of a failing check -/

/-- The check of `web` fails at a millisecond of the clock. -/
def webFails (milliseconds : Int) : Observation where
  rule := twoMinutes
  targetType := "resource"
  target := "web"
  value := 0
  failing := true
  recovered := false
  now := milliseconds * millisecond

def observing (t : Twin) (o : Observation) : Feed :=
  .observe ⟨unusedIds t.db, o.now, .stored⟩ o

def webTwin : Twin where
  db := seeded.db
  memory := loadState seeded.db (dedup familyRequiredCheck "web") 0

def failsAgain (milliseconds : Int) : List Feed :=
  let first := observing webTwin (webFails 900)
  [first, observing (feed (some {}) webTwin first) (webFails milliseconds)]

theorem enabled_failsAgain (milliseconds : Int) :
    Along (feed (some {})) (Feed.Enabled twoMinutes "web") webTwin (failsAgain milliseconds) :=
  ⟨⟨fresh_unusedIds _ _ _, rfl, rfl⟩, ⟨fresh_unusedIds _ _ _, rfl, rfl⟩, trivial⟩

/-- At 121 s both trigger. -/
theorem stored_follows_memory_iff_web :
    ((failsAgain 121000).foldl (feed (some {})) webTwin).Follows twoMinutes "web" := by
  refine (stored_follows_memory_iff reachable_seeded (by decide +kernel) (by decide) "web" 0 _
    (enabled_failsAgain 121000)).mpr ?_ _ (List.prefix_refl _)
  refine forall_snoc_of_get fun i => ?_
  match i with
  | ⟨0, _⟩ => trivial
  | ⟨1, _⟩ =>
    intro _ _ _ _
    refine ⟨?_, nofun⟩
    show (2 * minute : Int) ≤ 121000 * millisecond - 900 * millisecond
    decide

/-- At 120.5 s two minutes have passed since the stored second, and not since 0.9 s: only the
stored state triggers. -/
theorem reloaded_triggers_early :
    (histories (some {})).Reachable seeded ∧
      Along (feed (some {})) (Feed.Enabled twoMinutes "web") webTwin (failsAgain 120500) ∧
      ((failsAgain 120500).foldl (feed (some {})) webTwin).storedAnswers =
        [⟨false, false, false⟩, ⟨true, false, false⟩] ∧
      ((failsAgain 120500).foldl (feed (some {})) webTwin).memoryAnswers =
        [⟨false, false, false⟩, ⟨false, false, false⟩] :=
  ⟨reachable_seeded, enabled_failsAgain 120500, by decide +kernel, by decide +kernel⟩

end Binnacle.Alerts
