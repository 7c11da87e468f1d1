import Binnacle.Collector.Docker
import Binnacle.Runs

/-!
# Does the container cache agree with Docker?

Containers change, Docker delivers an event for each change in order, and the
sampler handles the events one after the other and, in between, inspects the
containers it has not cached yet (`collectDocker`). A state is judged by what the
sampler shows once the delivered events are handled (`World.Agrees`).

- `find?_settled`, `settled_eq`: what is then cached for a container;
- `agrees_change_iff`, `agrees_look_iff`: when a step keeps the agreement;
- `cache_agrees_iff`: the same over whole runs.
-/

namespace Binnacle.Collector

open EventCache Relational Runs Metrics

/-! ## Docker -/

/-- The changes of a container that Docker tells of. -/
inductive Action where
  | create | start | die | stop | kill | pause | unpause | restart | rename | destroy
  | healthy | unhealthy
  deriving DecidableEq

def Action.name : Action → String
  | .create => "create"
  | .start => "start"
  | .die => "die"
  | .stop => "stop"
  | .kill => "kill"
  | .pause => "pause"
  | .unpause => "unpause"
  | .restart => "restart"
  | .rename => "rename"
  | .destroy => "destroy"
  | .healthy => "health_status: healthy"
  | .unhealthy => "health_status: unhealthy"

/-- What an action makes of a container. A container that died is restarted,
removed or left; `stop` and `restart` are told when everything is done. -/
def Action.Allows (before after : Inspect) : Action → Prop
  | .create => False
  | .start => after = { before with state := "running", health := after.health }
  | .die =>
    after = { before with state := after.state, health := after.health } ∧
      after.state ∈ ["exited", "dead", "restarting", "removing"]
  | .pause => after = { before with state := "paused" }
  | .unpause => after = { before with state := "running" }
  | .rename => after = { before with name := after.name }
  | .healthy => after = { before with health := "healthy" }
  | .unhealthy => after = { before with health := "unhealthy" }
  | .stop | .kill | .restart | .destroy => after = before

instance (before after : Inspect) (action : Action) :
    Decidable (action.Allows before after) := by
  cases action <;> simp only [Action.Allows] <;> infer_instance

structure World where
  docker : Docker
  events : List Event
  cache : Cache

def World.start (docker : Docker) : World := ⟨docker, [], .empty⟩

inductive Activity where
  /-- A container becomes `after`, and Docker tells of the action. -/
  | change (action : Action) (after : Inspect) (time : String)
  | handle
  /-- `collectDocker` looks at a container. -/
  | look (id : String)

def change (docker : Docker) (action : Action) (after : Inspect) : Docker :=
  match action with
  | .destroy => docker.delete fun i => i.id = after.id
  | _ => docker.insertOrReplace after

def step (w : World) : Activity → World
  | .change action after time =>
    { w with
      docker := change w.docker action after
      events := w.events ++ [{ id := after.id, action := action.name, time }] }
  | .handle =>
    match w.events with
    | [] => w
    | event :: events =>
      { w with events, cache := handleDockerEvent w.docker w.cache event }
  | .look id => { w with cache := (inspect w.docker w.cache id).2 }

/-- What Docker can do: a new container has a new id, and other actions happen to
containers that exist. -/
def Activity.Legal (w : World) : Activity → Prop
  | .change action after _ =>
    if action = .create then
      w.docker.has after.id = false ∧ (∀ e ∈ w.events, e.id ≠ after.id) ∧ after.state = "created"
    else
      ∃ before ∈ w.docker.rows, before.id = after.id ∧ action.Allows before after
  | _ => True

instance (w : World) (a : Activity) : Decidable (a.Legal w) := by
  cases a <;> simp only [Activity.Legal] <;> infer_instance

/-! ## What is shown -/

/-- What `collectDocker` derives from the metadata of a container: its name, its
status, and whether it asks for statistics (sampler.go:422-428). -/
structure Shown where
  name : String
  status : ResourceStatus
  running : Bool
  deriving DecidableEq

def shown (i : Inspect) : Shown := ⟨i.name, containerStatus i.state i.health, i.state = "running"⟩

def World.settled (w : World) : Cache := w.events.foldl (handleDockerEvent w.docker) w.cache

/-- After that, every listed container is shown as a fresh `Inspect` would show it. -/
def World.Agrees (w : World) : Prop :=
  ∀ i ∈ w.docker.rows, (inspect w.docker w.settled i.id).1.map shown = some (shown i)

instance (w : World) : Decidable w.Agrees := inferInstanceAs (Decidable (∀ _ ∈ _, _))

variable {w : World} {docker : Docker} {i after : Inspect} {v : Metadata} {action : Action}

theorem agrees_iff : w.Agrees ↔
    ∀ i ∈ w.docker.rows, ∀ v, w.settled.find? i.id = some v → shown (inspectOf v) = shown i := by
  refine forall_congr' fun i => forall_congr' fun hi => ?_
  have hfresh : w.docker.find? i.id = some i := Table.find?_eq_some_iff.mpr ⟨hi, rfl⟩
  unfold inspect
  cases hv : w.settled.find? i.id with
  | none => simp [hfresh]
  | some v => simp

/-! ## Pending events of one container -/

def World.effects (w : World) (id : String) : List (Effect Metadata) :=
  (w.events.filter fun e => e.id = id).map effectOf

theorem find?_foldl_handle (docker : Docker) (events : List Event) (cache : Cache) (id : String) :
    (events.foldl (handleDockerEvent docker) cache).find? id
      = settle (truth docker id) ((events.filter fun e => e.id = id).map effectOf)
          (cache.find? id) := by
  induction events generalizing cache with
  | nil => rfl
  | cons e events ih =>
    rw [List.foldl_cons, ih, find?_handleDockerEvent]
    by_cases h : e.id = id
    · rw [if_pos h, List.filter_cons_of_pos (by simpa using h)]
      rfl
    · rw [if_neg h, List.filter_cons_of_neg (by simpa using h)]

theorem find?_settled (w : World) (id : String) :
    w.settled.find? id = settle (truth w.docker id) (w.effects id) (w.cache.find? id) :=
  find?_foldl_handle w.docker w.events w.cache id

/-- An event that fetches the container's metadata is under way. -/
def World.Refreshing (w : World) (id : String) : Prop :=
  ∃ e ∈ w.events, e.id = id ∧ (effectOf e).isRefresh = true

instance (w : World) (id : String) : Decidable (w.Refreshing id) :=
  inferInstanceAs (Decidable (∃ e ∈ _, _))

theorem any_isRefresh_effects (w : World) (id : String) :
    (w.effects id).any Effect.isRefresh = true ↔ w.Refreshing id := by
  simp [World.effects, World.Refreshing]

/-- `destroy` is the last event of a container, and what is cached of containers
that are gone will be removed. -/
structure WellFormed (w : World) : Prop where
  gone : ∀ e ∈ w.events, (effectOf e).isRemove = true → w.docker.has e.id = false
  cached : ∀ v ∈ w.cache.rows, w.docker.has v.id = false →
    ∃ e ∈ w.events, e.id = v.id ∧ (effectOf e).isRemove = true

theorem effects_eq_false {id : String} {p : Effect Metadata → Bool}
    (h : ¬ ∃ e ∈ w.events, e.id = id ∧ p (effectOf e) = true) :
    ∀ effect ∈ w.effects id, p effect = false := by
  intro effect heffect
  obtain ⟨e, he, rfl⟩ := List.mem_map.mp heffect
  obtain ⟨hmem, hid⟩ := List.mem_filter.mp he
  by_contra hyes
  exact h ⟨e, hmem, of_decide_eq_true hid, Bool.eq_true_of_not_eq_false hyes⟩

theorem WellFormed.not_remove (h : WellFormed w) (hi : i ∈ w.docker.rows) :
    ∀ e ∈ w.effects i.id, e.isRemove = false := by
  refine effects_eq_false ?_
  rintro ⟨e, he, hid, hremove⟩
  exact Table.has_eq_false_iff.mp (h.gone e he hremove) i hi hid.symm

theorem truth_of_mem (hi : i ∈ docker.rows) : truth docker i.id = some (metadataOf i) := by
  rw [truth, Table.find?_eq_some_iff.mpr ⟨hi, rfl⟩, Option.map_some]

/-- What is cached in the end: the truth if it is fetched, else what was cached,
under the patches that come after. -/
theorem settled_eq (h : WellFormed w) (hi : i ∈ w.docker.rows) :
    w.settled.find? i.id
      = (if w.Refreshing i.id then some (metadataOf i) else w.cache.find? i.id).map
          (patches (w.effects i.id)) := by
  rw [find?_settled, truth_of_mem hi, settle_eq _ (h.not_remove hi)]
  simp only [any_isRefresh_effects]

/-! ## Patched states

The words that `handleDockerEvent` stores as states are not states of Docker. -/

def patchWords : List String := ["die", "stop", "pause"]

theorem effectOf_cases (e : Event) :
    effectOf e = .remove ∨ (∃ word ∈ patchWords, effectOf e = .patch (setState word)) ∨
      effectOf e = .refresh ∨ effectOf e = .ignore := by
  unfold effectOf
  split
  · exact .inl rfl
  all_goals first
    | exact .inr (.inr (.inl rfl))
    | exact .inr (.inr (.inr rfl))
    | next heq => exact .inr (.inl ⟨_, by simp [patchWords, heq], rfl⟩)

theorem setState_comp {g : Metadata → Metadata}
    (hg : g = id ∨ ∃ word ∈ patchWords, g = setState word) (word : String) :
    setState word ∘ g = setState word := by
  rcases hg with rfl | ⟨word', -, rfl⟩ <;> rfl

theorem patches_map_effectOf (events : List Event) :
    (patches (events.map effectOf) = id ∧ ((∀ e ∈ events, (effectOf e).isPatch = false) ∨
      ∃ e ∈ events, (effectOf e).isRefresh = true)) ∨
    ∃ word ∈ patchWords, patches (events.map effectOf) = setState word := by
  induction events using List.reverseRecOn with
  | nil => exact .inl ⟨rfl, .inl nofun⟩
  | append_singleton events e ih =>
    rw [List.map_append, List.map_singleton, patches_snoc]
    rcases effectOf_cases e with he | ⟨word, hword, he⟩ | he | he
    case inr.inl =>
      refine .inr ⟨word, hword, ?_⟩
      rw [he]
      exact setState_comp (ih.imp_left fun hnone => hnone.1) word
    case inr.inr.inl =>
      refine .inl ⟨by rw [he]; rfl, .inr ⟨e, by simp, ?_⟩⟩
      rw [he]
      rfl
    all_goals
      rw [he]
      refine ih.imp_left fun ⟨hnone, hwhy⟩ => ⟨hnone, hwhy.imp (fun hall => ?_) ?_⟩
      · refine List.forall_mem_append.mpr ⟨hall, List.forall_mem_singleton.mpr ?_⟩
        rw [he]
        rfl
      · exact fun ⟨r, hr, hfresh⟩ => ⟨r, List.mem_append_left _ hr, hfresh⟩

def Inspect.Unrecognised (i : Inspect) : Prop :=
  i.state ∉ ["running", "paused", "exited", "dead"]

instance (i : Inspect) : Decidable i.Unrecognised := inferInstanceAs (Decidable (¬ _))

theorem containerStatus_of_not_mem {state : String}
    (h : state ∉ ["running", "paused", "exited", "dead"]) (health : String) :
    containerStatus state health = .unknown := by
  unfold containerStatus
  split <;> simp_all

/-- A patched state shows as the true one if the status mapping does not know that
either. -/
theorem shown_setState_iff {word : String} (hword : word ∈ patchWords) (hname : v.name = i.name) :
    shown (inspectOf (setState word v)) = shown i ↔ i.Unrecognised := by
  have hpatched : shown (inspectOf (setState word v)) = ⟨i.name, .unknown, false⟩ := by
    rw [← hname]
    simp only [patchWords, List.mem_cons, List.not_mem_nil, or_false] at hword
    rcases hword with rfl | rfl | rfl <;> rfl
  rw [hpatched]
  constructor
  · intro h hmem
    obtain ⟨-, hstatus, hrunning⟩ := Shown.mk.inj h
    simp only [List.mem_cons, List.not_mem_nil, or_false] at hmem
    rcases hmem with hs | hs | hs | hs
    · simp [hs] at hrunning
    all_goals
      rw [hs] at hstatus
      cases hstatus
  · intro hun
    have hne : i.state ≠ "running" := by
      intro heq
      exact hun (by simp [heq])
    rw [shown, containerStatus_of_not_mem hun, decide_eq_false hne]

/-! ## One step -/

def Action.effect : Action → Effect Metadata
  | .start | .unpause | .restart => .refresh
  | .die => .patch (setState "die")
  | .stop => .patch (setState "stop")
  | .pause => .patch (setState "pause")
  | .destroy => .remove
  | .create | .kill | .rename | .healthy | .unhealthy => .ignore

theorem effectOf_action (action : Action) (id : String) (time : String) :
    effectOf { id, action := action.name, time } = action.effect := by
  have hlower : action.name.toLower = action.name := by
    cases action <;> decide +kernel
  unfold effectOf
  rw [hlower]
  cases action <;> rfl

def World.Tracked (w : World) (id : String) : Prop := w.cache.has id = true ∨ w.Refreshing id

def World.Patching (w : World) (id : String) : Prop :=
  ∃ e ∈ w.events, e.id = id ∧ (effectOf e).isPatch = true

instance (w : World) (id : String) : Decidable (w.Tracked id) :=
  inferInstanceAs (Decidable (_ ∨ _))

instance (w : World) (id : String) : Decidable (w.Patching id) :=
  inferInstanceAs (Decidable (∃ e ∈ _, _))

/-- Steps that keep the agreement: a tracked container dies, stops or is paused only
into a state that the status mapping does not know; it is renamed or changes its
health only if its metadata will be fetched, or if nothing of it shows; and a
container is inspected for the first time only if no patch for it is under way. -/
def Activity.Harmless (w : World) : Activity → Prop
  | .change action after _ =>
    match action with
    | .die | .stop | .pause => w.Tracked after.id → after.Unrecognised
    | .kill | .rename | .healthy | .unhealthy =>
      w.cache.has after.id = true → ¬w.Refreshing after.id →
        ∀ before ∈ w.docker.rows, before.id = after.id → shown before = shown after
    | .create | .start | .unpause | .restart | .destroy => True
  | .handle => True
  | .look id =>
    w.cache.has id = false → ¬w.Refreshing id → w.Patching id →
      ∀ i ∈ w.docker.rows, i.id = id → i.Unrecognised

instance (w : World) (a : Activity) : Decidable (a.Harmless w) := by
  cases a with
  | change action after time =>
    cases action <;> simp only [Activity.Harmless] <;> infer_instance
  | handle => exact isTrue trivial
  | look id => simp only [Activity.Harmless]; infer_instance

theorem docker_step_change (w : World) (action : Action) (after : Inspect) (time : String) :
    (step w (.change action after time)).docker = change w.docker action after := rfl

theorem change_of_ne {id : String} (h : id ≠ after.id) :
    (change docker action after).find? id = docker.find? id := by
  unfold change
  split
  · rw [Table.find?_delete_key, if_neg h]
  · rw [Table.find?_insertOrReplace, if_neg (Ne.symm h)]

theorem change_self (haction : action ≠ .destroy) :
    (change docker action after).find? after.id = some after := by
  unfold change
  split
  · exact absurd rfl haction
  · rw [Table.find?_insertOrReplace, if_pos rfl]

theorem has_change {id : String} :
    (change docker action after).has id = false ↔
      (id ≠ after.id ∧ docker.has id = false) ∨ (id = after.id ∧ action = .destroy) := by
  rw [← Table.find?_eq_none_iff_has, ← Table.find?_eq_none_iff_has]
  by_cases h : id = after.id
  · subst h
    by_cases haction : action = .destroy
    · subst haction
      simp [change, Table.find?_delete_key]
    · rw [change_self haction]
      simp [haction]
  · rw [change_of_ne h]
    simp [h]

section Change

variable {w : World} {action : Action} {after : Inspect} {time : String}

theorem effects_change (id : String) :
    (step w (.change action after time)).effects id
      = w.effects id ++ if after.id = id then [action.effect] else [] := by
  simp only [step, World.effects, List.filter_append, List.map_append]
  congr 1
  by_cases h : after.id = id
  · rw [if_pos h, List.filter_cons_of_pos (by simpa using h), List.filter_nil,
      List.map_singleton, effectOf_action]
  · rw [if_neg h, List.filter_cons_of_neg (by simpa using h), List.filter_nil, List.map_nil]

theorem settled_change_of_ne {id : String} (h : id ≠ after.id) :
    (step w (.change action after time)).settled.find? id = w.settled.find? id := by
  rw [find?_settled, find?_settled, effects_change, if_neg (Ne.symm h), List.append_nil,
    docker_step_change, truth, change_of_ne h]
  rfl

section Legal

variable (hlegal : (Activity.change action after time).Legal w)

include hlegal

theorem legal_create (haction : action = .create) :
    w.docker.has after.id = false ∧ ∀ e ∈ w.events, e.id ≠ after.id := by
  simp only [Activity.Legal, if_pos haction] at hlegal
  exact ⟨hlegal.1, hlegal.2.1⟩

theorem legal_before (haction : action ≠ .create) :
    ∃ before ∈ w.docker.rows, before.id = after.id ∧ action.Allows before after := by
  simp only [Activity.Legal, if_neg haction] at hlegal
  exact hlegal

theorem WellFormed.of_change (h : WellFormed w) :
    WellFormed (step w (.change action after time)) := by
  constructor
  · intro e he hremove
    rw [docker_step_change, has_change]
    rcases mem_snoc rfl he with hmem | rfl
    · have hgone := h.gone e hmem hremove
      refine .inl ⟨fun hid => ?_, hgone⟩
      by_cases haction : action = .create
      · exact (legal_create hlegal haction).2 e hmem hid
      · obtain ⟨before, hbefore, hsame, -⟩ := legal_before hlegal haction
        exact Table.has_eq_false_iff.mp hgone before hbefore (hsame.trans hid.symm)
    · rw [effectOf_action] at hremove
      refine .inr ⟨rfl, ?_⟩
      cases action <;> first | rfl | cases hremove
  · intro v hv hgone
    rw [docker_step_change, has_change] at hgone
    rcases hgone with ⟨-, hgone⟩ | ⟨hid, rfl⟩
    · obtain ⟨e, he, hid, hremove⟩ := h.cached v hv hgone
      exact ⟨e, List.mem_append_left _ he, hid, hremove⟩
    · exact ⟨_, List.mem_append_right _ (List.mem_singleton_self _), hid.symm, by
        rw [effectOf_action]
        rfl⟩

end Legal

theorem mem_change (haction : action ≠ .destroy) : after ∈ (change w.docker action after).rows :=
  (Table.find?_eq_some_iff.mp (change_self haction)).1

theorem mem_of_mem_change (hi : i ∈ (change w.docker action after).rows)
    (hid : i.id ≠ after.id) : i ∈ w.docker.rows := by
  have hfind := Table.find?_eq_some_iff.mpr ⟨hi, rfl⟩
  rw [change_of_ne hid] at hfind
  exact (Table.find?_eq_some_iff.mp hfind).1

theorem agrees_change (hw : w.Agrees) (haction : action ≠ .destroy) :
    (step w (.change action after time)).Agrees ↔
      ∀ v, (step w (.change action after time)).settled.find? after.id = some v →
        shown (inspectOf v) = shown after := by
  rw [agrees_iff]
  constructor
  · intro h v hv
    exact h after (mem_change haction) v hv
  · intro h i hi v hv
    by_cases hid : i.id = after.id
    · have hsame : i = after := Table.eq_of_key_eq hi (mem_change haction) hid
      rw [hsame] at hv ⊢
      exact h v hv
    · rw [settled_change_of_ne hid] at hv
      exact agrees_iff.mp hw i (mem_of_mem_change hi hid) v hv

theorem agrees_destroy (hw : w.Agrees) : (step w (.change .destroy after time)).Agrees := by
  refine agrees_iff.mpr fun i hi v hv => ?_
  have hid : i.id ≠ after.id := by
    have hkept := (Table.mem_delete.mp hi).2
    exact of_decide_eq_false hkept
  rw [settled_change_of_ne hid] at hv
  exact agrees_iff.mp hw i (mem_of_mem_change hi hid) v hv

section Kept

variable (h : WellFormed w) (hlegal : (Activity.change action after time).Legal w)

include h hlegal

theorem settled_change_self (haction : action ≠ .destroy) :
    (step w (.change action after time)).settled.find? after.id
      = (if w.Refreshing after.id ∨ action.effect.isRefresh = true then some (metadataOf after)
          else w.cache.find? after.id).map
            (action.effect.after (patches (w.effects after.id))) := by
  rw [settled_eq (WellFormed.of_change hlegal h) (mem_change haction), effects_change, if_pos rfl,
    patches_snoc]
  congr 1
  refine if_congr ?_ rfl rfl
  rw [← any_isRefresh_effects, ← any_isRefresh_effects, effects_change, if_pos rfl,
    List.any_append, Bool.or_eq_true]
  simp

theorem settled_change_not_refresh (haction : action ≠ .destroy)
    (heffect : action.effect.isRefresh = false) :
    (step w (.change action after time)).settled.find? after.id
      = (if w.Refreshing after.id then some (metadataOf after) else w.cache.find? after.id).map
          (action.effect.after (patches (w.effects after.id))) := by
  rw [settled_change_self h hlegal haction]
  simp only [heffect, Bool.false_eq_true, or_false]

variable (hw : w.Agrees) {before : Inspect}

include hw

theorem agrees_refresh (heffect : action.effect = .refresh) :
    (step w (.change action after time)).Agrees := by
  have haction : action ≠ .destroy := by
    rintro rfl
    cases heffect
  refine (agrees_change hw haction).mpr fun v hv => ?_
  have hfetched : (Effect.refresh : Effect Metadata).isRefresh = true := rfl
  rw [settled_change_self h hlegal haction, heffect, if_pos (.inr hfetched)] at hv
  cases hv
  rfl

omit hlegal in
theorem name_of_agrees (hbefore : before ∈ w.docker.rows) (hrefresh : ¬w.Refreshing before.id)
    (hv : w.cache.find? before.id = some v) : v.name = before.name := by
  have hsettled := settled_eq h hbefore
  rw [if_neg hrefresh, hv, Option.map_some] at hsettled
  have hshown := agrees_iff.mp hw before hbefore _ hsettled
  have hname := (Shown.mk.inj hshown).1
  rcases patches_map_effectOf (w.events.filter fun e => e.id = before.id) with
    ⟨hid, -⟩ | ⟨word, -, hset⟩
  · rw [World.effects, hid] at hname
    exact hname
  · rw [World.effects, hset] at hname
    exact hname

/-- A patched state is right only if the true one is not recognised either. -/
theorem agrees_patch_iff {word : String} (hword : word ∈ patchWords)
    (heffect : action.effect = .patch (setState word))
    (hbefore : before ∈ w.docker.rows) (hid : before.id = after.id)
    (hname : before.name = after.name) :
    (step w (.change action after time)).Agrees ↔ (w.Tracked after.id → after.Unrecognised) := by
  have haction : action ≠ .destroy := by
    rintro rfl
    cases heffect
  have hpatch : (Effect.patch (setState word)).after (patches (w.effects after.id))
      = setState word :=
    setState_comp ((patches_map_effectOf _).imp_left fun hnone => hnone.1) word
  rw [agrees_change hw haction,
    settled_change_not_refresh h hlegal haction (by rw [heffect]; rfl), heffect, hpatch]
  by_cases hrefresh : w.Refreshing after.id
  · rw [if_pos hrefresh]
    have hpatched := shown_setState_iff hword (v := metadataOf after) (i := after) rfl
    simp only [World.Tracked, hrefresh, or_true, true_imp_iff, Option.map_some, Option.some.injEq,
      forall_eq', hpatched]
  · rw [if_neg hrefresh]
    cases hv : w.cache.find? after.id with
    | none =>
      have hfree : ¬w.Tracked after.id := by
        rintro (hcached | hrefresh')
        · rw [Table.find?_eq_none_iff_has.mp hv] at hcached
          cases hcached
        · exact hrefresh hrefresh'
      exact iff_of_true nofun fun htracked => absurd htracked hfree
    | some v =>
      have htracked : w.Tracked after.id := .inl (Table.has_iff.mpr
        ⟨v, Table.find?_eq_some_iff.mp hv⟩)
      have hsame : v.name = after.name := by
        rw [← hname]
        exact name_of_agrees h hw hbefore (hid ▸ hrefresh) (hid ▸ hv)
      simp only [htracked, true_imp_iff, Option.map_some, Option.some.injEq, forall_eq',
        shown_setState_iff hword hsame]

/-- An event that means nothing to the cache is harmless if the metadata will be
fetched, or if nothing of the change shows. -/
theorem agrees_ignore_iff (heffect : action.effect = .ignore) (hbefore : before ∈ w.docker.rows)
    (hid : before.id = after.id) (hstate : before.state = after.state) :
    (step w (.change action after time)).Agrees ↔
      (w.cache.has after.id = true → ¬w.Refreshing after.id → shown before = shown after) := by
  have haction : action ≠ .destroy := by
    rintro rfl
    cases heffect
  have hsettled := settled_eq h hbefore
  have hagrees := agrees_iff.mp hw before hbefore
  rw [agrees_change hw haction,
    settled_change_not_refresh h hlegal haction (by rw [heffect]; rfl), heffect]
  rw [hid] at hsettled hagrees
  rw [hsettled] at hagrees
  show (∀ v, Option.map (patches (w.effects after.id)) _ = some v → _) ↔ _
  by_cases hrefresh : w.Refreshing after.id
  · -- the truth is fetched; a later patch stays right because the state is the same
    rw [if_pos hrefresh] at hagrees ⊢
    refine iff_of_true ?_ fun _ hno => absurd hrefresh hno
    intro v hv
    cases hv
    have hshown := hagrees _ rfl
    rcases patches_map_effectOf (w.events.filter fun e => e.id = after.id) with
      ⟨hnone, -⟩ | ⟨word, hword, hset⟩
    · rw [World.effects, hnone]
      rfl
    · rw [World.effects, hset, shown_setState_iff hword rfl] at hshown ⊢
      rw [Inspect.Unrecognised, ← hstate]
      exact hshown
  · rw [if_neg hrefresh] at hagrees ⊢
    cases hv : w.cache.find? after.id with
    | none =>
      refine iff_of_true nofun fun hcached => ?_
      rw [Table.find?_eq_none_iff_has.mp hv] at hcached
      cases hcached
    | some u =>
      have hcached : w.cache.has after.id = true := Table.has_iff.mpr
        ⟨u, Table.find?_eq_some_iff.mp hv⟩
      rw [hv] at hagrees
      have hshown := hagrees _ rfl
      constructor
      · intro hafter _ _
        rw [← hshown]
        exact hafter _ rfl
      · intro hkeeps v hv
        cases hv
        rw [← hkeeps hcached hrefresh]
        exact hshown

theorem agrees_create (haction : action = .create) :
    (step w (.change action after time)).Agrees := by
  obtain ⟨hnew, hquiet⟩ := legal_create hlegal haction
  subst haction
  have hne : Action.create ≠ .destroy := nofun
  have hrefresh : ¬w.Refreshing after.id := by
    rintro ⟨e, he, hid, -⟩
    exact hquiet e he hid
  have hfree : w.cache.find? after.id = none := by
    refine Table.find?_eq_none_iff.mpr fun v hv hid => ?_
    obtain ⟨e, he, hsame, -⟩ := h.cached v hv (by rw [hid]; exact hnew)
    exact hquiet e he (hsame.trans hid)
  refine (agrees_change hw hne).mpr fun v hv => ?_
  rw [settled_change_not_refresh h hlegal hne rfl, if_neg hrefresh, hfree] at hv
  cases hv

theorem agrees_change_iff :
    (step w (.change action after time)).Agrees ↔
      (Activity.change action after time).Harmless w := by
  by_cases hcreate : action = .create
  · have hagrees := agrees_create h hlegal hw hcreate
    subst hcreate
    exact iff_of_true hagrees trivial
  obtain ⟨before, hbefore, hid, hallows⟩ := legal_before hlegal hcreate
  -- of a container there is only one row
  have hone : ∀ P : Inspect → Prop,
      (∀ i ∈ w.docker.rows, i.id = after.id → P i) ↔ P before := by
    rw [← hid]
    exact fun P => Table.forall_key_iff hbefore
  cases action with
  | create => exact absurd rfl hcreate
  | start | unpause | restart => exact iff_of_true (agrees_refresh h hlegal hw rfl) trivial
  | destroy => exact iff_of_true (agrees_destroy hw) trivial
  | die =>
    exact agrees_patch_iff h hlegal hw (by simp [patchWords]) rfl hbefore hid
      (congrArg Inspect.name hallows.1).symm
  | stop | pause =>
    exact agrees_patch_iff h hlegal hw (by simp [patchWords]) rfl hbefore hid
      (congrArg Inspect.name hallows).symm
  | _ =>
    rw [agrees_ignore_iff h hlegal hw rfl hbefore hid (congrArg Inspect.state hallows).symm]
    simp only [Activity.Harmless, hone]

end Kept

end Change

/-! ### Handling and looking -/

theorem settled_handle (w : World) : (step w .handle).settled = w.settled ∧
    (step w .handle).docker = w.docker := by
  obtain ⟨docker, events, cache⟩ := w
  cases events with
  | nil => exact ⟨rfl, rfl⟩
  | cons e events => exact ⟨rfl, rfl⟩

theorem agrees_handle (w : World) : (step w .handle).Agrees ↔ w.Agrees := by
  obtain ⟨hsettled, hdocker⟩ := settled_handle w
  rw [agrees_iff, agrees_iff, hsettled, hdocker]

/-- An event leaves metadata of containers that were cached before, except its own
container's, or that exist. -/
theorem mem_handleDockerEvent {cache : Cache} {event : Event}
    (hv : v ∈ (handleDockerEvent docker cache event).rows) (hgone : docker.has v.id = false) :
    ∃ u ∈ cache.rows, u.id = v.id ∧ ((effectOf event).isRemove = true → event.id ≠ v.id) := by
  have hfind := Table.find?_eq_some_iff.mpr ⟨hv, rfl⟩
  rw [find?_handleDockerEvent] at hfind
  have hnone : truth docker v.id = none := by
    rw [truth, Table.find?_eq_none_iff_has.mpr hgone, Option.map_none]
  rw [hnone] at hfind
  by_cases hid : event.id = v.id
  · rw [if_pos hid] at hfind
    rcases effectOf_cases event with he | ⟨word, -, he⟩ | he | he
    · rw [he] at hfind
      cases hfind
    · rw [he] at hfind
      obtain ⟨u, hu, hset⟩ := Option.map_eq_some_iff.mp hfind
      obtain ⟨hmem, hsame⟩ := Table.find?_eq_some_iff.mp hu
      exact ⟨u, hmem, hsame, by rw [he]; exact nofun⟩
    all_goals
      rw [he] at hfind
      obtain ⟨hmem, hsame⟩ := Table.find?_eq_some_iff.mp hfind
      exact ⟨v, hmem, hsame, by rw [he]; exact nofun⟩
  · rw [if_neg hid] at hfind
    obtain ⟨hmem, hsame⟩ := Table.find?_eq_some_iff.mp hfind
    exact ⟨v, hmem, hsame, fun _ => hid⟩

theorem WellFormed.of_handle (h : WellFormed w) : WellFormed (step w .handle) := by
  obtain ⟨docker, events, cache⟩ := w
  cases events with
  | nil => exact h
  | cons event events =>
    constructor
    · intro e he
      exact h.gone e (List.mem_cons_of_mem _ he)
    · intro v hv hgone
      obtain ⟨u, hu, hsame, hother⟩ := mem_handleDockerEvent hv hgone
      obtain ⟨e, he, hid, hremove⟩ := h.cached u hu (by rw [hsame]; exact hgone)
      refine ⟨e, ?_, hid.trans hsame, hremove⟩
      rcases List.mem_cons.mp he with rfl | hmem
      · exact absurd (hid.trans hsame) (hother hremove)
      · exact hmem

theorem step_look (w : World) (id : String) :
    (∃ i ∈ w.docker.rows, i.id = id ∧ w.cache.has id = false ∧
      step w (.look id) = { w with cache := w.cache.insertOrReplace (metadataOf i) }) ∨
    (step w (.look id) = w ∧ (w.cache.has id = true ∨ w.docker.has id = false)) := by
  cases hc : w.cache.find? id with
  | some v =>
    refine .inr ⟨by simp only [step, inspect, hc], .inl (Table.has_iff.mpr ⟨v, ?_⟩)⟩
    exact Table.find?_eq_some_iff.mp hc
  | none =>
    cases hd : w.docker.find? id with
    | none =>
      exact .inr ⟨by simp only [step, inspect, hc, hd], .inr (Table.find?_eq_none_iff_has.mp hd)⟩
    | some i =>
      obtain ⟨hi, hid⟩ := Table.find?_eq_some_iff.mp hd
      exact .inl ⟨i, hi, hid, Table.find?_eq_none_iff_has.mp hc, by
        simp only [step, inspect, hc, hd]⟩

theorem WellFormed.of_look (h : WellFormed w) (id : String) : WellFormed (step w (.look id)) := by
  rcases step_look w id with ⟨i, hi, rfl, -, hstep⟩ | ⟨hstep, -⟩
  · rw [hstep]
    refine ⟨h.gone, fun v hv hgone => ?_⟩
    rcases Table.mem_insertOrReplace.mp hv with ⟨hmem, -⟩ | rfl
    · exact h.cached v hmem hgone
    · exact absurd rfl (Table.has_eq_false_iff.mp hgone i hi)
  · rw [hstep]
    exact h

theorem settled_store (h : WellFormed w) {j : Inspect} (hi : i ∈ w.docker.rows)
    (hj : j ∈ w.docker.rows) :
    (World.settled { w with cache := w.cache.insertOrReplace (metadataOf i) }).find? j.id
      = if j = i then some (patches (w.effects i.id) (metadataOf i)) else w.settled.find? j.id := by
  have hkey : (metadataOf i).id = i.id := rfl
  rw [find?_settled, find?_settled]
  show settle (truth w.docker j.id) (w.effects j.id) _ = _
  rw [Table.find?_insertOrReplace, hkey]
  by_cases hji : j = i
  · subst hji
    rw [if_pos rfl, if_pos rfl, truth_of_mem hj, settle_eq _ (h.not_remove hj), ite_self,
      Option.map_some]
  · have hid : ¬i.id = j.id := fun heq => hji (Table.eq_of_key_eq hj hi heq.symm)
    rw [if_neg hid, if_neg hji]

theorem agrees_look_iff (h : WellFormed w) (hw : w.Agrees) (id : String) :
    (step w (.look id)).Agrees ↔ (Activity.look id).Harmless w := by
  rcases step_look w id with ⟨i, hi, rfl, hfree, hstep⟩ | ⟨hstep, hknown⟩
  · have honly : (step w (.look i.id)).Agrees ↔
        shown (inspectOf (patches (w.effects i.id) (metadataOf i))) = shown i := by
      rw [hstep, agrees_iff]
      constructor
      · intro hall
        exact hall i hi _ ((settled_store h hi hi).trans (if_pos rfl))
      · intro hshown j hj v hv
        rw [settled_store h hi hj] at hv
        by_cases hji : j = i
        · rw [if_pos hji] at hv
          cases hv
          rw [hji]
          exact hshown
        · rw [if_neg hji] at hv
          exact agrees_iff.mp hw j hj v hv
    have hone : (∀ j ∈ w.docker.rows, j.id = i.id → j.Unrecognised) ↔ i.Unrecognised :=
      Table.forall_key_iff hi
    rw [honly]
    simp only [Activity.Harmless, hfree, true_imp_iff, hone]
    by_cases hrefresh : w.Refreshing i.id
    · -- the metadata are fetched anyway: nothing changes
      refine iff_of_true ?_ fun hno => absurd hrefresh hno
      refine agrees_iff.mp hw i hi _ ?_
      rw [settled_eq h hi, if_pos hrefresh, Option.map_some]
    · by_cases hpatch : w.Patching i.id
      · rcases patches_map_effectOf (w.events.filter fun e => e.id = i.id) with
          ⟨-, hnone | ⟨e, he, hfresh⟩⟩ | ⟨word, hword, hset⟩
        · obtain ⟨e, he, hid, hp⟩ := hpatch
          rw [hnone e (List.mem_filter.mpr ⟨he, decide_eq_true hid⟩)] at hp
          cases hp
        · obtain ⟨hmem, hid⟩ := List.mem_filter.mp he
          exact absurd ⟨e, hmem, of_decide_eq_true hid, hfresh⟩ hrefresh
        · rw [World.effects, hset, shown_setState_iff hword rfl]
          exact ⟨fun hun _ _ => hun, fun hun => hun hrefresh hpatch⟩
      · rw [patches_of_not_patch (effects_eq_false hpatch)]
        exact iff_of_true rfl fun _ hyes => absurd hyes hpatch
  · rw [hstep]
    refine iff_of_true hw fun hfree _ _ j hj hid => ?_
    rcases hknown with hcached | hgone
    · rw [hcached] at hfree
      cases hfree
    · exact absurd hid (Table.has_eq_false_iff.mp hgone j hj)

/-! ## Whole runs -/

theorem WellFormed.of_step (h : WellFormed w) {a : Activity} (ha : a.Legal w) :
    WellFormed (step w a) := by
  cases a with
  | change action after time => exact h.of_change ha
  | handle => exact h.of_handle
  | look id => exact h.of_look id

theorem agrees_step_iff (h : WellFormed w) (hw : w.Agrees) {a : Activity} (ha : a.Legal w) :
    (step w a).Agrees ↔ a.Harmless w := by
  cases a with
  | change action after time => exact agrees_change_iff h ha hw
  | handle => exact iff_of_true ((agrees_handle w).mpr hw) trivial
  | look id => exact agrees_look_iff h hw id

theorem wellFormed_start (docker : Docker) : WellFormed (World.start docker) :=
  ⟨nofun, nofun⟩

theorem agrees_start (docker : Docker) : (World.start docker).Agrees :=
  agrees_iff.mpr nofun

/-- In a run, the cache agrees with Docker after every step, once the delivered
events are handled, exactly when every step is harmless. -/
theorem cache_agrees_iff (docker : Docker) {as : List Activity}
    (hlegal : ∀ pre a, pre ++ [a] <+: as → a.Legal (pre.foldl step (World.start docker))) :
    (∀ pre, pre <+: as → (pre.foldl step (World.start docker)).Agrees) ↔
      ∀ pre a, pre ++ [a] <+: as → a.Harmless (pre.foldl step (World.start docker)) :=
  forall_prefix_iff (I := WellFormed) (P := World.Agrees)
    (C := fun w a => Activity.Harmless w a) (Q := fun w a => Activity.Legal w a)
    (fun _ _ h hw ha => agrees_step_iff h hw ha) (fun _ _ h ha => h.of_step ha)
    hlegal (wellFormed_start docker) (agrees_start docker)

def web : Inspect := { id := "c1", name := "web", state := "running" }

def oneContainer : World := World.start (Table.push .empty web rfl)

def crashLoop : List Activity :=
  [.look "c1", .change .die { web with state := "restarting" } "1970-01-01T00:00:10Z",
    .change .start web "1970-01-01T00:00:11Z", .handle, .handle, .look "c1"]

theorem cache_agrees_crashLoop :
    (∀ pre, pre <+: crashLoop → (pre.foldl step oneContainer).Agrees) ∧
      ((crashLoop.foldl step oneContainer).cache.find? "c1").map Metadata.state
        = some "running" := by
  refine ⟨(cache_agrees_iff _ ?_).mpr ?_, by decide +kernel⟩
  · exact forall_snoc_of_get (Q := fun pre a => Activity.Legal (pre.foldl step oneContainer) a)
      (by decide +kernel)
  · exact forall_snoc_of_get (Q := fun pre a => Activity.Harmless (pre.foldl step oneContainer) a)
      (by decide +kernel)

/-- A container that is paused is shown as unknown, and renamed it keeps its old name,
although every event was handled and none of the steps is unusual. -/
theorem paused_container_shown_unknown :
    let paused := { web with state := "paused" }
    let renamed := { paused with name := "site" }
    let as : List Activity :=
      [.look "c1", .change .pause paused "1970-01-01T00:00:10Z", .handle,
        .change .rename renamed "1970-01-01T00:00:20Z", .handle]
    let w := as.foldl step oneContainer
    (∀ i : Fin as.length, (as.get i).Legal ((as.take i).foldl step oneContainer)) ∧
      w.events = [] ∧ w.docker.rows = [renamed] ∧
      (inspect w.docker w.cache "c1").1.map shown = some ⟨"web", .unknown, false⟩ ∧
      shown renamed = ⟨"site", .paused, false⟩ ∧ ¬w.Agrees := by
  decide +kernel

end Binnacle.Collector
