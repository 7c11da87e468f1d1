import Binnacle.EventCache
import Binnacle.Metrics.Types
import Binnacle.Relational.Table

/-!
# The container cache (`internal/collector/docker/cache.go`, `production/sampler.go`)

What the sampler knows of the containers: it inspects a container when it meets
it for the first time and keeps the answer, and Docker's events change or refresh
what it keeps.

- `find?_handleDockerEvent`: what an event does to the cached metadata of each
  container, as an `EventCache.Effect`.
-/

namespace Binnacle.Collector

open EventCache Relational Metrics

/-- `dockerapi.Mount`. -/
structure Mount where
  source : String
  destination : String
  type : String
  deriving DecidableEq

/-- `dockerapi.Inspect`; the sampler does not read `TTY`. -/
structure Inspect where
  id : String
  name : String
  image : String := ""
  created : String := ""
  state : String
  health : String := ""
  labels : List (String × String) := []
  environment : List (String × String) := []
  networks : List String := []
  mounts : List Mount := []
  deriving DecidableEq

/-- `dockerapi.Event`; its time is a text. -/
structure Event where
  id : String
  action : String
  time : String

/-- `Metadata` (cache.go:10-16). -/
structure Metadata where
  id : String
  name : String
  image : String
  created : String
  state : String
  health : String
  labels : List (String × String)
  environment : List (String × String)
  networks : List String
  mounts : List Mount

/-- `dockercollector.Metadata{ID: inspect.ID, …}` (sampler.go:175, 489). -/
def metadataOf (i : Inspect) : Metadata where
  id := i.id
  name := i.name
  image := i.image
  created := i.created
  state := i.state
  health := i.health
  labels := i.labels
  environment := i.environment
  networks := i.networks
  mounts := i.mounts

/-- `dockerapi.Inspect{ID: v.ID, …}` (sampler.go:481). -/
def inspectOf (v : Metadata) : Inspect where
  id := v.id
  name := v.name
  image := v.image
  created := v.created
  state := v.state
  health := v.health
  labels := v.labels
  environment := v.environment
  networks := v.networks
  mounts := v.mounts

/-- The containers Docker has. `Inspect` answers for exactly these. -/
abbrev Docker := Table Inspect.id

/-- `Cache` (cache.go:17-20); `Get` is `find?` and `Set` is `insertOrReplace`. -/
abbrev Cache := Table Metadata.id

/-- `Remove` (cache.go:52). -/
def Cache.remove (c : Cache) (id : String) : Cache := c.delete fun v => v.id = id

/-- `Set` for a value that was found. -/
def Cache.setFound (c : Cache) : Option Metadata → Cache
  | some v => c.insertOrReplace v
  | none => c

/-- `v.State = state`. -/
def setState (state : String) (v : Metadata) : Metadata := { v with state }

/-- `handleDockerEvent` (sampler.go:160-178). -/
def handleDockerEvent (docker : Docker) (cache : Cache) (event : Event) : Cache :=
  match event.action.toLower with
  | "destroy" => Cache.remove cache event.id
  | "die" | "stop" | "pause" =>
    Cache.setFound cache ((cache.find? event.id).map (setState event.action.toLower))
  | "start" | "unpause" | "restart" | "health_status" =>
    Cache.setFound cache ((docker.find? event.id).map metadataOf)
  | _ => cache

/-- `inspect` (sampler.go:478-492): the answer, and the cache after it. -/
def inspect (docker : Docker) (cache : Cache) (id : String) : Option Inspect × Cache :=
  match cache.find? id with
  | some v => (some (inspectOf v), cache)
  | none =>
    match docker.find? id with
    | some inspect => (some inspect, cache.insertOrReplace (metadataOf inspect))
    | none => (none, cache)

/-- `containerStatus` (sampler.go:494-511). -/
def containerStatus (state health : String) : ResourceStatus :=
  match state with
  | "running" =>
    if health = "unhealthy" then .down
    else if health = "starting" then .unknown
    else .healthy
  | "paused" => .paused
  | "exited" | "dead" => .down
  | _ => .unknown

/-! ## Events as effects on one container -/

def effectOf (event : Event) : Effect Metadata :=
  match event.action.toLower with
  | "destroy" => .remove
  | "die" | "stop" | "pause" => .patch (setState event.action.toLower)
  | "start" | "unpause" | "restart" | "health_status" => .refresh
  | _ => .ignore

def truth (docker : Docker) (id : String) : Option Metadata := (docker.find? id).map metadataOf

theorem Cache.find?_setFound (cache : Cache) {found : Option Metadata} {id : String}
    (hid : ∀ v, found = some v → v.id = id) (id' : String) :
    (Cache.setFound cache found).find? id'
      = if id = id' then found.or (cache.find? id') else cache.find? id' := by
  cases found with
  | none => exact (ite_self _).symm
  | some v =>
    rw [← hid v rfl]
    exact Table.find?_insertOrReplace cache v id'

theorem find?_refreshed (docker : Docker) (cache : Cache) (id id' : String) :
    (Cache.setFound cache ((docker.find? id).map metadataOf)).find? id'
      = if id = id' then Effect.refresh.apply (truth docker id') (cache.find? id')
        else cache.find? id' := by
  have hid : ∀ v, (docker.find? id).map metadataOf = some v → v.id = id := by
    intro v hv
    obtain ⟨i, hi, rfl⟩ := Option.map_eq_some_iff.mp hv
    exact (Table.find?_eq_some_iff.mp hi).2
  rw [Cache.find?_setFound cache hid]
  split
  · next h =>
    subst h
    rfl
  · rfl

theorem find?_patched (docker : Docker) (cache : Cache) (state id id' : String) :
    (Cache.setFound cache ((cache.find? id).map (setState state))).find? id'
      = if id = id' then (Effect.patch (setState state)).apply (truth docker id') (cache.find? id')
        else cache.find? id' := by
  have hid : ∀ v, (cache.find? id).map (setState state) = some v → v.id = id := by
    intro v hv
    obtain ⟨u, hu, rfl⟩ := Option.map_eq_some_iff.mp hv
    exact (Table.find?_eq_some_iff.mp hu).2
  rw [Cache.find?_setFound cache hid]
  split
  · next h =>
    subst h
    cases hc : cache.find? id with
    | none => rfl
    | some v => rfl
  · rfl

theorem find?_handleDockerEvent (docker : Docker) (cache : Cache) (event : Event) (id : String) :
    (handleDockerEvent docker cache event).find? id
      = if event.id = id then (effectOf event).apply (truth docker id) (cache.find? id)
        else cache.find? id := by
  unfold handleDockerEvent effectOf
  split
  · rw [Cache.remove, Table.find?_delete_key]
    simp only [eq_comm, Effect.apply]
  all_goals first
    | exact find?_patched docker cache _ event.id id
    | exact find?_refreshed docker cache event.id id
    | exact (ite_self _).symm

end Binnacle.Collector
