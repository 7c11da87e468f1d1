import Binnacle.Collector.Coherence

/-!
# What the sampler keeps of containers (`production/sampler.go`)

`collectDocker` asks for the statistics of the running containers and keeps them for the next
rates; the metadata it keeps are dropped when Docker tells that a container is gone. Nothing
drops the statistics.

- `Visited`: what a collection does to the two maps;
- `kept_listed_iff`: after a collection they hold listed containers only, unless a container
  was removed whose statistics had been taken.
-/

namespace Binnacle.Collector

open EventCache Relational Runs

/-- Docker and the cache, and the keys of `previousStats`. -/
structure Sampler where
  world : World
  previousStats : Finset String

/-- Which calls of a collection fail. -/
structure Faults where
  list : Bool
  inspect : String → Bool
  stats : String → Bool

/-- The loop of `collectDocker` (sampler.go:398-470): whether it comes to its end, and the
sampler after it. -/
def Sampler.visit (faults : Faults) : Sampler → List String → Bool × Sampler
  | s, [] => (true, s)
  | s, id :: ids =>
    if s.world.cache.has id = false ∧ faults.inspect id = true then (false, s)
    else
      match (inspect s.world.docker s.world.cache id).1 with
      | none => (false, s)
      | some i =>
        let s := { s with world := step s.world (.look id) }
        if i.state ≠ "running" then s.visit faults ids
        else if faults.stats id then (false, s)
        else Sampler.visit faults { s with previousStats := insert id s.previousStats } ids

/-- `collectDocker` (sampler.go:386-476), which lists every container. -/
def Sampler.collectDocker (s : Sampler) (faults : Faults) : Bool × Sampler :=
  if faults.list then (false, s) else s.visit faults (s.world.docker.rows.map Inspect.id)

inductive SamplerMove where
  /-- Containers change, and events are handled. -/
  | between (a : Activity)
  | collect (faults : Faults)

def Sampler.step (s : Sampler) : SamplerMove → Sampler
  | .between a => { s with world := Collector.step s.world a }
  | .collect faults => (s.collectDocker faults).2

def SamplerMove.Legal (s : Sampler) : SamplerMove → Prop
  | .between a => a.Legal s.world
  | .collect _ => True

def Sampler.Told (s : Sampler) : Prop := ∀ e ∈ s.world.events, (effectOf e).isRemove = false

/-- Both maps hold listed containers only. -/
structure Sampler.Bounded (s : Sampler) : Prop where
  stats : ∀ id ∈ s.previousStats, s.world.docker.has id = true
  metadata : ∀ v ∈ s.world.cache.rows, s.world.docker.has v.id = true

structure Visited (s : Sampler) (ids : List String) (s' : Sampler) : Prop where
  docker : s'.world.docker = s.world.docker
  events : s'.world.events = s.world.events
  wellFormed : WellFormed s.world → WellFormed s'.world
  kept : s.previousStats ⊆ s'.previousStats
  taken : ∀ id ∈ s'.previousStats, id ∈ s.previousStats ∨ id ∈ ids

variable {s s' : Sampler} {ids : List String} {faults : Faults}

theorem Visited.refl (s : Sampler) (ids : List String) : Visited s ids s :=
  ⟨rfl, rfl, fun h => h, subset_rfl, fun _ h => .inl h⟩

theorem Visited.cons {id : String} {previousStats : Finset String}
    (hkept : s.previousStats ⊆ previousStats)
    (htaken : ∀ j ∈ previousStats, j ∈ s.previousStats ∨ j = id)
    (h : Visited ⟨step s.world (.look id), previousStats⟩ ids s') : Visited s (id :: ids) s' where
  docker := h.docker
  events := h.events
  wellFormed hs := h.wellFormed (hs.of_look id)
  kept := hkept.trans h.kept
  taken j hj := by
    rcases h.taken j hj with hj | hj
    · rcases htaken j hj with hj | rfl
      · exact .inl hj
      · exact .inr List.mem_cons_self
    · exact .inr (List.mem_cons_of_mem id hj)

theorem visited (faults : Faults) (s : Sampler) (ids : List String) :
    Visited s ids (s.visit faults ids).2 := by
  induction ids generalizing s with
  | nil => exact .refl s []
  | cons id ids ih =>
    unfold Sampler.visit
    split
    · exact .refl s _
    · split
      · exact .refl s _
      · dsimp only
        split
        · exact .cons subset_rfl (fun _ hj => .inl hj) (ih _)
        · split
          · exact .cons subset_rfl (fun _ hj => .inl hj) (.refl _ ids)
          · refine .cons (Finset.subset_insert id _) (fun j hj => ?_) (ih _)
            exact (Finset.mem_insert.mp hj).symm

theorem collected (s : Sampler) (faults : Faults) :
    Visited s (s.world.docker.rows.map Inspect.id) (s.collectDocker faults).2 := by
  unfold Sampler.collectDocker
  split
  · exact .refl s _
  · exact visited faults s _

theorem wellFormed_step {m : SamplerMove} (h : WellFormed s.world) (hm : m.Legal s) :
    WellFormed (s.step m).world := by
  cases m with
  | between a => exact h.of_step hm
  | collect faults => exact (collected s faults).wellFormed h

/-- In every run, a collection whose removed containers' destroy events were handled leaves
listed containers only in both maps if and only if every container whose statistics were taken
is still there. -/
theorem kept_listed_iff (docker : Docker) (moves : List SamplerMove)
    (hlegal : Along Sampler.step (fun s m => m.Legal s) ⟨World.start docker, ∅⟩ moves)
    (htold : (moves.foldl Sampler.step ⟨World.start docker, ∅⟩).Told) (faults : Faults) :
    let s := moves.foldl Sampler.step ⟨World.start docker, ∅⟩
    (s.collectDocker faults).2.Bounded ↔ ∀ id ∈ s.previousStats, s.world.docker.has id = true := by
  intro s
  have hwell : WellFormed s.world := hlegal.invariant (I := fun s : Sampler => WellFormed s.world)
    (fun s m h hm => wellFormed_step h hm) (wellFormed_start docker)
  have hvisited := collected s faults
  constructor
  · intro h id hid
    exact hvisited.docker ▸ h.stats id (hvisited.kept hid)
  · intro h
    constructor
    · intro id hid
      rw [hvisited.docker]
      rcases hvisited.taken id hid with hid | hid
      · exact h id hid
      · obtain ⟨i, hi, rfl⟩ := List.mem_map.mp hid
        exact Table.has_iff.mpr ⟨i, hi, rfl⟩
    · intro v hv
      by_contra hgone
      -- an event that removes the container would be under way
      obtain ⟨e, he, -, hremove⟩ :=
        (hvisited.wellFormed hwell).cached v hv (Bool.eq_false_iff.mpr hgone)
      rw [htold e (hvisited.events ▸ he)] at hremove
      cases hremove

def noFaults : Faults := ⟨false, fun _ => false, fun _ => false⟩

/-- A container that is sampled twice stays the only one. -/
theorem kept_listed_twice :
    let s := (Sampler.step ⟨oneContainer, ∅⟩ (.collect noFaults))
    s.previousStats = {"c1"} ∧ (s.collectDocker noFaults).2.Bounded := by
  intro s
  have hstats : s.previousStats = {"c1"} := by decide +kernel
  refine ⟨hstats, (kept_listed_iff oneContainer.docker [.collect noFaults]
    ⟨trivial, trivial⟩ nofun noFaults).mpr ?_⟩
  intro id hid
  rw [Finset.mem_singleton.mp (hstats ▸ hid : id ∈ ({"c1"} : Finset String))]
  decide +kernel

/-- A container is sampled and removed, and its events are handled: its statistics stay. -/
theorem removed_container_kept :
    let moves : List SamplerMove := [.collect noFaults,
      .between (.change .destroy web "1970-01-01T00:00:10Z"), .between .handle, .collect noFaults]
    let s := moves.foldl Sampler.step ⟨oneContainer, ∅⟩
    s.world.docker.rows = [] ∧ s.world.events = [] ∧ "c1" ∈ s.previousStats ∧ ¬ s.Bounded := by
  intro moves s
  have hkept : "c1" ∈ s.previousStats := by decide +kernel
  refine ⟨by decide +kernel, by decide +kernel, hkept, fun h => ?_⟩
  have hlisted := h.stats "c1" hkept
  revert hlisted
  decide +kernel

end Binnacle.Collector
