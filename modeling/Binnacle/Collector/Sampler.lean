import Binnacle.Collector.Docker

/-!
# Docker's messages as events (`internal/events/docker.go`, `production/sampler.go`)

Between two collections the sampler turns each message of Docker into an event
and keeps the last 128 of them; the next collection publishes them with its
snapshot.

- `normalizeDocker_anonymous`: an event knows its container, never the resource
  the container belongs to;
- `container_events_iff`: the kind of object a message is about is lost on the way.
-/

namespace Binnacle.Collector

def eventKind (action : String) : String :=
  if "health_status".toList.isPrefixOf action.toList then "container_health_status_change"
  else
    match action with
    | "start" => "container_start"
    | "stop" => "container_stop"
    | "die" => "container_die"
    | "destroy" => "container_destroy"
    | "create" => "container_create"
    | "rename" => "container_rename"
    | "oom" => "container_oom"
    | "restart" => "container_restart"
    | _ => ""

/-- The seconds of the years 0 to 9999, which RFC 3339 can write. -/
def FourDigitYear (s : Int) : Prop := -62167219200 ≤ s ∧ s ≤ 253402300799

instance (s : Int) : Decidable (FourDigitYear s) := inferInstanceAs (Decidable (_ ∧ _))

/-- What the code calls of `strings` and `time`. -/
structure EventText where
  toLower : String → String
  /-- `time.Unix(s, 0).UTC().Format(time.RFC3339)`. -/
  format : Int → String
  /-- `time.Parse(time.RFC3339, text)`. -/
  parse : String → Option Time
  /-- A year of more digits, or before year 0, is written and not read back. -/
  parse_format : ∀ s, parse (format s) = if FourDigitYear s then some (ofUnix s) else none

/-- The event of an action that has a kind (docker.go:20-24). -/
def eventOf (lib : EventText) (e : Event) (oomKilled : Bool) : Metrics.Event :=
  let action := lib.toLower e.action
  let kind := if oomKilled || action = "oom" then "container_oom" else eventKind action
  { at_ := (lib.parse e.time).getD zeroTime
    type := kind
    message := kind ++ " for container"
    containerInstance := e.id
    details := "\x7b\"action\":\"" ++ e.action ++ "\"\x7d"
    correlationKey := e.id }

/-- `NormalizeDocker` (docker.go:11-25). -/
def normalizeDocker (lib : EventText) (e : Event) (oomKilled : Bool) : Option Metrics.Event :=
  if eventKind (lib.toLower e.action) = "" then none else some (eventOf lib e oomKilled)

variable {lib : EventText}

/-- The pending events after a message; the oldest of 128 makes room (sampler.go:110-116). -/
def accept (lib : EventText) (pending : List Metrics.Event) (event : Event) :
    List Metrics.Event :=
  match normalizeDocker lib event false with
  | none => pending
  | some e => (if pending.length = 128 then pending.drop 1 else pending) ++ [e]

theorem normalizeDocker_anonymous {event : Event} {oomKilled : Bool} {e : Metrics.Event}
    (h : normalizeDocker lib event oomKilled = some e) : e.id = 0 ∧ e.resourceId = "" := by
  unfold normalizeDocker at h
  split at h
  · cases h
  · cases h
    exact ⟨rfl, rfl⟩

theorem mem_accept {pending : List Metrics.Event} {event : Event} {e : Metrics.Event}
    (h : e ∈ accept lib pending event) :
    e ∈ pending ∨ normalizeDocker lib event false = some e := by
  unfold accept at h
  split at h
  · exact .inl h
  · next n hn =>
    rcases List.mem_append.mp h with h | h
    · split at h
      · exact .inl (List.mem_of_mem_drop h)
      · exact .inl h
    · rw [List.mem_singleton] at h
      exact .inr (h ▸ hn)

/-! ## Messages about other objects -/

/-- A message of Docker; `type` is the kind of object it is about. -/
structure Message where
  type : String
  actorID : String
  action : String
  time : Int

/-- What `Events` hands on of a message (client.go:299-301). -/
def Message.event (lib : EventText) (m : Message) : Event :=
  ⟨m.actorID, m.action, lib.format m.time⟩

/-- The events published for the messages between two collections (sampler.go:98-121). -/
def published (lib : EventText) (messages : List Message) : List Metrics.Event :=
  (messages.map (Message.event lib)).foldl (accept lib) []

def capped {α : Type} (cap : Nat) (l : List α) : List α := l.drop (l.length - cap)

def containerMessages (lib : EventText) (messages : List Message) : List Message :=
  messages.filter fun m => m.type = "container" && eventKind (lib.toLower m.action) ≠ ""

/-- The event says what happened to which container, and when. -/
structure Describes (lib : EventText) (m : Message) (e : Metrics.Event) : Prop where
  type : e.type = eventKind (lib.toLower m.action)
  container : e.containerInstance = m.actorID
  at_ : e.at_ = ofUnix m.time

/-- The events describe the container messages one by one, up to the cap, and no other message
makes one. -/
structure OfContainers (lib : EventText) (messages : List Message) : Prop where
  events : List.Forall₂ (Describes lib) (capped 128 (containerMessages lib messages))
    (published lib messages)
  others : ∀ m ∈ messages, m.type ≠ "container" → normalizeDocker lib (m.event lib) false = none

theorem capped_snoc {α : Type} {cap : Nat} (hcap : 0 < cap) (l : List α) (a : α) :
    capped cap (l ++ [a]) =
      (if (capped cap l).length = cap then (capped cap l).drop 1 else capped cap l) ++ [a] := by
  have hlength : (capped cap l).length = min l.length cap := by
    rw [capped, List.length_drop]
    omega
  have hshift : capped cap (l ++ [a]) = l.drop (l.length + 1 - cap) ++ [a] := by
    rw [capped, List.length_append, List.length_singleton, List.drop_append_of_le_length]
    omega
  rw [hshift, hlength]
  split
  · rw [capped, List.drop_drop, show l.length - cap + 1 = l.length + 1 - cap by omega]
  · rw [capped, show l.length - cap = l.length + 1 - cap by omega]

theorem capped_map {α β : Type} (cap : Nat) (f : α → β) (l : List α) :
    capped cap (l.map f) = (capped cap l).map f := by
  rw [capped, capped, List.length_map, List.map_drop]

theorem published_eq (messages : List Message) :
    published lib messages =
      capped 128 (messages.filterMap fun m => normalizeDocker lib (m.event lib) false) := by
  induction messages using List.reverseRecOn with
  | nil => simp [published, capped]
  | append_singleton messages m ih =>
    unfold published at ih ⊢
    rw [List.map_append, List.foldl_append, ih, List.filterMap_append]
    show accept lib _ (m.event lib) = _
    unfold accept
    cases hmade : normalizeDocker lib (m.event lib) false with
    | none => simp [hmade]
    | some e => simp [hmade, capped_snoc]

theorem describes_eventOf_iff (m : Message) :
    Describes lib m (eventOf lib (m.event lib) false) ↔ FourDigitYear m.time := by
  have htime : (eventOf lib (m.event lib) false).at_ =
      if FourDigitYear m.time then ofUnix m.time else zeroTime := by
    show (lib.parse (lib.format m.time)).getD zeroTime = _
    rw [lib.parse_format]
    split <;> rfl
  constructor
  · intro hd
    have hat := hd.at_
    rw [htime] at hat
    split at hat
    · assumption
    · -- the zero time is of year 1
      have hyear := congrArg unix hat
      rw [unix_ofUnix] at hyear
      rw [← hyear]
      decide
  · intro hyear
    refine ⟨?_, rfl, htime.trans (if_pos hyear)⟩
    show (if false || lib.toLower m.action = "oom" then "container_oom"
      else eventKind (lib.toLower m.action)) = _
    split
    · next hoom =>
      have hoom : lib.toLower m.action = "oom" := by simpa using hoom
      rw [hoom]
      decide
    · rfl

/-- In every sequence of messages, the events of each cycle are those of its container messages,
with their ids and times, if and only if no message about another object has a recognised action
and the last 128 about containers are of years that RFC 3339 can write. -/
theorem container_events_iff (lib : EventText) (cycles : List (List Message)) :
    (∀ messages ∈ cycles, OfContainers lib messages) ↔
      ∀ messages ∈ cycles,
        (∀ m ∈ messages, m.type ≠ "container" → eventKind (lib.toLower m.action) = "") ∧
        ∀ m ∈ capped 128 (containerMessages lib messages), FourDigitYear m.time := by
  refine forall_congr' fun messages => forall_congr' fun _ => ?_
  have hothers : (∀ m ∈ messages, m.type ≠ "container" →
      normalizeDocker lib (m.event lib) false = none) ↔
      ∀ m ∈ messages, m.type ≠ "container" → eventKind (lib.toLower m.action) = "" := by
    refine forall_congr' fun m => forall_congr' fun _ => forall_congr' fun _ => ?_
    by_cases hkind : eventKind (lib.toLower m.action) = ""
    · exact iff_of_true (if_pos hkind) hkind
    · refine iff_of_false (fun hnone => ?_) hkind
      cases (if_neg hkind).symm.trans hnone
  have hevents (h : ∀ m ∈ messages, m.type ≠ "container" → eventKind (lib.toLower m.action) = "") :
      List.Forall₂ (Describes lib) (capped 128 (containerMessages lib messages))
        (published lib messages) ↔
      ∀ m ∈ capped 128 (containerMessages lib messages), FourDigitYear m.time := by
    have hmade : messages.filterMap (fun m => normalizeDocker lib (m.event lib) false) =
        (containerMessages lib messages).map fun m => eventOf lib (m.event lib) false := by
      rw [containerMessages, ← List.filterMap_eq_map, List.filterMap_filter]
      refine List.filterMap_congr fun m hm => ?_
      rw [normalizeDocker]
      by_cases hkind : eventKind (lib.toLower m.action) = ""
      · simp [hkind, Message.event]
      · have htype : m.type = "container" := by
          by_contra hother
          exact hkind (h m hm hother)
        simp [hkind, htype, Message.event]
    rw [published_eq, hmade, capped_map, List.forall₂_map_right_iff, List.forall₂_same]
    exact forall_congr' fun m => forall_congr' fun _ => describes_eventOf_iff m
  constructor
  · intro h
    have hkinds := hothers.mp h.others
    exact ⟨hkinds, (hevents hkinds).mp h.events⟩
  · rintro ⟨hkinds, hyears⟩
    exact ⟨(hevents hkinds).mpr hyears, hothers.mpr hkinds⟩

def tally : EventText where
  toLower := String.toLower
  format s := String.ofList (List.replicate s.toNat '+' ++ List.replicate (-s).toNat '-')
  parse text :=
    let s : Int := text.toList.count '+' - text.toList.count '-'
    if FourDigitYear s then some (ofUnix s) else none
  parse_format s := by
    have hcount : max s 0 - max (-s) 0 = s := by omega
    simp [List.count_replicate, hcount]

/-- A network is created: the event says that a container was, under the network's id. -/
theorem network_published_as_container :
    let created : Message := ⟨"network", "net1", "create", 10⟩
    (published tally [created]).map (fun e => (e.type, e.containerInstance, e.at_)) =
        [("container_create", "net1", 10 * second)] ∧ ¬ OfContainers tally [created] := by
  intro created
  refine ⟨by decide +kernel, fun h => ?_⟩
  have hnone := h.others created (List.mem_singleton_self _) (by decide)
  revert hnone
  decide +kernel

end Binnacle.Collector
