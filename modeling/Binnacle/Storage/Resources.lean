import Binnacle.Storage.Writer

/-!
# Hosts and resources (`internal/storage/hosts.go`, `resources.go`)

Each function is one statement. A resource is found again by its host and
stable key, not by its id.

- `upsertResource_frame`, `upsertHost_frame`: nothing but the own table changes.
-/

namespace Binnacle.Storage

open Relational

/-- `Resource` (resources.go:12-24), as `UpsertResource` takes it. -/
structure Resource where
  id : String
  hostId : String
  stableKey : String
  sourceKind : String
  name : String
  context : String := ""
  category : String
  status : String
  projectName : String := ""
  environmentName : String := ""

/-- `UpsertHost` (hosts.go:20-23); `identity_hash` is unique. -/
def upsertHost (db : Database) (id identity name : String) : Except SqlError Database :=
  if !db.hosts.has id && db.hosts.rows.any (fun h => h.identityHash = identity) then
    .error (.unique "hosts.identity_hash")
  else
    .ok { db with
      hosts := db.hosts.upsert { id, identityHash := identity, name } (fun h => { h with name })
        (fun _ => rfl) }

def resourceRow (r : Resource) (now : Time) : ResourceRow where
  id := r.id
  hostId := r.hostId
  stableKey := r.stableKey
  sourceKind := r.sourceKind
  name := r.name
  context := r.context
  projectName := nullable r.projectName
  environmentName := nullable r.environmentName
  category := r.category
  status := r.status
  archivedAt := none
  firstSeenAt := unixMilli now
  lastSeenAt := unixMilli now

/-- `DO UPDATE SET …` (resources.go:31). -/
def refreshResource (r : Resource) (now : Time) (row : ResourceRow) : ResourceRow :=
  { row with
    name := r.name
    context := r.context
    projectName := nullable r.projectName
    environmentName := nullable r.environmentName
    category := r.category
    status := r.status
    archivedAt := none
    lastSeenAt := unixMilli now }

theorem refreshResource_id (r : Resource) (now : Time) (row : ResourceRow) :
    (refreshResource r now row).id = row.id := rfl

def Resource.matches (r : Resource) (row : ResourceRow) : Bool :=
  row.hostId = r.hostId && row.stableKey = r.stableKey

/-- `UpsertResource` (resources.go:26-33): the conflict on `(host_id, stable_key)`
is handled before the one on `id`. -/
def upsertResource (db : Database) (r : Resource) (now : Time) : Except SqlError Database :=
  if !db.hosts.has r.hostId then
    .error (.foreignKey "resources.host_id")
  else if db.resources.rows.any r.matches then
    .ok { db with
      resources := db.resources.update r.matches (refreshResource r now)
        (refreshResource_id r now) }
  else
    match db.resources.insert (resourceRow r now) with
    | none => .error (.unique "resources.id")
    | some resources => .ok { db with resources }

/-! ## What the statements do -/

theorem upsertHost_frame {db db' : Database} {id identity name : String}
    (h : upsertHost db id identity name = .ok db') : db' = { db with hosts := db'.hosts } := by
  unfold upsertHost at h
  split at h
  · cases h
  · cases h
    rfl

theorem upsertResource_frame {db db' : Database} {r : Resource} {now : Time}
    (h : upsertResource db r now = .ok db') : db' = { db with resources := db'.resources } := by
  unfold upsertResource at h
  split at h
  · cases h
  · split at h
    · cases h
      rfl
    · split at h
      · cases h
      · cases h
        rfl

end Binnacle.Storage
