import Binnacle.Metrics.Engine

/-!
# Filesystem collection (`production/sampler.go`, `collector/host/filesystem.go`)

One collection lists the mounts of the host, asks each for its statistics and publishes what it
found. The mount table is given by the fields of its lines, and the system call by the answer it
gives for each mount point.

- `mem_collectFilesystems`: each observation is of a mount whose statistics were answered;
- `inodesUsedPercent_collected`: the numbers of inodes are observed, their share is not.
-/

namespace Binnacle.Collector.Host

open Metrics

/-- `Mount` (filesystem.go:6). -/
structure Mount where
  source : String
  target : String
  fsType : String
  deriving DecidableEq

/-- `unix.Statfs_t`, as far as it is read. -/
structure Statfs where
  blocks : UInt64
  bsize : Int64
  bfree : UInt64
  bavail : UInt64
  files : UInt64
  ffree : UInt64

/-- `strings.HasPrefix`. -/
def beginsWith (s start : String) : Bool := start.toList.isPrefixOf s.toList

/-- Filesystems that are left out unless the data lies on them (filesystem.go:16). -/
def pseudo (fsType : String) : Bool :=
  beginsWith fsType "proc" || beginsWith fsType "sysfs" || beginsWith fsType "cgroup" ||
    fsType = "tmpfs" || fsType = "overlay"

/-- One line of the mount table, split into its fields (filesystem.go:11-19). -/
def parseMount (dataPath : String) : List String → Option Mount
  | source :: target :: fsType :: _ =>
    if target = "/" || target = dataPath || !pseudo fsType then some ⟨source, target, fsType⟩
    else none
  | _ => none

/-- `ParseMounts` (filesystem.go:8-22). -/
def parseMounts (lines : List (List String)) (dataPath : String) : List Mount :=
  lines.filterMap (parseMount dataPath)

/-- The key of a mount (sampler.go:342). -/
def Mount.key (m : Mount) : String := m.source ++ "|" ++ m.target

/-- What is observed of one mount (sampler.go:351-370). Products and differences are those of
`int64` and `uint64`. -/
def observeMount (now : Time) (m : Mount) (fs : Statfs) : FilesystemObservation :=
  let total := fs.blocks.toInt64 * fs.bsize
  let available := fs.bavail.toInt64 * fs.bsize
  let used := total - fs.bfree.toInt64 * fs.bsize
  { at_ := now
    mountKey := m.key
    mountPoint := m.target
    fsType := m.fsType
    totalBytes := some total.toInt
    usedBytes := some used.toInt
    availableBytes := some available.toInt
    usedPercent := if 0 < total.toInt then some (used.toInt * 100 / total.toInt) else none
    inodesTotal := if 0 < fs.files then some fs.files.toInt64.toInt else none
    inodesUsed := if 0 < fs.files then some (fs.files - fs.ffree).toInt64.toInt else none }

/-- The loop of `collectFilesystems` (sampler.go:341-371): a mount whose key was seen is skipped,
and so is one whose statistics are refused. -/
def observeMounts (now : Time) (statfs : String → Option Statfs) (seen : List String) :
    List Mount → List FilesystemObservation
  | [] => []
  | m :: mounts =>
    if m.key ∈ seen then observeMounts now statfs seen mounts
    else
      let rest := observeMounts now statfs (m.key :: seen) mounts
      match statfs m.target with
      | none => rest
      | some fs => observeMount now m fs :: rest

/-- What a collection finds: the first of the two mount tables that can be read, and the answers
of the system call. -/
structure Collection where
  now : Time
  lines : Option (List (List String))
  dataDir : String
  statfs : String → Option Statfs

def Collection.mounts (c : Collection) : List Mount :=
  match c.lines with
  | none => []
  | some lines => parseMounts lines c.dataDir

/-- `collectFilesystems` (sampler.go:330-373); an unreadable mount table leaves nothing. -/
def Collection.collectFilesystems (c : Collection) : List FilesystemObservation :=
  observeMounts c.now c.statfs [] c.mounts

/-- The engine after a collection: nothing is published if nothing was found
(sampler.go:128-130). -/
def Collection.publish (c : Collection) (e : Engine) : Engine :=
  if c.collectFilesystems = [] then e else e.publishFilesystems c.collectFilesystems

variable {f : FilesystemObservation}

theorem mem_observeMounts {now : Time} {statfs : String → Option Statfs} {seen : List String}
    {mounts : List Mount} (h : f ∈ observeMounts now statfs seen mounts) :
    ∃ m ∈ mounts, ∃ fs, statfs m.target = some fs ∧ f = observeMount now m fs := by
  induction mounts generalizing seen with
  | nil => cases h
  | cons m mounts ih =>
    have hrest : ∀ {seen}, f ∈ observeMounts now statfs seen mounts →
        ∃ m' ∈ m :: mounts, ∃ fs, statfs m'.target = some fs ∧ f = observeMount now m' fs := by
      intro seen hf
      obtain ⟨m', hm', hfs⟩ := ih hf
      exact ⟨m', List.mem_cons_of_mem m hm', hfs⟩
    unfold observeMounts at h
    split at h
    · exact hrest h
    · simp only at h
      split at h
      · exact hrest h
      · next fs hfs =>
        rcases List.mem_cons.mp h with rfl | h
        · exact ⟨m, List.mem_cons_self, fs, hfs, rfl⟩
        · exact hrest h

theorem mem_collectFilesystems {c : Collection} (h : f ∈ c.collectFilesystems) :
    ∃ m ∈ c.mounts, ∃ fs, c.statfs m.target = some fs ∧ f = observeMount c.now m fs :=
  mem_observeMounts h

theorem inodesUsedPercent_collected {c : Collection} (h : f ∈ c.collectFilesystems) :
    f.inodesUsedPercent = none := by
  obtain ⟨m, -, fs, -, rfl⟩ := mem_collectFilesystems h
  rfl

end Binnacle.Collector.Host
