import Binnacle.Collector.Filesystems
import Binnacle.Text

/-!
# The two mount tables (`production/sampler.go`, `collector/host/filesystem.go`)

`collectFilesystems` reads `self/mountinfo` and, if it cannot, `mounts`. `ParseMounts` takes the
first three columns of either. The kernel writes a mount in both files, with other columns and
with blanks in octal.

- `mem_mounts_mountinfo`: from `mountinfo` the numbers of a mount are taken for its names;
- `mount_tables_agree_iff`: the two files give the mounts of no table that has any.
-/

namespace Binnacle.Collector.Host

/-- What `ParseMounts` lists for the text of a file (filesystem.go:10-11). -/
def mountsOf (text : List Char) (dataPath : String) : List Mount :=
  parseMounts ((text.splitOn '\n').map fields) dataPath

/-! ## What the kernel writes -/

structure MountEntry where
  id : Nat
  parent : Nat
  major : Nat
  minor : Nat
  root : String
  source : String
  target : String
  fsType : String
  options : String
  optional : List String
  superOptions : String
  absolute : target.toList.head? = some '/'

/-- Blanks and backslashes are written in octal. -/
def escape (s : String) : List Char :=
  s.toList.flatMap fun c =>
    if c ∈ [' ', '\t', '\n', '\\', '#'] then
      '\\' :: [c.toNat / 64, c.toNat / 8 % 8, c.toNat % 8].map Nat.digitChar
    else [c]

/-- The columns of `mountinfo`. -/
def MountEntry.mountinfoColumns (e : MountEntry) : List (List Char) :=
  [decimal e.id, decimal e.parent, decimal e.major ++ ':' :: decimal e.minor, escape e.root,
    escape e.target, escape e.options] ++ e.optional.map escape ++
    [['-'], escape e.fsType, escape e.source, escape e.superOptions]

/-- The columns of `mounts`. -/
def MountEntry.mountsColumns (e : MountEntry) : List (List Char) :=
  [escape e.source, escape e.target, escape e.fsType, escape e.options, ['0'], ['0']]

def render (columns : MountEntry → List (List Char)) (table : List MountEntry) : List Char :=
  table.flatMap fun e => [' '].intercalate (columns e) ++ ['\n']

def MountEntry.mount (e : MountEntry) : Mount := ⟨e.source, e.target, e.fsType⟩

def listed (table : List MountEntry) (dataPath : String) : List Mount :=
  (table.map MountEntry.mount).filter fun m =>
    m.target = "/" || m.target = dataPath || !pseudo m.fsType

/-! ## Reading `mountinfo` -/

theorem splitOn_head {w : List Char} (hw : '\n' ∉ w) (rest : List Char) :
    ∃ tail others, (w ++ rest).splitOn '\n' = (w ++ tail) :: others := by
  induction w with
  | nil => exact ⟨_, _, (List.cons_head_tail (List.splitOnP_ne_nil (· == '\n') rest)).symm⟩
  | cons x w ih =>
    obtain ⟨hx, hw⟩ := List.ne_and_not_mem_of_not_mem_cons hw
    obtain ⟨tail, others, hsplit⟩ := ih hw
    refine ⟨tail, others, ?_⟩
    rw [List.cons_append, List.splitOn, List.splitOnP_cons_eq_if_modifyHead, ← List.splitOn,
      if_neg (by simpa using hx.symm), hsplit]
    rfl

theorem pseudo_eq_false {s : String} {c : Char} {cs : List Char} (hs : s.toList = c :: cs)
    (hc : c.toNat ≤ 57) : pseudo s = false := by
  have hother : ∀ (t : String) {d : Char} {ds : List Char}, t.toList = d :: ds → 57 < d.toNat →
      beginsWith s t = false ∧ s ≠ t := by
    intro t d ds ht hd
    have hne : d ≠ c := by
      rintro rfl
      omega
    refine ⟨by simp [beginsWith, hs, ht, List.isPrefixOf, hne], ?_⟩
    rintro rfl
    exact hne (List.cons.inj (ht.symm.trans hs)).1
  simp [pseudo, (hother "proc" rfl (by decide)).1, (hother "sysfs" rfl (by decide)).1,
    (hother "cgroup" rfl (by decide)).1, (hother "tmpfs" rfl (by decide)).2,
    (hother "overlay" rfl (by decide)).2]

theorem mem_mountsOf {a b c : List Char} (ha : a ≠ []) (hb : b ≠ []) (hc : c ≠ [])
    (hchars : ∀ x ∈ a ++ b ++ c, 48 ≤ x.toNat ∧ x.toNat ≤ 58)
    (hpseudo : pseudo (String.ofList c) = false) (rest : List Char) (dataPath : String) :
    ⟨String.ofList a, String.ofList b, String.ofList c⟩ ∈
      mountsOf (a ++ ' ' :: (b ++ ' ' :: (c ++ ' ' :: rest))) dataPath := by
  have hline : '\n' ∉ a ++ ' ' :: (b ++ ' ' :: (c ++ [' '])) := by
    intro hmem
    exact absurd (hchars '\n' (by simpa using hmem)).1 (by decide)
  have hsplit : ∀ {w more : List Char}, (∀ x ∈ w, x ∈ a ++ b ++ c) →
      (w ++ ' ' :: more).splitOnP isSpace = w :: more.splitOnP isSpace := fun hw =>
    List.splitOnP_append_cons_of_forall_mem (fun x hx => isSpace_eq_false (hchars x (hw x hx)))
      ' ' (by decide) _
  obtain ⟨tail, others, hlines⟩ := splitOn_head hline rest
  simp only [List.append_assoc, List.cons_append, List.nil_append] at hlines
  unfold mountsOf
  rw [hlines]
  refine List.mem_filterMap.mpr ⟨_, List.mem_cons_self, ?_⟩
  unfold fields
  rw [hsplit fun x hx => by simp [hx], hsplit fun x hx => by simp [hx],
    hsplit fun x hx => by simp [hx]]
  simp [parseMount, ha, hb, hc, hpseudo]

theorem mem_mounts_mountinfo (e : MountEntry) (es : List MountEntry) (dataPath : String) :
    ⟨String.ofList (decimal e.id), String.ofList (decimal e.parent),
      String.ofList (decimal e.major ++ ':' :: decimal e.minor)⟩ ∈
        mountsOf (render MountEntry.mountinfoColumns (e :: es)) dataPath := by
  have hdigits : ∀ {n : Nat} {c : Char}, c ∈ decimal n → 48 ≤ c.toNat ∧ c.toNat ≤ 58 := fun h =>
    ⟨(digit_of_mem h).1, Nat.le_succ_of_le (digit_of_mem h).2⟩
  have hne : ∀ n, decimal n ≠ [] := fun n => Nat.toDigits_ne_nil
  obtain ⟨first, rest, hmajor⟩ := List.exists_cons_of_ne_nil (hne e.major)
  have hpseudo : pseudo (String.ofList (decimal e.major ++ ':' :: decimal e.minor)) = false := by
    refine pseudo_eq_false (String.toList_ofList.trans (by rw [hmajor]; rfl)) ?_
    exact (digit_of_mem (hmajor ▸ List.mem_cons_self)).2
  have htext : render MountEntry.mountinfoColumns (e :: es) =
      decimal e.id ++ ' ' :: (decimal e.parent ++ ' ' ::
        (decimal e.major ++ ':' :: decimal e.minor ++ ' ' ::
          ([' '].intercalate (e.mountinfoColumns.drop 3) ++ '\n' ::
            render MountEntry.mountinfoColumns es))) := by
    simp [render, MountEntry.mountinfoColumns, List.intercalate]
  rw [htext]
  refine mem_mountsOf (hne e.id) (hne e.parent) (by simp) (fun c hc => ?_) hpseudo _ dataPath
  simp only [List.mem_append, List.mem_cons] at hc
  rcases hc with (hc | hc) | hc | rfl | hc
  · exact hdigits hc
  · exact hdigits hc
  · exact hdigits hc
  · decide
  · exact hdigits hc

/-- **The two mount tables.** Read from `mountinfo` and from `mounts`, a table gives the mounts it
should exactly if it has none. -/
theorem mount_tables_agree_iff (table : List MountEntry) (dataPath : String) :
    (∀ m, (m ∈ mountsOf (render MountEntry.mountinfoColumns table) dataPath ↔
        m ∈ mountsOf (render MountEntry.mountsColumns table) dataPath) ∧
      (m ∈ mountsOf (render MountEntry.mountinfoColumns table) dataPath ↔
        m ∈ listed table dataPath)) ↔ table = [] := by
  constructor
  · intro h
    cases table with
    | nil => rfl
    | cons e es =>
      have hlisted := (h _).2.mp (mem_mounts_mountinfo e es dataPath)
      obtain ⟨e', -, he'⟩ := List.mem_map.mp (List.mem_of_mem_filter hlisted)
      -- the number of the parent would be an absolute path
      have htarget : e'.target.toList = decimal e.parent :=
        (congrArg (fun m => m.target.toList) he').trans String.toList_ofList
      have hslash : '/' ∈ decimal e.parent := by
        rw [← htarget]
        exact List.mem_of_mem_head? e'.absolute
      exact absurd (digit_of_mem hslash).1 (by decide)
  · rintro rfl m
    exact ⟨Iff.rfl, Iff.rfl⟩

def backupDisk : MountEntry :=
  ⟨36, 35, 8, 1, "/", "/dev/sda1", "/mnt/my disk", "ext4", "rw", [], "rw", rfl⟩

/-- Neither file gives the disk by its names. -/
theorem backup_disk_misread :
    mountsOf (render MountEntry.mountinfoColumns [backupDisk]) "/data" = [⟨"36", "35", "8:1"⟩] ∧
      mountsOf (render MountEntry.mountsColumns [backupDisk]) "/data" =
        [⟨"/dev/sda1", "/mnt/my\\040disk", "ext4"⟩] ∧
      listed [backupDisk] "/data" = [⟨"/dev/sda1", "/mnt/my disk", "ext4"⟩] := by
  decide +kernel

end Binnacle.Collector.Host
