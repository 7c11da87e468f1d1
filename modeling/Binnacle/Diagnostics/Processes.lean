import Binnacle.Text
import Mathlib.Algebra.Ring.Int.Defs
import Mathlib.Algebra.Ring.Nat

/-!
# Process samples (`internal/diagnostics/processes.go`)

`readProcess` takes a process from its files under `/proc`. The command name stands in `stat`
between parentheses, among numbers, and may hold parentheses, blanks and numbers of its own.

- `lastIndex_append`: the last `) ` is the one behind the name;
- `stat_read_back`: a record is read as it was written, whatever the name is.

Texts are lists of characters.
-/

namespace Binnacle.Diagnostics

/-! ## The model of the source -/

def maxProcFileBytes : Nat := 64 * 1024

/-- The lines that `bufio.Scanner` finds. After the last newline there is none. -/
def scanLines (text : List Char) : List (List Char) :=
  let lines := text.splitOn '\n'
  if lines.getLast? = some [] then lines.dropLast else lines

/-- `bufio.dropCR`. -/
def dropCR (line : List Char) : List Char :=
  if line.getLast? = some '\r' then line.dropLast else line

def byteLength (s : List Char) : Nat := (s.map Char.utf8Size).sum

/-- `readBounded` (processes.go:230-246): a buffer holds lines that are shorter than it. -/
def readBounded (file : Option (List Char)) : Option (List Char) :=
  file.bind fun text =>
    if ∀ line ∈ scanLines text, byteLength line < maxProcFileBytes then
      some (((scanLines text).map dropCR).foldl
        (fun b line => if b = [] then line else b ++ '\n' :: line) [])
    else none

/-- `strconv.ParseUint(s, 10, 64)`. It stops at the first character that is no digit, or before
it when the number is too large; an error comes with a value. -/
def parseUint (s : List Char) : Except Nat Nat :=
  let n := Nat.ofDigitChars 10 (s.takeWhile Char.isDigit) 0
  if 2 ^ 64 ≤ n then .error (2 ^ 64 - 1)
  else if s = [] ∨ s.all Char.isDigit = false then .error 0
  else .ok n

def parseBelow (bound : Nat) (s : List Char) : Option Nat :=
  (parseUint s).toOption.filter (· < bound)

/-- `strconv.ParseInt(s, 10, 64)`, without the values of its errors. -/
def parseInt : List Char → Option Int
  | '-' :: s => (parseBelow (2 ^ 63 + 1) s).map fun n => -(n : Int)
  | '+' :: s => (parseBelow (2 ^ 63) s).map Int.ofNat
  | s => (parseBelow (2 ^ 63) s).map Int.ofNat

/-- `strings.LastIndex`, for a text to find that is not empty. -/
def lastIndex (sub : List Char) : List Char → Option Nat
  | [] => none
  | c :: s =>
    match lastIndex sub s with
    | some i => some (i + 1)
    | none => if sub.isPrefixOf (c :: s) then some 0 else none

/-- `containerFromCgroup` (processes.go:265-284). -/
def containerFromCgroup (raw : List Char) : List Char :=
  let candidate (field : List Char) : Option (List Char) :=
    let field := if ".scope".toList.isSuffixOf field then field.take (field.length - 6) else field
    let last := field.drop (field.length - 64)
    if 64 ≤ field.length && last.all (fun c => c.isDigit || c.toLower ∈ "abcdef".toList) then
      some last
    else none
  ((raw.splitOnP (· ∈ "/:\n-".toList)).findSome? candidate).getD []

/-- The user id in the text of `status` (processes.go:181-189). -/
def uidOf (status : List Char) : Nat :=
  match ((status.splitOn '\n').find? fun line => "Uid:".toList.isPrefixOf line).map fields with
  | some (_ :: value :: _) =>
    match parseUint value.toList with
    | .ok n | .error n => n
  | _ => 0

structure ProcFiles where
  stat : Option (List Char)
  cmdline : Option (List Char)
  status : Option (List Char)
  cgroup : Option (List Char)

structure ProcessSample where
  pid : Nat
  command : String
  state : String
  containerID : List Char
  ticks : Nat
  startTicks : Nat
  rssBytes : Int
  uid : Nat

inductive ProcessError where
  | unreadable | malformed | short | counters

/-- The command line, or else the name from `stat` (processes.go:174-179). -/
def commandOf (name : List Char) (cmdline : Option (List Char)) : String :=
  let raw := (readBounded cmdline).getD []
  let value := trimSpace (String.ofList (raw.map fun c => if c = '\x00' then ' ' else c))
  if value ≠ "" then value else trimSpace (String.ofList name)

/-- `readProcess` (processes.go:152-196). Sums and products wrap. -/
def readProcess (pageSize pid : Nat) (files : ProcFiles) : Except ProcessError ProcessSample :=
  match readBounded files.stat with
  | none => .error .unreadable
  | some stat =>
    match stat.findIdx? (· = '('), lastIndex [')', ' '] stat with
    | some open_, some close =>
      if close < open_ then .error .malformed
      else
        let columns := fields (stat.drop (close + 2))
        let column (i : Nat) : List Char := (columns.getD i "").toList
        if columns.length < 22 then .error .short
        else
          match parseUint (column 11), parseUint (column 12), parseUint (column 19),
            parseInt (column 21) with
          | .ok utime, .ok stime, .ok start, some rss => .ok {
              pid
              command := commandOf ((stat.take close).drop (open_ + 1)) files.cmdline
              state := columns.getD 0 ""
              containerID := ((readBounded files.cgroup).map containerFromCgroup).getD []
              ticks := (utime + stime) % 2 ^ 64
              startTicks := start
              rssBytes := (max 0 rss * pageSize).bmod (2 ^ 64)
              uid := ((readBounded files.status).map uidOf).getD 0 }
          | _, _, _, _ => .error .counters
    | _, _ => .error .malformed

/-! ## What the kernel writes -/

def integer : Int → List Char
  | .ofNat n => decimal n
  | .negSucc n => '-' :: decimal (n + 1)

/-- The columns of `stat`; behind `rss` there may be more. -/
structure ProcessFields where
  pid : Nat
  name : List Char
  state : Char
  (ppid pgrp session tty tpgid flags minflt cminflt majflt cmajflt : Int)
  (utime stime : Nat)
  (cutime cstime priority nice threads itrealvalue : Int)
  (start vsize : Nat)
  rss : Int
  more : List Int

def ProcessFields.columns (r : ProcessFields) : List (List Char) :=
  [r.state] :: ([r.ppid, r.pgrp, r.session, r.tty, r.tpgid, r.flags, r.minflt, r.cminflt, r.majflt,
    r.cmajflt, r.utime, r.stime, r.cutime, r.cstime, r.priority, r.nice, r.threads, r.itrealvalue,
    r.start, r.vsize, r.rss] ++ r.more).map integer

def ProcessFields.line (r : ProcessFields) : List Char :=
  decimal r.pid ++ [' ', '('] ++ r.name ++ ')' :: ' ' :: [' '].intercalate r.columns

structure ProcessRecord (pageSize : Nat) extends ProcessFields where
  name_line : '\n' ∉ name
  state_shown : isSpace state = false ∧ state ≠ ')'
  line_fits : byteLength toProcessFields.line < maxProcFileBytes
  ticks_fit : utime + stime < 2 ^ 64
  start_fits : start < 2 ^ 64
  rss_fits : -2 ^ 63 ≤ rss ∧ rss < 2 ^ 63 ∧ max 0 rss * pageSize < 2 ^ 63

/-! ## Numbers -/

theorem parseUint_decimal {n : Nat} (h : n < 2 ^ 64) : parseUint (decimal n) = .ok n := by
  have hdigits : ∀ c ∈ decimal n, c.isDigit = true := fun c hc =>
    Nat.isDigit_of_mem_toDigits (by decide) (by decide) hc
  have hvalue : Nat.ofDigitChars 10 (decimal n) 0 = n := Nat.ofDigitChars_ten_toDigits
  have hne : decimal n ≠ [] := Nat.toDigits_ne_nil
  simp only [parseUint, List.takeWhile_eq_self_iff.mpr hdigits, hvalue]
  rw [if_neg (by omega), if_neg]
  simpa [hne] using hdigits

theorem parseBelow_decimal {n bound : Nat} (h : n < bound) (hbound : bound ≤ 2 ^ 64) :
    parseBelow bound (decimal n) = some n := by
  rw [parseBelow, parseUint_decimal (by omega)]
  exact Option.filter_some_pos (decide_eq_true h)

theorem parseInt_integer {z : Int} (hlow : -2 ^ 63 ≤ z) (hhigh : z < 2 ^ 63) :
    parseInt (integer z) = some z := by
  cases z with
  | ofNat n =>
    have hn : n < 2 ^ 63 := by
      rw [Int.ofNat_eq_natCast] at hhigh
      omega
    have hsign : ∀ c ∈ decimal n, c ≠ '-' ∧ c ≠ '+' := by
      intro c hc
      have hdigit := digit_of_mem hc
      constructor <;> rintro rfl <;> exact absurd hdigit (by decide)
    show parseInt (decimal n) = some (Int.ofNat n)
    unfold parseInt
    split
    · next hs => exact absurd rfl (hsign '-' (hs ▸ List.mem_cons_self)).1
    · next hs => exact absurd rfl (hsign '+' (hs ▸ List.mem_cons_self)).2
    · rw [parseBelow_decimal hn (by decide)]
      rfl
  | negSucc n =>
    rw [integer, parseInt, parseBelow_decimal (by omega) (by decide)]
    rfl

/-! ## Columns -/

/-- A text without blanks that cannot be taken for the end of the name. -/
def Column (w : List Char) : Prop := w ≠ [] ∧ ∀ c ∈ w, isSpace c = false ∧ c ≠ ')'

theorem column_integer (z : Int) : Column (integer z) := by
  have hdecimal : ∀ n, Column (decimal n) := by
    refine fun n => ⟨Nat.toDigits_ne_nil, fun c hc => ?_⟩
    obtain ⟨hlow, hhigh⟩ := digit_of_mem hc
    refine ⟨isSpace_eq_false ⟨hlow, by omega⟩, ?_⟩
    rintro rfl
    exact absurd hlow (by decide)
  cases z with
  | ofNat n => exact hdecimal n
  | negSucc n =>
    refine ⟨List.cons_ne_nil _ _, List.forall_mem_cons.mpr ⟨by decide, (hdecimal (n + 1)).2⟩⟩

theorem intercalate_columns {columns : List (List Char)} (h : ∀ w ∈ columns, Column w) :
    fields ([' '].intercalate columns) = columns.map String.ofList ∧
      ∀ c ∈ [' '].intercalate columns, c = ' ' ∨ isSpace c = false ∧ c ≠ ')' := by
  induction columns with
  | nil => exact ⟨rfl, nofun⟩
  | cons w columns ih =>
    obtain ⟨⟨hne, hplain⟩, hrest⟩ := List.forall_mem_cons.mp h
    have hspace : ∀ c ∈ w, isSpace c = false := fun c hc => (hplain c hc).1
    cases columns with
    | nil =>
      have hone : [' '].intercalate [w] = w := by simp [List.intercalate]
      rw [hone, fields, List.splitOnP_eq_singleton hspace]
      exact ⟨by simp [hne], fun c hc => .inr (hplain c hc)⟩
    | cons v columns =>
      obtain ⟨hfields, hchars⟩ := ih hrest
      have hmore : [' '].intercalate (w :: v :: columns) =
          w ++ ' ' :: [' '].intercalate (v :: columns) := by simp [List.intercalate]
      rw [hmore]
      constructor
      · unfold fields at hfields ⊢
        rw [List.splitOnP_append_cons_of_forall_mem hspace ' ' (by decide),
          List.filter_cons_of_pos (by simpa using hne), List.map_cons, hfields]
        rfl
      · intro c hc
        simp only [List.mem_append, List.mem_cons] at hc
        rcases hc with hc | rfl | hc
        · exact .inr (hplain c hc)
        · exact .inl rfl
        · exact hchars c hc

/-! ## The line -/

/-- The last `) ` is the one behind which no parenthesis is closed. -/
theorem lastIndex_append (a : List Char) {b : List Char} (h : ')' ∉ b) :
    lastIndex [')', ' '] (a ++ ')' :: ' ' :: b) = some a.length := by
  have hnone : ∀ {s}, ')' ∉ s → lastIndex [')', ' '] s = none := by
    intro s hs
    induction s with
    | nil => rfl
    | cons c s ih =>
      obtain ⟨hc, hs⟩ := List.ne_and_not_mem_of_not_mem_cons hs
      rw [lastIndex, ih hs]
      simp [List.isPrefixOf, hc]
  induction a with
  | nil =>
    rw [List.nil_append, lastIndex, hnone (List.not_mem_cons_of_ne_of_not_mem (by decide) h)]
    simp [List.isPrefixOf]
  | cons c a ih =>
    rw [List.cons_append, lastIndex, ih]
    rfl

theorem readBounded_line {line : List Char} (hline : '\n' ∉ line)
    (hlast : line.getLast? ≠ some '\r') (hfits : byteLength line < maxProcFileBytes) :
    readBounded (some (line ++ ['\n'])) = some line := by
  have hsplit : (line ++ ['\n']).splitOn '\n' = [line, []] := by
    refine List.splitOnP_append_cons_of_forall_mem (fun c hc => ?_) '\n' (by decide) []
    rw [beq_eq_false_iff_ne]
    rintro rfl
    exact hline hc
  simp [readBounded, scanLines, hsplit, hfits, dropCR, hlast]

section Record

variable {pageSize : Nat} (r : ProcessRecord pageSize)

theorem column_columns : ∀ w ∈ r.columns, Column w := by
  refine List.forall_mem_cons.mpr ⟨⟨List.cons_ne_nil _ _, ?_⟩, fun w hw => ?_⟩
  · exact List.forall_mem_singleton.mpr r.state_shown
  · obtain ⟨z, -, rfl⟩ := List.mem_map.mp hw
    exact column_integer z

theorem mem_columns : ∀ c ∈ [' '].intercalate r.columns, c ≠ '\n' ∧ c ≠ '\r' ∧ c ≠ ')' := by
  intro c hc
  rcases (intercalate_columns (column_columns r)).2 c hc with rfl | ⟨hspace, hne⟩
  · decide
  · refine ⟨?_, ?_, hne⟩ <;> rintro rfl <;> cases hspace

theorem mem_pid : ∀ c ∈ decimal r.pid, c ≠ '\n' ∧ c ≠ '(' := by
  intro c hc
  have hdigit := digit_of_mem hc
  constructor <;> rintro rfl <;> exact absurd hdigit (by decide)

theorem readBounded_stat : readBounded (some (r.line ++ ['\n'])) = some r.line := by
  refine readBounded_line ?_ ?_ r.line_fits
  · intro hmem
    simp only [ProcessFields.line, List.mem_append, List.mem_cons] at hmem
    rcases hmem with ((h | h) | h) | h | h | h
    · exact (mem_pid r _ h).1 rfl
    · simp at h
    · exact r.name_line h
    · cases h
    · cases h
    · exact (mem_columns r _ h).1 rfl
  · intro hr
    rw [ProcessFields.line, List.append_cons,
      List.getLast?_append_of_ne_nil _ (List.cons_ne_nil _ _)] at hr
    rcases List.mem_cons.mp (List.mem_of_getLast? hr) with h | h
    · cases h
    · exact (mem_columns r _ h).2.1 rfl

theorem findIdx?_line : r.line.findIdx? (· = '(') = some ((decimal r.pid).length + 1) := by
  have hnone : (decimal r.pid).findIdx? (· = '(') = none :=
    List.findIdx?_eq_none_iff.mpr fun c hc => decide_eq_false (mem_pid r c hc).2
  simp [ProcessFields.line, List.findIdx?_append, hnone, List.findIdx?_cons, Nat.add_comm]

/-- **The name of a process does not disturb its record.** Whatever the name is, the line that the
kernel writes is read back. -/
theorem stat_read_back (files : ProcFiles) :
    ∃ sample, readProcess pageSize r.pid
        { files with stat := some (r.line ++ ['\n']) } = .ok sample ∧
      sample.state = String.ofList [r.state] ∧ sample.ticks = r.utime + r.stime ∧
      sample.startTicks = r.start ∧ sample.rssBytes = max 0 r.rss * pageSize ∧
      (files.cmdline = some [] → sample.command = trimSpace (String.ofList r.name)) := by
  have hfields := (intercalate_columns (column_columns r)).1
  have hclose : lastIndex [')', ' '] r.line = some (decimal r.pid ++ [' ', '('] ++ r.name).length :=
    lastIndex_append _ fun hmem => (mem_columns r _ hmem).2.2 rfl
  have hname : (r.line.take (decimal r.pid ++ [' ', '('] ++ r.name).length).drop
      ((decimal r.pid).length + 2) = r.name := by
    rw [ProcessFields.line, List.take_left]
    exact List.drop_left' (by simp)
  have hrest : r.line.drop ((decimal r.pid ++ [' ', '('] ++ r.name).length + 2) =
      [' '].intercalate r.columns := by
    rw [ProcessFields.line, ← List.drop_drop, List.drop_left]
    rfl
  have hcolumn : ∀ i, ((r.columns.map String.ofList).getD i "").toList = r.columns.getD i [] := by
    intro i
    rw [List.getD_eq_getElem?_getD, List.getD_eq_getElem?_getD, List.getElem?_map]
    cases r.columns[i]? with
    | none => rfl
    | some w => exact String.toList_ofList
  have hutime : parseUint (r.columns.getD 11 []) = .ok r.utime :=
    parseUint_decimal (Nat.lt_of_le_of_lt (Nat.le_add_right _ _) r.ticks_fit)
  have hstime : parseUint (r.columns.getD 12 []) = .ok r.stime :=
    parseUint_decimal (Nat.lt_of_le_of_lt (Nat.le_add_left _ _) r.ticks_fit)
  have hstart : parseUint (r.columns.getD 19 []) = .ok r.start := parseUint_decimal r.start_fits
  have hrss : parseInt (r.columns.getD 21 []) = some r.rss :=
    parseInt_integer r.rss_fits.1 r.rss_fits.2.1
  unfold readProcess
  simp only [readBounded_stat, findIdx?_line, hclose, hname, hrest, hfields, hcolumn, hutime,
    hstime, hstart, hrss]
  rw [if_neg (by simp), if_neg (by simp [ProcessFields.columns])]
  refine ⟨_, rfl, rfl, Nat.mod_eq_of_lt r.ticks_fit, rfl, ?_, fun hempty => ?_⟩
  · have hfits := r.rss_fits.2.2
    have hnonneg : 0 ≤ max 0 r.rss * pageSize := Int.mul_nonneg (Int.le_max_left _ _) (by omega)
    exact Int.bmod_eq_of_le_mul_two (by omega) (by omega)
  · dsimp only
    rw [hempty]
    rfl

end Record

def misleadingFields : ProcessFields where
  pid := 7
  name := ") R (1 2".toList
  state := 'S'
  ppid := 1
  pgrp := 7
  session := 7
  tty := 0
  tpgid := -1
  flags := 0
  minflt := 0
  cminflt := 0
  majflt := 0
  cmajflt := 0
  utime := 30
  stime := 12
  cutime := 0
  cstime := 0
  priority := 20
  nice := 0
  threads := 1
  itrealvalue := 0
  start := 900
  vsize := 0
  rss := 5
  more := [0]

theorem misleading_line : byteLength misleadingFields.line < maxProcFileBytes := by decide +kernel

theorem stat_read_back_misleading :
    ∃ sample, readProcess 4096 7 ⟨some (misleadingFields.line ++ ['\n']), some [], none, none⟩
        = .ok sample ∧ sample.state = "S" ∧ sample.ticks = 42 ∧ sample.startTicks = 900 ∧
      sample.rssBytes = 20480 ∧ sample.command = ") R (1 2" := by
  obtain ⟨sample, hread, hstate, hticks, hstart, hrss, hcommand⟩ :=
    @stat_read_back 4096 ⟨misleadingFields, by decide, by decide, misleading_line,
      by decide, by decide, by decide⟩ ⟨none, some [], none, none⟩
  refine ⟨sample, hread, hstate, hticks, hstart, hrss, (hcommand rfl).trans ?_⟩
  decide +kernel

end Binnacle.Diagnostics
