import Mathlib.Data.List.Basic

/-!
# Reading a result set

A query answers with a cursor, and a loop scans its rows one by one. Three things can go
wrong: the query is refused, a row cannot be scanned, or the cursor stops early. The last
one ends the loop like the end of the rows does: only who asks the cursor for its error
afterwards learns of it.

- `fetch_eq_some`: a reader that asks has all rows or fails;
- `fetchUnchecked_eq_some`: one that does not ask has the rows up to the fault;
- `seen_perm_iff`: these are all of them exactly if the cursor did not stop before the end.
-/

namespace Relational

variable {ρ σ : Type}

/-- How reading a result set can fail. -/
inductive Fault where
  /-- The query fails. -/
  | refused
  | unreadable (position : Nat)
  | broken (rows : Nat)

/-- The loop over a cursor: the rows it scanned, and whether the cursor has an error. `none`
if the query or a scan failed. -/
def scan : Option Fault → List ρ → Option (List ρ × Bool)
  | none, rows => some (rows, false)
  | some .refused, _ => none
  | some (.unreadable _), [] => some ([], false)
  | some (.unreadable 0), _ :: _ => none
  | some (.unreadable (n + 1)), r :: rows =>
    (scan (some (.unreadable n)) rows).map fun read => (r :: read.1, read.2)
  | some (.broken 0), _ => some ([], true)
  | some (.broken (_ + 1)), [] => some ([], true)
  | some (.broken (n + 1)), r :: rows =>
    (scan (some (.broken n)) rows).map fun read => (r :: read.1, read.2)

/-- A loop that asks for the error of the cursor. -/
def fetch (fault : Option Fault) (rows : List ρ) : Option (List ρ) :=
  (scan fault rows).bind fun read => if read.2 then none else some read.1

/-- A loop that does not ask. -/
def fetchUnchecked (fault : Option Fault) (rows : List ρ) : Option (List ρ) :=
  (scan fault rows).map Prod.fst

/-- The query and every scan succeed. -/
def Readable (fault : Option Fault) (rows : List ρ) : Prop :=
  fault ≠ some .refused ∧ ∀ n, fault = some (.unreadable n) → rows.length ≤ n

/-- The cursor stops with an error. -/
def Broken (fault : Option Fault) : Prop := ∃ n, fault = some (.broken n)

/-- The cursor stops before the end. -/
def Cut (fault : Option Fault) (rows : List ρ) : Prop :=
  ∃ n, fault = some (.broken n) ∧ n < rows.length

/-- The rows before the cursor stops. -/
def seen : Option Fault → List ρ → List ρ
  | some (.broken n), rows => rows.take n
  | _, rows => rows

variable {fault : Option Fault} {rows : List ρ}

/-- What the loop gives: it fails exactly if the query does or a row cannot be read. -/
theorem scan_eq_some {read : List ρ} {err : Bool} :
    scan fault rows = some (read, err) ↔
      Readable fault rows ∧ seen fault rows = read ∧ (err = true ↔ Broken fault) := by
  -- along the loop; the cases where it ends are read off the definitions
  induction fault, rows using scan.induct generalizing read with
  | case1 rows => simp [scan, Readable, seen, Broken]
  | case2 rows => simp [scan, Readable]
  | case3 n => simp [scan, Readable, seen, Broken]
  | case4 r rows => simp [scan, Readable]
  | case5 n r rows ih =>
    simp only [scan, Option.map_eq_some_iff, Prod.exists, Prod.mk.injEq]
    constructor
    · rintro ⟨found, err, hscan, rfl, rfl⟩
      obtain ⟨hread, hrows, herr⟩ := ih.mp hscan
      exact ⟨by simpa [Readable] using hread, congrArg (r :: ·) hrows, by simpa [Broken] using herr⟩
    · rintro ⟨hread, hrows, herr⟩
      refine ⟨rows, err, ih.mpr ⟨?_, rfl, by simpa [Broken] using herr⟩, hrows, rfl⟩
      simpa [Readable] using hread
  | case6 rows | case7 n => simp [scan, Readable, seen, Broken]
  | case8 n r rows ih =>
    simp only [scan, Option.map_eq_some_iff, Prod.exists, Prod.mk.injEq]
    constructor
    · rintro ⟨found, err, hscan, rfl, rfl⟩
      obtain ⟨-, hrows, herr⟩ := ih.mp hscan
      exact ⟨by simp [Readable], congrArg (r :: ·) hrows, by simpa [Broken] using herr⟩
    · rintro ⟨-, hrows, herr⟩
      refine ⟨rows.take n, err, ih.mpr ⟨?_, rfl, by simpa [Broken] using herr⟩, hrows, rfl⟩
      simp [Readable]

theorem seen_of_not_broken (h : ¬ Broken fault) : seen fault rows = rows := by
  match fault with
  | some (.broken n) => exact absurd ⟨n, rfl⟩ h
  | some .refused => rfl
  | some (.unreadable _) => rfl
  | none => rfl

/-- A reader that asks has all rows. -/
theorem fetch_eq_some {read : List ρ} :
    fetch fault rows = some read ↔ (Readable fault rows ∧ ¬ Broken fault) ∧ read = rows := by
  simp only [fetch, Option.bind_eq_some_iff, Prod.exists]
  constructor
  · rintro ⟨found, err, hscan, hask⟩
    obtain ⟨hread, hrows, herr⟩ := scan_eq_some.mp hscan
    cases err with
    | true => cases hask
    | false =>
      have hno : ¬ Broken fault := fun hb => Bool.false_ne_true (herr.mpr hb)
      cases hask
      exact ⟨⟨hread, hno⟩, hrows.symm.trans (seen_of_not_broken hno)⟩
  · rintro ⟨⟨hread, hno⟩, rfl⟩
    have herr : false = true ↔ Broken fault := iff_of_false Bool.false_ne_true hno
    exact ⟨read, false, scan_eq_some.mpr ⟨hread, seen_of_not_broken hno, herr⟩, rfl⟩

/-- A reader that does not ask has the rows before the cursor stopped. -/
theorem fetchUnchecked_eq_some {read : List ρ} :
    fetchUnchecked fault rows = some read ↔ Readable fault rows ∧ read = seen fault rows := by
  classical
  simp only [fetchUnchecked, Option.map_eq_some_iff, Prod.exists]
  constructor
  · rintro ⟨found, err, hscan, rfl⟩
    obtain ⟨hread, hrows, -⟩ := scan_eq_some.mp hscan
    exact ⟨hread, hrows.symm⟩
  · rintro ⟨hread, rfl⟩
    exact ⟨_, decide (Broken fault), scan_eq_some.mpr ⟨hread, rfl, decide_eq_true_iff⟩, rfl⟩

/-- The rows before the cursor stopped are all of them unless it stopped early. -/
theorem seen_perm_iff : (seen fault rows).Perm rows ↔ ¬ Cut fault rows := by
  constructor
  · rintro hperm ⟨n, rfl, hn⟩
    have hlen := hperm.length_eq
    simp only [seen, List.length_take] at hlen
    omega
  · intro hcut
    by_cases hb : Broken fault
    · obtain ⟨n, rfl⟩ := hb
      have hn : rows.length ≤ n := Nat.le_of_not_lt fun h => hcut ⟨n, rfl, h⟩
      rw [seen, List.take_of_length_le hn]
    · rw [seen_of_not_broken hb]

/-- A loop of readers, each of which fails or gives what `g` says. -/
theorem mapM_eq_some {f : ρ → Option σ} {P : ρ → Prop} {g : ρ → σ} {read : List σ}
    (hf : ∀ r ∈ rows, ∀ s, f r = some s ↔ P r ∧ s = g r) :
    rows.mapM f = some read ↔ (∀ r ∈ rows, P r) ∧ read = rows.map g := by
  induction rows generalizing read with
  | nil => simp [eq_comm]
  | cons r rows ih =>
    obtain ⟨hfirst, hrest⟩ := List.forall_mem_cons.mp hf
    rw [List.mapM_cons]
    constructor
    · intro h
      obtain ⟨first, hread, h⟩ := Option.bind_eq_some_iff.mp h
      obtain ⟨rest, hreads, h⟩ := Option.bind_eq_some_iff.mp h
      obtain ⟨hr, rfl⟩ := (hfirst first).mp hread
      obtain ⟨hrows, rfl⟩ := (ih hrest).mp hreads
      cases h
      exact ⟨List.forall_mem_cons.mpr ⟨hr, hrows⟩, rfl⟩
    · rintro ⟨hall, rfl⟩
      obtain ⟨hr, hrows⟩ := List.forall_mem_cons.mp hall
      rw [(hfirst (g r)).mpr ⟨hr, rfl⟩, (ih hrest).mpr ⟨hrows, rfl⟩]
      rfl

end Relational
