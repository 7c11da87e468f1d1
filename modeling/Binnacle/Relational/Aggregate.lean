import Binnacle.Relational.Table
import Binnacle.Runs
import Mathlib.Algebra.BigOperators.Group.List.Basic
import Mathlib.Algebra.Field.Rat

/-!
# Windowed aggregates

A raw table of timed samples and a table of their aggregates per group and
bucket, brought up to date by a `GROUP BY` that replaces the rows it selects
while old rows are deleted from both tables.

- `find?_rollup`: what an aggregate row is after the `GROUP BY`;
- `stats_eq_iff`: leaving samples out keeps every aggregate exactly when none
  of them has a reading;
- `right_step_iff`: an aggregate row that covers everything ever written keeps
  doing so over a step exactly when the step is no `GROUP BY` that reaches its
  bucket, or the raw rows of the bucket are all gone, or no deleted one had a
  reading; `right_along_iff` is the same over whole runs.
-/

namespace Relational

universe u v

/-- `AVG`, `MIN`, `MAX` and `COUNT` of a column. -/
structure Stats where
  avg : Option ℚ
  min : Option ℚ
  max : Option ℚ
  count : Nat
  deriving DecidableEq

/-- The aggregates over the non-null values of a column. -/
def Stats.of (values : List ℚ) : Stats where
  avg := if values = [] then none else some (values.sum / values.length)
  min := values.min?
  max := values.max?
  count := values.length

/-- What makes a table of samples a set of series: when a sample was taken, to
which group it belongs and what it reads for each metric. -/
structure Series (S G M : Type) where
  ts : S → Int
  group : S → G
  value : M → S → Option ℚ

/-- The bucket a timestamp falls in; SQL's integer division rounds towards zero. -/
def bucketOf (size ts : Int) : Int := ts.tdiv size * size

/-- A cutoff on a bucket boundary separates whole buckets. -/
theorem lt_cutoff_iff {size ts k : Int} (hsize : 0 < size) (hts : 0 ≤ ts) :
    ts < k * size ↔ bucketOf size ts < k * size := by
  have hdiv : ts.tdiv size = ts / size := Int.tdiv_eq_ediv_of_nonneg hts
  rw [bucketOf, hdiv, Int.mul_lt_mul_right hsize, Int.ediv_lt_iff_lt_mul hsize]

namespace Series

variable {S G M : Type} (D : Series S G M)

/-- The aggregates over some samples, metric by metric. -/
def stats (rows : List S) (m : M) : Stats := Stats.of (rows.filterMap (D.value m))

/-! ## Leaving samples out -/

/-- The readings of fewer samples are the same exactly when what was left out has none. -/
theorem filterMap_eq_iff {f : S → Option ℚ} {l l' : List S} (h : List.Sublist l l')
    (hnodup : l'.Nodup) : l.filterMap f = l'.filterMap f ↔ ∀ s ∈ l', s ∉ l → f s = none := by
  classical
  have hperm : (l ++ l'.filter (· ∉ l)).Perm l' := by
    refine (List.perm_ext_iff_of_nodup ?_ hnodup).mpr fun s => ?_
    · refine (hnodup.sublist h).append (hnodup.filter _) fun s hs hout => ?_
      exact of_decide_eq_true (List.mem_filter.mp hout).2 hs
    · have hsub : s ∈ l → s ∈ l' := fun hs => h.subset hs
      simp only [List.mem_append, List.mem_filter, decide_eq_true_eq]
      tauto
  have hlength := (hperm.filterMap f).length_eq
  rw [List.filterMap_append, List.length_append] at hlength
  calc l.filterMap f = l'.filterMap f
      ↔ (l'.filter (· ∉ l)).filterMap f = [] := by
        refine ⟨fun heq => ?_, fun hnil => ?_⟩
        · rw [heq] at hlength
          exact List.length_eq_zero_iff.mp (by omega)
        · rw [hnil] at hlength
          exact (h.filterMap f).eq_of_length hlength
    _ ↔ ∀ s ∈ l', s ∉ l → f s = none := by simp

/-- Aggregates over fewer samples are the same exactly when no sample left out
has a reading. -/
theorem stats_eq_iff {l l' : List S} (h : List.Sublist l l') (hnodup : l'.Nodup) :
    D.stats l = D.stats l' ↔ ∀ s ∈ l', s ∉ l → ∀ m, D.value m s = none := by
  constructor
  · intro heq s hs hsl m
    have hcount : (D.stats l m).count = (D.stats l' m).count := by rw [heq]
    exact (filterMap_eq_iff h hnodup).mp ((h.filterMap _).eq_of_length hcount) s hs hsl
  · intro hnone
    funext m
    rw [stats, stats, (filterMap_eq_iff h hnodup).mpr fun s hs hsl => hnone s hs hsl m]

/-! ## The `GROUP BY` -/

variable [DecidableEq G]

/-- The group and bucket of a sample. -/
def place (size : Int) (s : S) : G × Int := (D.group s, bucketOf size (D.ts s))

/-- The samples of one group and bucket. -/
def bucket (size : Int) (p : G × Int) (rows : List S) : List S :=
  rows.filter fun s => D.place size s = p

/-- `WHERE ts < cutoff`. -/
def before (cutoff : Int) (rows : List S) : List S := rows.filter fun s => D.ts s < cutoff

theorem mem_bucket {size : Int} {p : G × Int} {rows : List S} {s : S} :
    s ∈ D.bucket size p rows ↔ s ∈ rows ∧ D.place size s = p := by
  rw [bucket, List.mem_filter, decide_eq_true_eq]

/-- A cutoff on a boundary selects the samples of a bucket or none of them. -/
theorem bucket_before {size : Int} {p : G × Int} {rows : List S} (hsize : 0 < size)
    (hnonneg : ∀ s ∈ D.bucket size p rows, 0 ≤ D.ts s) (k : Int) :
    D.bucket size p (D.before (k * size) rows)
      = if p.2 < k * size then D.bucket size p rows else [] := by
  have hcut : ∀ s ∈ D.bucket size p rows, (D.ts s < k * size ↔ p.2 < k * size) := by
    intro s hs
    obtain ⟨-, rfl⟩ := D.mem_bucket.mp hs
    exact lt_cutoff_iff hsize (hnonneg s hs)
  have hcomm : D.bucket size p (D.before (k * size) rows)
      = D.before (k * size) (D.bucket size p rows) := by
    rw [bucket, before, bucket, before, List.filter_filter, List.filter_filter]
    exact List.filter_congr fun s _ => Bool.and_comm _ _
  rw [hcomm, before]
  split
  · next hlt => exact List.filter_eq_self.mpr fun s hs => by simpa using (hcut s hs).mpr hlt
  · next hge =>
    exact List.filter_eq_nil_iff.mpr fun s hs => by simpa using fun h => hge ((hcut s hs).mp h)

variable {R κ : Type} {key : R → κ} [DecidableEq κ]

/-- `INSERT OR REPLACE INTO … SELECT … WHERE ts < cutoff GROUP BY group, bucket`. -/
def rollup (mk : G × Int → (M → Stats) → R) (size cutoff : Int) (raw : List S)
    (t : Table key) : Table key :=
  (((D.before cutoff raw).map (D.place size)).dedup).foldl
    (fun t p => t.insertOrReplace (mk p (D.stats (D.bucket size p (D.before cutoff raw))))) t

/-- The `GROUP BY` replaces the aggregates of the buckets it finds samples of. -/
theorem find?_rollup {mk : G × Int → (M → Stats) → R} {at_ : G × Int → κ}
    (hat : Function.Injective at_) (hmk : ∀ p st, key (mk p st) = at_ p)
    (size cutoff : Int) (raw : List S) (t : Table key) (p : G × Int) :
    (D.rollup mk size cutoff raw t).find? (at_ p)
      = if D.bucket size p (D.before cutoff raw) = [] then t.find? (at_ p)
        else some (mk p (D.stats (D.bucket size p (D.before cutoff raw)))) := by
  rw [rollup, Table.find?_foldl_insertOrReplace hat (fun p => hmk p _)]
  have hmem : p ∈ ((D.before cutoff raw).map (D.place size)).dedup ↔
      D.bucket size p (D.before cutoff raw) ≠ [] := by
    rw [List.mem_dedup, List.mem_map, bucket, ne_eq, List.filter_eq_nil_iff]
    push Not
    simp
  by_cases hb : D.bucket size p (D.before cutoff raw) = []
  · rw [if_pos hb, if_neg (fun h => hmem.mp h hb)]
  · rw [if_neg hb, if_pos (hmem.mpr hb)]

/-! ## Rollups and retention over whole runs -/

variable {κS : Type} {sampleKey : S → κS} [DecidableEq κS]

/-- The raw table, the aggregate table, and every sample written so far (the
last one for each key). -/
structure Tables (sampleKey : S → κS) (key : R → κ) where
  raw : Table sampleKey
  rolled : Table key
  written : Table sampleKey

/-- What happens to the tables. -/
inductive Action (S R : Type) where
  | write (samples : List S)
  | rollup (cutoff : Int)
  | expireRaw (victim : S → Bool)
  | expireRolled (victim : R → Bool)
  | other

/-- `INSERT OR REPLACE` of samples, in order. -/
def store (t : Table sampleKey) (samples : List S) : Table sampleKey :=
  samples.foldl (fun t s => t.insertOrReplace s) t

/-- One action. -/
def step (mk : G × Int → (M → Stats) → R) (size : Int) (t : Tables sampleKey key) :
    Action S R → Tables sampleKey key
  | .write samples =>
    { t with raw := store t.raw samples, written := store t.written samples }
  | .rollup cutoff => { t with rolled := D.rollup mk size cutoff t.raw.rows t.rolled }
  | .expireRaw victim => { t with raw := t.raw.delete victim }
  | .expireRolled victim => { t with rolled := t.rolled.delete victim }
  | .other => t

/-- The aggregate row of a group and bucket covers every sample ever written in it. -/
def Right (mk : G × Int → (M → Stats) → R) (at_ : G × Int → κ) (size : Int) (p : G × Int)
    (t : Tables sampleKey key) : Prop :=
  t.rolled.find? (at_ p) = some (mk p (D.stats (D.bucket size p t.written.rows)))

/-- The raw samples of a group and bucket are all gone, or no deleted one had a
reading. -/
def Intact (size : Int) (p : G × Int) (t : Tables sampleKey key) : Prop :=
  D.bucket size p t.raw.rows = [] ∨
    ∀ s ∈ D.bucket size p t.written.rows, s ∉ t.raw.rows → ∀ m, D.value m s = none

/-- An action that leaves the bucket alone: it writes no sample there, does not
delete the aggregate row, and cuts on a bucket boundary. -/
def Quiet (at_ : G × Int → κ) (size : Int) (p : G × Int) (t : Tables sampleKey key) :
    Action S R → Prop
  | .write samples => ∀ s ∈ samples, D.place size s ≠ p
  | .rollup cutoff => ∃ k, cutoff = k * size
  | .expireRaw _ => True
  | .expireRolled victim => ∀ r ∈ t.rolled.rows, key r = at_ p → victim r = false
  | .other => True

/-- What every action keeps: raw samples were written, and those of the bucket
are not older than the epoch. -/
structure Kept (size : Int) (p : G × Int) (t : Tables sampleKey key) : Prop where
  sublist : List.Sublist t.raw.rows t.written.rows
  nonneg : ∀ s ∈ D.bucket size p t.written.rows, 0 ≤ D.ts s

theorem store_sublist {t t' : Table sampleKey} (h : List.Sublist t.rows t'.rows)
    (samples : List S) : List.Sublist (store t samples).rows (store t' samples).rows := by
  induction samples generalizing t t' with
  | nil => exact h
  | cons s samples ih => exact ih ((h.filter _).append (List.Sublist.refl [s]))

theorem mem_store {t : Table sampleKey} {samples : List S} {s : S}
    (h : s ∈ (store t samples).rows) : s ∈ t.rows ∨ s ∈ samples := by
  induction samples generalizing t with
  | nil => exact .inl h
  | cons a samples ih =>
    rcases ih h with h | h
    · rcases Table.mem_insertOrReplace.mp h with ⟨h, -⟩ | rfl
      · exact .inl h
      · exact .inr List.mem_cons_self
    · exact .inr (List.mem_cons_of_mem a h)

/-- Raw samples stay among those written. -/
theorem step_sublist (mk : G × Int → (M → Stats) → R) (size : Int) {t : Tables sampleKey key}
    (h : List.Sublist t.raw.rows t.written.rows) (a : Action S R) :
    List.Sublist (D.step mk size t a).raw.rows (D.step mk size t a).written.rows := by
  cases a with
  | write samples => exact store_sublist h samples
  | expireRaw victim => exact List.filter_sublist.trans h
  | rollup _ | expireRolled _ | other => exact h

section Run

variable {mk : G × Int → (M → Stats) → R} {at_ : G × Int → κ} {size : Int} {p : G × Int}
  {t : Tables sampleKey key}

omit [DecidableEq κ] [DecidableEq κS] in
theorem Kept.raw_nonneg (h : D.Kept size p t) : ∀ s ∈ D.bucket size p t.raw.rows, 0 ≤ D.ts s :=
  fun s hs => h.nonneg s ((h.sublist.filter _).subset hs)

omit [DecidableEq κ] [DecidableEq κS] in
/-- The raw samples of a bucket give the aggregates over everything written in it
exactly when no deleted one had a reading. -/
theorem stats_bucket_iff (h : D.Kept size p t) :
    D.stats (D.bucket size p t.raw.rows) = D.stats (D.bucket size p t.written.rows) ↔
      ∀ s ∈ D.bucket size p t.written.rows, s ∉ t.raw.rows → ∀ m, D.value m s = none := by
  have hsub : List.Sublist (D.bucket size p t.raw.rows) (D.bucket size p t.written.rows) :=
    h.sublist.filter _
  rw [stats_eq_iff D hsub ((List.Nodup.of_map _ t.written.nodup).filter _)]
  refine forall₂_congr fun s hs => ?_
  have : s ∈ D.bucket size p t.raw.rows ↔ s ∈ t.raw.rows := by
    rw [bucket, List.mem_filter, and_iff_left (List.mem_filter.mp hs).2]
  rw [this]

/-- A `GROUP BY` that reaches a bucket none of whose samples was deleted makes its
aggregate row cover everything written. -/
theorem right_rollup (hsize : 0 < size) (hat : Function.Injective at_)
    (hmk : ∀ p st, key (mk p st) = at_ p) (h : D.Kept size p t)
    (hne : D.bucket size p t.written.rows ≠ [])
    (hall : ∀ s ∈ D.bucket size p t.written.rows, s ∈ t.raw.rows) {k : Int}
    (hlt : p.2 < k * size) :
    D.Right mk at_ size p (D.step mk size t (.rollup (k * size))) := by
  have hraw : D.bucket size p t.raw.rows ≠ [] := by
    obtain ⟨s, hs⟩ := List.exists_mem_of_ne_nil _ hne
    exact List.ne_nil_of_mem (List.mem_filter.mpr ⟨hall s hs, (List.mem_filter.mp hs).2⟩)
  have hrow := D.find?_rollup hat hmk size (k * size) t.raw.rows t.rolled p
  rw [bucket_before D hsize (h.raw_nonneg D) k, if_pos hlt, if_neg hraw,
    (stats_bucket_iff D h).mpr fun s hs hsr => absurd (hall s hs) hsr] at hrow
  exact hrow

section Keyed

variable (hkey : ∀ s s', sampleKey s = sampleKey s' → D.place size s = D.place size s')

include hkey

/-- Writing elsewhere leaves the samples of a bucket as they are. -/
theorem bucket_store {samples : List S}
    (hq : ∀ s ∈ samples, D.place size s ≠ p) (t : Table sampleKey) :
    D.bucket size p (store t samples).rows = D.bucket size p t.rows := by
  induction samples generalizing t with
  | nil => rfl
  | cons a samples ih =>
    have ha := hq a List.mem_cons_self
    rw [store, List.foldl_cons]
    refine (ih (fun s hs => hq s (List.mem_cons_of_mem a hs)) _).trans ?_
    simp only [bucket, Table.insertOrReplace, Table.rows_push, Table.delete, List.filter_append,
      List.filter_filter]
    rw [List.filter_singleton, decide_eq_false ha, cond_false, List.append_nil]
    refine List.filter_congr fun s _ => ?_
    by_cases hs : D.place size s = p
    · have : sampleKey s ≠ sampleKey a := fun h => ha ((hkey s a h) ▸ hs)
      simp [hs, this]
    · simp [hs]

theorem Kept.of_step (h : D.Kept size p t) {a : Action S R} (ha : D.Quiet at_ size p t a) :
    D.Kept size p (D.step mk size t a) := by
  refine ⟨step_sublist D mk size h.sublist a, ?_⟩
  cases a with
  | write samples =>
    rw [step, bucket_store D hkey ha]
    exact h.nonneg
  | _ => exact h.nonneg

variable (hsize : 0 < size) (hat : Function.Injective at_) (hmk : ∀ p st, key (mk p st) = at_ p)
  (hmk_inj : ∀ p st st', mk p st = mk p st' → st = st')

include hsize hat hmk hmk_inj

/-- What one action does to an aggregate row that covers everything written. -/
theorem right_step_iff (h : D.Kept size p t) (hr : D.Right mk at_ size p t) {a : Action S R}
    (ha : D.Quiet at_ size p t a) :
    D.Right mk at_ size p (D.step mk size t a) ↔
      ∀ cutoff, a = .rollup cutoff → p.2 < cutoff → D.Intact size p t := by
  cases a with
  | write samples =>
    refine iff_of_true ?_ nofun
    rw [Right, step, bucket_store D hkey ha]
    exact hr
  | expireRaw victim | other => exact iff_of_true hr nofun
  | expireRolled victim =>
    refine iff_of_true ?_ nofun
    obtain ⟨hmem, hk⟩ := Table.find?_eq_some_iff.mp hr
    exact Table.find?_eq_some_iff.mpr ⟨Table.mem_delete.mpr ⟨hmem, ha _ hmem hk⟩, hk⟩
  | rollup cutoff =>
    obtain ⟨k, rfl⟩ := ha
    have hrow := D.find?_rollup hat hmk size (k * size) t.raw.rows t.rolled p
    rw [bucket_before D hsize (h.raw_nonneg D) k] at hrow
    by_cases hlt : p.2 < k * size
    · rw [if_pos hlt] at hrow
      have hiff : D.Right mk at_ size p (D.step mk size t (.rollup (k * size))) ↔
          D.Intact size p t := by
        unfold Right step Intact
        simp only [hrow]
        split
        · next hnil => exact iff_of_true hr (.inl hnil)
        · next hne =>
          rw [Option.some.injEq, or_iff_right hne, ← stats_bucket_iff D h]
          exact ⟨hmk_inj _ _ _, fun h => by rw [h]⟩
      rw [hiff]
      exact ⟨fun hi _ _ _ => hi, fun hall => hall _ rfl hlt⟩
    · refine iff_of_true ?_ fun c hc hlt' => absurd ?_ hlt
      · rw [if_neg hlt, if_pos rfl] at hrow
        unfold Right step
        simp only [hrow]
        exact hr
      · cases hc
        exact hlt'

/-- Along a run of any system whose steps act on the tables as `act` says, an
aggregate row that covers everything written keeps doing so exactly when every
`GROUP BY` that reaches the bucket finds it intact. -/
theorem right_along_iff {W : Type u} {A : Type v} {next : W → A → W}
    {view : W → Tables sampleKey key} {act : W → A → Action S R}
    (hview : ∀ w a, view (next w a) = D.step mk size (view w) (act w a)) {w : W}
    (h : D.Kept size p (view w)) (hr : D.Right mk at_ size p (view w)) {as : List A}
    (has : ∀ pre a, pre ++ [a] <+: as →
      D.Quiet at_ size p (view (pre.foldl next w)) (act (pre.foldl next w) a)) :
    (∀ pre, pre <+: as → D.Right mk at_ size p (view (pre.foldl next w))) ↔
      ∀ pre a, pre ++ [a] <+: as → ∀ cutoff, act (pre.foldl next w) a = .rollup cutoff →
        p.2 < cutoff → D.Intact size p (view (pre.foldl next w)) :=
  Runs.forall_prefix_iff (P := fun w => D.Right mk at_ size p (view w))
    (I := fun w => D.Kept size p (view w))
    (C := fun w a => ∀ cutoff, act w a = .rollup cutoff → p.2 < cutoff → D.Intact size p (view w))
    (Q := fun w a => D.Quiet at_ size p (view w) (act w a))
    (fun w a hI hP hQ => by
      rw [hview]
      exact right_step_iff D hkey hsize hat hmk hmk_inj hI hP hQ)
    (fun w a hI hQ => by
      rw [hview]
      exact hI.of_step D hkey hQ) has h hr

end Keyed

end Run

end Series

end Relational
