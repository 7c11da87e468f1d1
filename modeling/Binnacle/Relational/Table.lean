import Mathlib.Data.Finset.Card

/-!
# Keyed tables

A relational table with a primary key, and the statement forms that touch it:

- `Table key`: the rows in rowid order, with the proof that no two rows share
  a key. An invalid table cannot be built, so no later proof re-establishes
  uniqueness.
- `insert` (refused on a duplicate key), `insertOrIgnore`, `insertOrReplace`,
  `upsert`, `update … where`, `delete … where`.
- For each operation, what `find?`, `has` and row membership become: these are
  the rules later proofs use, never the definitions.

`RowOrder` is the order in which an engine yields the rows of a query that
names none: any permutation of the rows, chosen by the engine.
-/

namespace Relational

variable {ρ κ α : Type} {key : ρ → κ}

/-- What stands among rows after one was appended. -/
theorem mem_snoc {rows rows' : List ρ} {r s : ρ} (h : rows' = rows ++ [r]) (hs : s ∈ rows') :
    s ∈ rows ∨ s = r := by
  rw [h, List.mem_append, List.mem_singleton] at hs
  exact hs

/-- A table: rows in rowid order, no two with the same primary key. -/
structure Table {ρ κ : Type} (key : ρ → κ) where
  rows : List ρ
  nodup : (rows.map key).Nodup

namespace Table

/-- The table without rows. -/
def empty : Table key := ⟨[], List.nodup_nil⟩

@[simp] theorem rows_empty : (empty : Table key).rows = [] := rfl

variable {t : Table key} {r s : ρ} {p : ρ → Bool} {f : ρ → ρ}

theorem ext_rows {s : Table key} (h : s.rows = t.rows) : s = t := by
  cases s
  cases t
  cases h
  rfl

/-- Two stored rows with one key are one row. -/
theorem eq_of_key_eq (hr : r ∈ t.rows) (hs : s ∈ t.rows) (h : key r = key s) : r = s :=
  List.inj_on_of_nodup_map t.nodup hr hs h

theorem forall_key_iff {P : ρ → Prop} (hr : r ∈ t.rows) :
    (∀ s ∈ t.rows, key s = key r → P s) ↔ P r :=
  ⟨fun h => h r hr rfl, fun h _ hs hkey => eq_of_key_eq hs hr hkey ▸ h⟩

theorem key_ite (hf : ∀ r, key (f r) = key r) (p : ρ → Bool) (r : ρ) :
    key (if p r then f r else r) = key r := by
  split
  · exact hf r
  · rfl

/-- `DELETE FROM … WHERE p`. -/
def delete (t : Table key) (p : ρ → Bool) : Table key where
  rows := t.rows.filter fun r => !p r
  nodup := t.nodup.sublist (List.filter_sublist.map key)

/-- `UPDATE … SET f WHERE p`, for an update that keeps the primary key. -/
def update (t : Table key) (p : ρ → Bool) (f : ρ → ρ) (hf : ∀ r, key (f r) = key r) :
    Table key where
  rows := t.rows.map fun r => if p r then f r else r
  nodup := by
    have hkeys : (t.rows.map fun r => if p r then f r else r).map key = t.rows.map key := by
      rw [List.map_map]
      exact List.map_congr_left fun r _ => key_ite hf p r
    rw [hkeys]
    exact t.nodup

@[simp] theorem mem_delete : r ∈ (t.delete p).rows ↔ r ∈ t.rows ∧ p r = false := by
  simp [delete]

/-- Without selected rows there is nothing to delete. -/
theorem delete_eq_self (h : t.rows.countP p = 0) : t.delete p = t :=
  ext_rows (List.filter_eq_self.mpr fun r hr => by simpa using List.countP_eq_zero.mp h r hr)

theorem delete_delete (t : Table key) (p : ρ → Bool) : (t.delete p).delete p = t.delete p :=
  ext_rows (by simp [delete, List.filter_filter])

@[simp] theorem rows_update (t : Table key) (p : ρ → Bool) (f : ρ → ρ)
    (hf : ∀ r, key (f r) = key r) :
    (t.update p f hf).rows = t.rows.map fun r => if p r then f r else r := rfl

/-- A column that a statement does not write. -/
theorem map_rows_update {β : Type} (t : Table key) (p : ρ → Bool)
    (hf : ∀ r, key (f r) = key r) {g : ρ → β} (hg : ∀ r, g (f r) = g r) :
    (t.update p f hf).rows.map g = t.rows.map g := by
  rw [rows_update, List.map_map]
  refine List.map_congr_left fun r _ => ?_
  simp only [Function.comp_apply]
  split
  · exact hg r
  · rfl

/-- A row after an `UPDATE` is a row the clause passes over or a rewritten one. -/
theorem mem_update (hf : ∀ r, key (f r) = key r) : r ∈ (t.update p f hf).rows ↔
      (r ∈ t.rows ∧ p r = false) ∨ ∃ s ∈ t.rows, p s = true ∧ r = f s := by
  rw [rows_update, List.mem_map]
  constructor
  · rintro ⟨s, hs, rfl⟩
    cases hp : p s with
    | true => exact .inr ⟨s, hs, hp, if_pos rfl⟩
    | false => exact .inl ⟨hs, hp⟩
  · rintro (⟨hr, hp⟩ | ⟨s, hs, hp, rfl⟩)
    · exact ⟨r, hr, if_neg (by rw [hp]; exact Bool.false_ne_true)⟩
    · exact ⟨s, hs, if_pos hp⟩

/-- An `UPDATE` takes no row away. -/
theorem exists_update (hf : ∀ r, key (f r) = key r) (hr : r ∈ t.rows) :
    ∃ s ∈ (t.update p f hf).rows, key s = key r :=
  ⟨_, List.mem_map_of_mem hr, key_ite hf p r⟩

variable [DecidableEq κ] {k : κ}

/-- Whether a row with primary key `k` is stored. -/
def has (t : Table key) (k : κ) : Bool := t.rows.any fun r => key r = k

/-- The row with primary key `k`. -/
def find? (t : Table key) (k : κ) : Option ρ := t.rows.find? fun r => key r = k

theorem has_iff : t.has k = true ↔ ∃ r ∈ t.rows, key r = k := by
  simp [has]

/-- A key that is still there after a deletion has no deleted row. -/
theorem eq_false_of_has_delete (h : (t.delete p).has (key r) = true) (hr : r ∈ t.rows) :
    p r = false := by
  obtain ⟨s, hs, hk⟩ := has_iff.mp h
  obtain ⟨hs, hps⟩ := mem_delete.mp hs
  rw [← eq_of_key_eq hs hr hk]
  exact hps

theorem has_eq_false_iff : t.has k = false ↔ ∀ r ∈ t.rows, key r ≠ k := by
  simp [has]

theorem not_mem_keys (h : t.has k = false) : k ∉ t.rows.map key := by
  simpa [has] using h

theorem find?_eq_some_iff : t.find? k = some r ↔ r ∈ t.rows ∧ key r = k := by
  constructor
  · intro h
    exact ⟨List.mem_of_find?_eq_some h, by simpa using List.find?_some h⟩
  · rintro ⟨hr, rfl⟩
    cases hf : t.find? (key r) with
    | none =>
      have := List.find?_eq_none.mp hf r hr
      simp at this
    | some s =>
      have hs : key s = key r := by simpa using List.find?_some hf
      rw [eq_of_key_eq (List.mem_of_find?_eq_some hf) hr hs]

theorem find?_eq_none_iff : t.find? k = none ↔ ∀ r ∈ t.rows, key r ≠ k := by
  simp [find?]

theorem find?_eq_none_iff_has : t.find? k = none ↔ t.has k = false := by
  rw [find?_eq_none_iff, has_eq_false_iff]

@[simp] theorem find?_empty (k : κ) : (empty : Table key).find? k = none := rfl

theorem find?_delete_key (t : Table key) (k k' : κ) :
    (t.delete fun r => key r = k).find? k' = if k' = k then none else t.find? k' := by
  split
  · next h =>
    subst h
    simp [find?_eq_none_iff]
  · next h =>
    refine Option.ext fun r => ?_
    simp only [find?_eq_some_iff, mem_delete, decide_eq_false_iff_not]
    constructor
    · rintro ⟨⟨hr, -⟩, hk⟩
      exact ⟨hr, hk⟩
    · rintro ⟨hr, rfl⟩
      exact ⟨⟨hr, h⟩, rfl⟩

/-- Deleting leaves the row of a key, unless it is selected. -/
theorem find?_delete (t : Table key) (p : ρ → Bool) (k : κ) :
    (t.delete p).find? k = (t.find? k).filter fun r => !p r := by
  refine Option.ext fun r => ?_
  simp only [find?_eq_some_iff, mem_delete, Option.filter_eq_some_iff, Bool.not_eq_true']
  exact and_right_comm

/-- The rows of one key are none or one. -/
theorem filter_key (t : Table key) (k : κ) :
    (t.rows.filter fun r => key r = k) = (t.find? k).toList := by
  obtain ⟨rows, hnodup⟩ := t
  show (rows.filter fun r => key r = k) = (rows.find? fun r => key r = k).toList
  induction rows with
  | nil => rfl
  | cons r rows ih =>
    rw [List.map_cons, List.nodup_cons] at hnodup
    by_cases hk : key r = k
    · have hrest : (rows.filter fun s => key s = k) = [] := by
        refine List.filter_eq_nil_iff.mpr fun s hs hsk => hnodup.1 ?_
        rw [hk, ← of_decide_eq_true hsk]
        exact List.mem_map_of_mem hs
      simp [hk, hrest]
    · simpa [hk] using ih hnodup.2

/-! ## Insertion -/

/-- Append a row whose key is free. -/
def push (t : Table key) (r : ρ) (h : t.has (key r) = false) : Table key where
  rows := t.rows ++ [r]
  nodup := by
    rw [List.map_append]
    refine t.nodup.append (List.nodup_singleton _) ?_
    rintro k hk hk'
    rw [List.map_singleton, List.mem_singleton] at hk'
    exact not_mem_keys h (hk' ▸ hk)

/-- `INSERT INTO`: refused when the primary key is taken. -/
def insert (t : Table key) (r : ρ) : Option (Table key) :=
  if h : t.has (key r) = false then some (t.push r h) else none

/-- `INSERT OR IGNORE INTO`: a row whose key is taken is dropped. -/
def insertOrIgnore (t : Table key) (r : ρ) : Table key :=
  if h : t.has (key r) = false then t.push r h else t

theorem insert_of_free (h : t.has (key r) = false) : t.insert r = some (t.push r h) := by
  simp [insert, h]

theorem insert_eq_some {t' : Table key} (h : t.insert r = some t') :
    t.has (key r) = false ∧ t'.rows = t.rows ++ [r] := by
  unfold insert at h
  split at h
  · next hf =>
    cases h
    exact ⟨hf, rfl⟩
  · cases h

@[simp] theorem rows_push (h : t.has (key r) = false) :
    (t.push r h).rows = t.rows ++ [r] := rfl

theorem has_push (h : t.has (key r) = false) (k : κ) :
    (t.push r h).has k = (t.has k || decide (key r = k)) := by
  simp [has, push]

theorem find?_push (h : t.has (key r) = false) (k : κ) :
    (t.push r h).find? k = if key r = k then some r else t.find? k := by
  by_cases hk : key r = k
  · rw [if_pos hk]
    exact find?_eq_some_iff.mpr ⟨by simp, hk⟩
  · rw [if_neg hk]
    simp [find?, push, List.find?_append, hk]

theorem rows_insertOrIgnore (t : Table key) (r : ρ) :
    (t.insertOrIgnore r).rows = if t.has (key r) then t.rows else t.rows ++ [r] := by
  unfold insertOrIgnore
  split
  · next h => simp [h]
  · next h => simp [show t.has (key r) = true by simpa using h]

theorem mem_insertOrIgnore_of_mem (h : s ∈ t.rows) : s ∈ (t.insertOrIgnore r).rows := by
  rw [rows_insertOrIgnore]
  split
  · exact h
  · exact List.mem_append_left _ h

theorem mem_insertOrIgnore (h : s ∈ (t.insertOrIgnore r).rows) : s ∈ t.rows ∨ s = r := by
  rw [rows_insertOrIgnore] at h
  split at h
  · exact .inl h
  · simpa using h

theorem has_insertOrIgnore (t : Table key) (r : ρ) (k : κ) :
    (t.insertOrIgnore r).has k = (t.has k || decide (key r = k)) := by
  unfold insertOrIgnore
  split
  · next h => rw [has_push]
  · next h =>
    by_cases hk : key r = k
    · subst hk
      simp [show t.has (key r) = true by simpa using h]
    · simp [hk]

variable {items : List α}

/-- Repeated `INSERT OR IGNORE`: every row was there or is one of the new ones. -/
theorem mem_foldl_insertOrIgnore {row : α → ρ} :
    ∀ {t : Table key} {r : ρ}, r ∈ (items.foldl (fun t a => t.insertOrIgnore (row a)) t).rows →
      r ∈ t.rows ∨ ∃ a ∈ items, r = row a := by
  induction items with
  | nil => exact fun h => .inl h
  | cons a items ih =>
    intro t r h
    rcases ih h with h | ⟨b, hb, rfl⟩
    · rcases mem_insertOrIgnore h with h | rfl
      · exact .inl h
      · exact .inr ⟨a, List.mem_cons_self, rfl⟩
    · exact .inr ⟨b, List.mem_cons_of_mem a hb, rfl⟩

/-- Repeated `INSERT OR IGNORE`: the keys that are then in use. -/
theorem has_foldl_insertOrIgnore {row : α → ρ} :
    ∀ {t : Table key}, (items.foldl (fun t a => t.insertOrIgnore (row a)) t).has k = true ↔
      t.has k = true ∨ ∃ a ∈ items, key (row a) = k := by
  induction items with
  | nil => simp
  | cons a items ih =>
    intro t
    rw [List.foldl_cons, ih, has_insertOrIgnore, Bool.or_eq_true, decide_eq_true_eq, or_assoc]
    simp

/-- If a table has rows for the names of some items only, and each item has a row
of its own, then no two items share a name: there are not enough rows for that. -/
theorem name_inj_of_own_rows [DecidableEq α] {name : α → κ}
    (hnamed : ∀ r ∈ t.rows, ∃ a ∈ items, name a = key r) {place : α → ρ}
    (hplace : ∀ a ∈ items, place a ∈ t.rows)
    (hinj : ∀ a ∈ items, ∀ b ∈ items, place a = place b → a = b) :
    ∀ a ∈ items, ∀ b ∈ items, name a = name b → a = b := by
  have hkey : Set.InjOn (fun a => key (place a)) (items.toFinset : Set α) := by
    intro a ha b hb hab
    have ha := List.mem_toFinset.mp ha
    have hb := List.mem_toFinset.mp hb
    exact hinj a ha b hb (eq_of_key_eq (hplace a ha) (hplace b hb) hab)
  have hsub : items.toFinset.image (fun a => key (place a)) ⊆ items.toFinset.image name := by
    intro k hk
    obtain ⟨a, ha, rfl⟩ := Finset.mem_image.mp hk
    obtain ⟨b, hb, hname⟩ := hnamed _ (hplace a (List.mem_toFinset.mp ha))
    exact Finset.mem_image.mpr ⟨b, List.mem_toFinset.mpr hb, hname⟩
  have hcard := Finset.card_le_card hsub
  rw [Finset.card_image_of_injOn hkey] at hcard
  have hinjOn : Set.InjOn name (items.toFinset : Set α) :=
    Finset.card_image_iff.mp (Nat.le_antisymm Finset.card_image_le hcard)
  intro a ha b hb hab
  exact hinjOn (List.mem_toFinset.mpr ha) (List.mem_toFinset.mpr hb) hab

/-! ## Lookup after an update, replacement, upsert -/

theorem has_update (t : Table key) (p : ρ → Bool) (f : ρ → ρ)
    (hf : ∀ r, key (f r) = key r) (k : κ) : (t.update p f hf).has k = t.has k := by
  simp only [has, rows_update, List.any_map]
  congr 1
  funext r
  show decide (key (if p r then f r else r) = k) = decide (key r = k)
  rw [key_ite hf p r]

theorem find?_update (t : Table key) (p : ρ → Bool) (f : ρ → ρ)
    (hf : ∀ r, key (f r) = key r) (k : κ) :
    (t.update p f hf).find? k = (t.find? k).map fun r => if p r then f r else r := by
  cases h : t.find? k with
  | none =>
    rw [find?_eq_none_iff_has] at h
    rw [Option.map_none, find?_eq_none_iff_has, has_update, h]
  | some r =>
    obtain ⟨hr, rfl⟩ := find?_eq_some_iff.mp h
    exact find?_eq_some_iff.mpr ⟨List.mem_map.mpr ⟨r, hr, rfl⟩, key_ite hf p r⟩

/-- An `UPDATE` whose clause names a key leaves the rows of other keys. -/
theorem find?_update_of_ne (hf : ∀ r, key (f r) = key r) {k' : κ}
    (hp : ∀ r, p r = true → key r = k) (hk : k' ≠ k) : (t.update p f hf).find? k' = t.find? k' := by
  rw [find?_update]
  cases h : t.find? k' with
  | none => rfl
  | some r =>
    have hr : ¬ p r = true := fun hpr =>
      hk ((find?_eq_some_iff.mp h).2 ▸ hp r hpr)
    simp [hr]

/-- `UPDATE … WHERE key = k`: the row of the key is rewritten, the others stay. -/
theorem mem_update_key (hf : ∀ r, key (f r) = key r) :
    r ∈ (t.update (fun s => key s = k) f hf).rows ↔
      (r ∈ t.rows ∧ key r ≠ k) ∨ ∃ s ∈ t.rows, key s = k ∧ r = f s := by
  rw [mem_update]
  simp only [decide_eq_true_eq, decide_eq_false_iff_not]

/-- The table without its first `n` rows. -/
def dropFirst (t : Table key) (n : Nat) : Table key where
  rows := t.rows.drop n
  nodup := t.nodup.sublist ((List.drop_sublist n t.rows).map key)

/-- Dropping rows leaves the row of a key or takes it. -/
theorem find?_dropFirst (t : Table key) (n : Nat) (k : κ) :
    (t.dropFirst n).find? k = none ∨ (t.dropFirst n).find? k = t.find? k := by
  cases h : (t.dropFirst n).find? k with
  | none => exact .inl rfl
  | some r =>
    obtain ⟨hr, hk⟩ := find?_eq_some_iff.mp h
    exact .inr (find?_eq_some_iff.mpr ⟨List.mem_of_mem_drop hr, hk⟩).symm

/-- `INSERT OR REPLACE INTO`: a stored row with the same key makes way. -/
def insertOrReplace (t : Table key) (r : ρ) : Table key :=
  (t.delete fun s => key s = key r).push r (by simp [has_eq_false_iff])

@[simp] theorem mem_insertOrReplace :
    s ∈ (t.insertOrReplace r).rows ↔ (s ∈ t.rows ∧ key s ≠ key r) ∨ s = r := by
  simp [insertOrReplace, push]

theorem find?_insertOrReplace (t : Table key) (r : ρ) (k : κ) :
    (t.insertOrReplace r).find? k = if key r = k then some r else t.find? k := by
  rw [insertOrReplace, find?_push]
  by_cases hk : key r = k
  · rw [if_pos hk, if_pos hk]
  · rw [if_neg hk, if_neg hk, find?_delete_key, if_neg (Ne.symm hk)]

/-- Replacing rows one by one leaves, at each place written, the row of that place. -/
theorem find?_foldl_insertOrReplace {π : Type} [DecidableEq π] {place : π → κ}
    (hplace : Function.Injective place) {row : π → ρ} (hrow : ∀ p, key (row p) = place p)
    (ps : List π) (t : Table key) (q : π) :
    (ps.foldl (fun t p => t.insertOrReplace (row p)) t).find? (place q)
      = if q ∈ ps then some (row q) else t.find? (place q) := by
  induction ps generalizing t with
  | nil => simp
  | cons p ps ih =>
    rw [List.foldl_cons, ih, find?_insertOrReplace, hrow]
    by_cases hq : q ∈ ps
    · simp [hq]
    · by_cases hqp : q = p
      · simp [hqp]
      · have : place p ≠ place q := fun h => hqp (hplace h).symm
        simp [hq, hqp, this]

/-- `INSERT … ON CONFLICT(key) DO UPDATE SET merge`, for a merge that keeps
the primary key. -/
def upsert (t : Table key) (r : ρ) (merge : ρ → ρ) (hm : ∀ s, key (merge s) = key s) :
    Table key :=
  if h : t.has (key r) = false then t.push r h
  else t.update (fun s => key s = key r) merge hm

theorem find?_upsert (t : Table key) (r : ρ) (merge : ρ → ρ)
    (hm : ∀ s, key (merge s) = key s) (k : κ) :
    (t.upsert r merge hm).find? k
      = if key r = k then some (((t.find? k).map merge).getD r) else t.find? k := by
  unfold upsert
  split
  · next h =>
    rw [find?_push]
    by_cases hk : key r = k
    · subst hk
      simp [find?_eq_none_iff_has.mpr h]
    · simp [hk]
  · next h =>
    rw [find?_update]
    by_cases hk : key r = k
    · subst hk
      cases hf : t.find? (key r) with
      | none => exact absurd (find?_eq_none_iff_has.mp hf) h
      | some s =>
        have hs := (find?_eq_some_iff.mp hf).2
        simp [hs]
    · rw [if_neg hk]
      cases hf : t.find? k with
      | none => rfl
      | some s =>
        have hs := (find?_eq_some_iff.mp hf).2
        have : key s ≠ key r := fun h' => hk (h' ▸ hs)
        simp [this]

/-- After an `INSERT OR IGNORE`, the key holds what it held, and the new row
only if it was free. -/
theorem find?_insertOrIgnore (t : Table key) (r : ρ) (k : κ) :
    (t.insertOrIgnore r).find? k = if key r = k then some ((t.find? k).getD r) else t.find? k := by
  have hmerge : t.insertOrIgnore r = t.upsert r id fun _ => rfl := by
    unfold insertOrIgnore upsert
    split
    · rfl
    · exact ext_rows (by simp)
  rw [hmerge, find?_upsert, Option.map_id, id]

end Table

/-- The order an engine picks for the rows of a query without `ORDER BY`, and
a runtime for the entries of a hash map: some permutation of them. -/
structure RowOrder where
  arrange : {α : Type} → List α → List α
  perm : ∀ {α : Type} (l : List α), (arrange l).Perm l

namespace RowOrder

/-- The rows as they are stored. -/
def stored : RowOrder := ⟨fun l => l, fun l => List.Perm.refl l⟩

@[simp] theorem mem_arrange (o : RowOrder) {l : List α} {a : α} :
    a ∈ o.arrange l ↔ a ∈ l := (o.perm l).mem_iff

theorem arrange_nil (o : RowOrder) : o.arrange ([] : List α) = [] := List.Perm.eq_nil (o.perm [])

end RowOrder

namespace Table

variable [DecidableEq κ] {t : Table key} {limit : Nat} {p : ρ → Bool}

/-- The rows of `SELECT rowid … WHERE p LIMIT limit`: some `limit` of those selected. -/
def victims (t : Table key) (order : RowOrder) (limit : Nat) (p : ρ → Bool) (r : ρ) : Bool :=
  key r ∈ ((order.arrange (t.rows.filter p)).take limit).map key

/-- `DELETE … WHERE rowid IN (SELECT rowid … WHERE p LIMIT limit)`. -/
def deleteSome (t : Table key) (order : RowOrder) (limit : Nat) (p : ρ → Bool) : Table key :=
  t.delete (t.victims order limit p)

/-- A row that is among the limit is a selected one. -/
theorem selected_of_victim {order : RowOrder} {r : ρ}
    (hr : r ∈ t.rows) (h : t.victims order limit p r = true) : p r = true := by
  obtain ⟨s, hs, hk⟩ := List.mem_map.mp (of_decide_eq_true h)
  have hsel := (order.mem_arrange).mp (List.mem_of_mem_take hs)
  obtain ⟨hs, hps⟩ := List.mem_filter.mp hsel
  rw [← eq_of_key_eq hs hr hk]
  exact hps

theorem mem_deleteSome_of_not (order : RowOrder) (limit : Nat)
    {r : ρ} (hr : r ∈ t.rows) (hp : p r = false) : r ∈ (t.deleteSome order limit p).rows := by
  refine mem_delete.mpr ⟨hr, Bool.eq_false_iff.mpr fun h => ?_⟩
  rw [selected_of_victim hr h] at hp
  cases hp

/-- Where no row is selected, none is deleted. -/
theorem deleteSome_eq_self (order : RowOrder) (limit : Nat)
    (h : t.rows.countP p = 0) : t.deleteSome order limit p = t := by
  refine delete_eq_self (List.countP_eq_zero.mpr fun r _ hr => ?_)
  obtain ⟨s, hs, -⟩ := List.mem_map.mp (of_decide_eq_true hr)
  obtain ⟨hs, hps⟩ := List.mem_filter.mp (order.mem_arrange.mp (List.mem_of_mem_take hs))
  exact List.countP_eq_zero.mp h s hs hps

/-- Deleting some of the selected rows, then all, is deleting all. -/
theorem delete_deleteSome (t : Table key) (order : RowOrder) (limit : Nat) (p : ρ → Bool) :
    (t.deleteSome order limit p).delete p = t.delete p := by
  refine ext_rows ?_
  show ((t.rows.filter _).filter _) = t.rows.filter _
  rw [List.filter_filter]
  refine List.filter_congr fun r hr => ?_
  cases hp : p r with
  | true => simp
  | false =>
    have := (mem_delete.mp (mem_deleteSome_of_not order limit hr hp)).2
    simp only [this, Bool.not_false, Bool.and_self]

/-- A deletion of up to `limit` rows deletes one if there is one. -/
theorem countP_deleteSome_lt (t : Table key) (order : RowOrder) (hlimit : 0 < limit)
    (p : ρ → Bool) (h : t.rows.countP p ≠ 0) :
    (t.deleteSome order limit p).rows.countP p < t.rows.countP p := by
  have hne : order.arrange (t.rows.filter p) ≠ [] := by
    intro hnil
    have := (order.perm (t.rows.filter p)).length_eq
    rw [hnil, List.length_nil, ← List.countP_eq_length_filter] at this
    exact h this.symm
  obtain ⟨r, rest, hr⟩ := List.exists_cons_of_ne_nil hne
  obtain ⟨n, rfl⟩ : ∃ n, limit = n + 1 := ⟨limit - 1, by omega⟩
  have hmem : r ∈ t.rows.filter p := order.mem_arrange.mp (by rw [hr]; exact List.mem_cons_self)
  have hsub : List.Sublist ((t.deleteSome order (n + 1) p).rows.filter p) (t.rows.filter p) :=
    List.filter_sublist.filter p
  rw [List.countP_eq_length_filter, List.countP_eq_length_filter]
  refine Nat.lt_of_le_of_ne hsub.length_le fun hlen => ?_
  rw [← hsub.eq_of_length hlen] at hmem
  have hkept := (mem_delete.mp (List.mem_filter.mp hmem).1).2
  simp [victims, hr] at hkept

/-- Deleting up to `limit` selected rows often enough deletes them all. -/
theorem iterate_deleteSome (order : RowOrder) (hlimit : 0 < limit)
    (p : ρ → Bool) : ∀ {n : Nat} {t : Table key}, t.rows.countP p ≤ n →
      (fun t : Table key => t.deleteSome order limit p)^[n] t = t.delete p
  | 0, t, hn => by rw [Function.iterate_zero, id, delete_eq_self (by omega)]
  | n + 1, t, hn => by
    have hle : (t.deleteSome order limit p).rows.countP p ≤ n := by
      by_cases h : t.rows.countP p = 0
      · rw [deleteSome_eq_self order limit h]
        omega
      · have := countP_deleteSome_lt t order hlimit p h
        omega
    rw [Function.iterate_succ_apply, iterate_deleteSome order hlimit p hle, delete_deleteSome]

/-- The loop that deletes up to `limit` selected rows at a time while there are any. -/
def drain (order : RowOrder) (limit : Nat) (p : ρ → Bool) : Nat → Table key → Table key
  | 0, t => t
  | n + 1, t =>
    if t.rows.countP p = 0 then t else drain order limit p n (t.deleteSome order limit p)

/-- The loop deletes every selected row. -/
theorem drain_eq (order : RowOrder) (hlimit : 0 < limit) (p : ρ → Bool) :
    ∀ {n : Nat} {t : Table key}, t.rows.countP p ≤ n → drain order limit p n t = t.delete p
  | n, t, hn => by
    by_cases h : t.rows.countP p = 0
    · cases n with
      | zero => rw [drain, delete_eq_self h]
      | succ n => rw [drain, if_pos h, delete_eq_self h]
    · cases n with
      | zero => omega
      | succ n =>
        have := countP_deleteSome_lt t order hlimit p h
        rw [drain, if_neg h, drain_eq order hlimit p (by omega), delete_deleteSome]

end Table

end Relational
