import Binnacle.Relational.Table

/-!
# Layers of settings

A total function with partial ones laid over it: where a layer says something, it
decides, and elsewhere what is below shows through.

- `overlay`: one layer over what is below.
- `foldl_overlay_rows`: the rows of a keyed table, written one after the other in any
  order, are one layer, the lookup in the table.
-/

namespace Layers

open Relational

variable {κ β : Type} {α : κ → Type}

/-- A layer over what is below it. -/
def overlay (layer : ∀ k, Option (α k)) (below : ∀ k, α k) (k : κ) : α k :=
  (layer k).getD (below k)

theorem overlay_apply (layer : ∀ k, Option (α k)) (below : ∀ k, α k) (k : κ) :
    overlay layer below k = (layer k).getD (below k) := rfl

theorem overlay_overlay (upper lower : ∀ k, Option (α k)) (below : ∀ k, α k) :
    overlay upper (overlay lower below) = overlay (fun k => (upper k).or (lower k)) below := by
  funext k
  rw [overlay_apply, overlay_apply, overlay_apply]
  cases upper k with
  | none => rfl
  | some a => rfl

/-- A layer changes nothing exactly if it agrees with what is below. -/
theorem overlay_eq_self_iff {layer : ∀ k, Option (α k)} {below : ∀ k, α k} :
    overlay layer below = below ↔ ∀ k a, layer k = some a → a = below k := by
  constructor
  · intro h k a hk
    have hsame : overlay layer below k = below k := congrFun h k
    rw [overlay, hk] at hsame
    exact hsame
  · intro h
    funext k
    unfold overlay
    cases hk : layer k with
    | none => rfl
    | some a => exact h k a hk

/-- A layer that says something of one place. -/
theorem overlay_ite {γ : Type} [DecidableEq κ] (place : κ) (a : γ) (below : κ → γ) (k : κ) :
    overlay (fun k => if place = k then some a else none) below k =
      if place = k then a else below k := by
  rw [overlay_apply]
  by_cases h : place = k
  · rw [if_pos h, if_pos h]
    rfl
  · rw [if_neg h, if_neg h]
    rfl

/-- Layers laid on one by one: the last that says something decides. -/
theorem foldl_overlay (layer : β → ∀ k, Option (α k)) (bs : List β) (below : ∀ k, α k) :
    bs.foldl (fun below b => overlay (layer b) below) below =
      overlay (fun k => bs.reverse.findSome? fun b => layer b k) below := by
  induction bs generalizing below with
  | nil => rfl
  | cons b bs ih =>
    rw [List.foldl_cons, ih, overlay_overlay]
    refine congrFun (congrArg overlay (funext fun k => ?_)) below
    rw [List.reverse_cons, List.findSome?_append, List.findSome?_singleton]

/-- Among rows of a table, at most the row of a key says something about it. -/
theorem findSome?_rows {ρ ι γ : Type} {key : ρ → ι} [DecidableEq ι] {t : Table key} {rows : List ρ}
    (hperm : rows.Perm t.rows) {value : ρ → Option γ} {k : ι}
    (hkey : ∀ r, key r ≠ k → value r = none) : rows.findSome? value = (t.find? k).bind value := by
  have hother : ∀ r ∈ rows, t.find? k ≠ some r → value r = none := fun r hr hne =>
    hkey r fun hk => hne (Table.find?_eq_some_iff.mpr ⟨hperm.mem_iff.mp hr, hk⟩)
  cases hfind : t.find? k with
  | none =>
    refine List.findSome?_eq_none_iff.mpr fun r hr => hother r hr ?_
    rw [hfind]
    exact nofun
  | some r =>
    have hr : r ∈ rows := hperm.mem_iff.mpr (Table.find?_eq_some_iff.mp hfind).1
    cases hvalue : rows.findSome? value with
    | none => exact (List.findSome?_eq_none_iff.mp hvalue r hr).symm
    | some a =>
      obtain ⟨r', hr', ha⟩ := List.exists_of_findSome?_eq_some hvalue
      -- the row that spoke is the row of the key
      have hsame : some r = some r' := by
        by_contra hne
        rw [hother r' hr' (hfind ▸ hne)] at ha
        cases ha
      cases hsame
      exact ha.symm

/-- The rows of a table, written one after the other in any order. -/
theorem foldl_overlay_rows {ρ ι : Type} {key : ρ → ι} [DecidableEq ι] {t : Table key}
    {rows : List ρ} (hperm : rows.Perm t.rows) {layer : ρ → ∀ k, Option (α k)}
    {place : κ → ι} (hplace : ∀ r k, key r ≠ place k → layer r k = none) (below : ∀ k, α k) :
    rows.foldl (fun below r => overlay (layer r) below) below =
      overlay (fun k => (t.find? (place k)).bind fun r => layer r k) below := by
  rw [foldl_overlay]
  refine congrFun (congrArg overlay (funext fun k => ?_)) below
  exact findSome?_rows ((List.reverse_perm rows).trans hperm) fun r => hplace r k

end Layers
