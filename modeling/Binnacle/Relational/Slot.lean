import Binnacle.Relational.Table

/-!
# Tables of a database

A database is a record of tables. `Slot σ` is one of its tables: the row type,
the primary key, and how a state of type `σ` holds it. Code that chooses a table
by name is then one definition over slots.

- `deleteSome`: a `DELETE` of up to `limit` selected rows;
- `affected_eq_zero_iff`: it reports no row exactly when none is selected.
-/

namespace Relational

/-- A table of a database of type `σ`. -/
structure Slot (σ : Type) where
  Row : Type
  Key : Type
  key : Row → Key
  decEq : DecidableEq Key
  get : σ → Table key
  set : σ → Table key → σ
  get_set : ∀ s t, get (set s t) = t

namespace Slot

variable {σ : Type} (a b : Slot σ)

instance : DecidableEq a.Key := a.decEq

/-- The rows of the table. -/
def rows (s : σ) : List a.Row := (a.get s).rows

/-- `SELECT COUNT(*) FROM table WHERE p`. -/
def count (p : a.Row → Bool) (s : σ) : Nat := (a.rows s).countP p

/-- `DELETE FROM table WHERE rowid IN (SELECT rowid FROM table WHERE p LIMIT limit)`. -/
def deleteSome (order : RowOrder) (limit : Nat) (p : a.Row → Bool) (s : σ) : σ :=
  a.set s ((a.get s).deleteSome order limit p)

/-- `RowsAffected` of a statement that deletes from the table. -/
def affected (before after : σ) : Nat := (a.rows before).length - (a.rows after).length

/-- Writing table `a` leaves table `b` alone. -/
def Apart : Prop := ∀ s t, b.get (a.set s t) = b.get s

variable {a b} {order : RowOrder} {limit : Nat} {p : a.Row → Bool} {s : σ}

theorem rows_deleteSome :
    a.rows (a.deleteSome order limit p s) = ((a.get s).deleteSome order limit p).rows := by
  unfold rows deleteSome
  rw [a.get_set]

theorem mem_deleteSome_of_not {r : a.Row} (hr : r ∈ a.rows s) (hp : p r = false) :
    r ∈ a.rows (a.deleteSome order limit p s) := by
  rw [rows_deleteSome]
  exact Table.mem_deleteSome_of_not order limit hr hp

theorem count_eq_zero_iff : a.count p s = 0 ↔ ∀ r ∈ a.rows s, p r = false := by
  unfold count
  rw [List.countP_eq_zero]
  exact forall₂_congr fun r _ => Bool.not_eq_true (p r) ▸ Iff.rfl

/-- A `DELETE` that reports no row found none. -/
theorem affected_eq_zero_iff (hlimit : 0 < limit) :
    a.affected s (a.deleteSome order limit p s) = 0 ↔ a.count p s = 0 := by
  have hsub : List.Sublist (a.rows (a.deleteSome order limit p s)) (a.rows s) := by
    rw [Slot.rows_deleteSome]
    exact List.filter_sublist
  unfold affected
  constructor
  · intro h
    by_contra hne
    have hlt := Table.countP_deleteSome_lt (a.get s) order hlimit p hne
    have heq := hsub.eq_of_length (Nat.le_antisymm hsub.length_le (by omega))
    rw [Slot.rows_deleteSome] at heq
    rw [heq] at hlt
    exact absurd hlt (Nat.lt_irrefl _)
  · intro h
    rw [Slot.rows_deleteSome, Table.deleteSome_eq_self order limit h]
    exact Nat.sub_self _

end Slot

end Relational
