import Mathlib.Data.List.Basic

/-!
# Bounded channels

A buffered channel as its queue of values, with the non-blocking operations a
`select` with a `default` branch makes of it. The capacity is part of the type
and the queue never exceeds it, so a channel that is too full cannot be built.

- `trySend_eq_some`, `trySend_eq_none_iff`: a send succeeds exactly when there
  is room, and then appends;
- `buffer_replaceHead`: making room by dropping the oldest value always
  succeeds, and drops nothing else.
-/

namespace Concurrent

universe u

/-- A channel of `capacity` values. -/
structure Channel (α : Type u) (capacity : Nat) where
  buffer : List α
  closed : Bool
  bounded : buffer.length ≤ capacity

namespace Channel

variable {α : Type u} {n : Nat}

/-- `make(chan α, n)`. -/
def make : Channel α n := ⟨[], false, Nat.zero_le n⟩

/-- `select { case ch <- a: …; default: … }`: `none` stands for the default. -/
def trySend (c : Channel α n) (a : α) : Option (Channel α n) :=
  if h : c.buffer.length < n then
    some { c with buffer := c.buffer ++ [a], bounded := by rw [List.length_append]; exact h }
  else
    none

/-- `select { case <-ch: default: }`. -/
def discard (c : Channel α n) : Channel α n :=
  { c with
    buffer := c.buffer.tail
    bounded := Nat.le_trans (by rw [List.length_tail]; exact Nat.sub_le _ _) c.bounded }

/-- `a := <-ch` when there is a value. -/
def receive (c : Channel α n) : Option (α × Channel α n) :=
  c.buffer.head?.map fun a => (a, c.discard)

/-- `close(ch)`; buffered values can still be received. -/
def close (c : Channel α n) : Channel α n := { c with closed := true }

/-- Drop the oldest value, then append: `discard` and `trySend` in a row. -/
def replaceHead (c : Channel α n) (a : α) : Channel α n :=
  (c.discard.trySend a).getD c.discard

@[simp] theorem buffer_make : (make : Channel α n).buffer = [] := rfl

@[simp] theorem buffer_discard (c : Channel α n) : c.discard.buffer = c.buffer.tail := rfl

@[simp] theorem buffer_close (c : Channel α n) : c.close.buffer = c.buffer := rfl

@[simp] theorem closed_close (c : Channel α n) : c.close.closed = true := rfl

theorem trySend_eq_some {c c' : Channel α n} {a : α} (h : c.trySend a = some c') :
    c.buffer.length < n ∧ c'.buffer = c.buffer ++ [a] ∧ c'.closed = c.closed := by
  unfold trySend at h
  split at h
  · next hlt =>
    cases h
    exact ⟨hlt, rfl, rfl⟩
  · cases h

theorem trySend_eq_none_iff {c : Channel α n} {a : α} :
    c.trySend a = none ↔ c.buffer.length = n := by
  unfold trySend
  split
  · next hlt => exact iff_of_false nofun (Nat.ne_of_lt hlt)
  · next hge => exact iff_of_true rfl (Nat.le_antisymm c.bounded (Nat.not_lt.mp hge))

theorem receive_eq_some {c c' : Channel α n} {a : α} (h : c.receive = some (a, c')) :
    c.buffer = a :: c'.buffer ∧ c'.closed = c.closed := by
  unfold receive at h
  cases hb : c.buffer with
  | nil => simp [hb] at h
  | cons b rest =>
    simp only [hb, List.head?_cons, Option.map_some, Option.some.injEq, Prod.mk.injEq] at h
    obtain ⟨rfl, rfl⟩ := h
    exact ⟨by rw [buffer_discard, hb, List.tail_cons], rfl⟩

/-- Dropping the oldest value makes room: after it there is always a free slot. -/
theorem buffer_replaceHead (hn : 0 < n) (c : Channel α n) (a : α) :
    (c.replaceHead a).buffer = c.buffer.tail ++ [a] ∧ (c.replaceHead a).closed = c.closed := by
  have hroom : c.discard.buffer.length < n := by
    rw [buffer_discard, List.length_tail]
    have := c.bounded
    omega
  unfold replaceHead
  cases hs : c.discard.trySend a with
  | none => exact absurd (trySend_eq_none_iff.mp hs) (Nat.ne_of_lt hroom)
  | some c' =>
    obtain ⟨-, hbuf, hclosed⟩ := trySend_eq_some hs
    exact ⟨hbuf, hclosed⟩

end Channel

end Concurrent
