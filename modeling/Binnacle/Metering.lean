import Mathlib.Tactic.Linarith
import Mathlib.Tactic.Ring
import Binnacle.Runs

/-!
# Metered runs

A run takes timed steps, some of them marked. `Metered` says that marked steps are
paid from a level that never exceeds a capacity and grows at most at a rate; then a
window of time holds at most as many marked steps as the capacity and the growth over
the window allow (`Metered.marks_le`).
-/

namespace Runs

variable {σ α : Type}

/-- The marked steps of a run within a window of time. -/
def marks (step : σ → α → σ) (marked : σ → α → Bool) (time : α → Int) (from_ to_ : Int) :
    σ → List α → Nat
  | _, [] => 0
  | s, a :: as =>
    (if marked s a = true ∧ from_ ≤ time a ∧ time a ≤ to_ then 1 else 0) +
      marks step marked time from_ to_ (step s a) as

/-- Marked steps are paid from a level: at most `capacity`, growing at most at `rate`,
and lower by one after a marked step. -/
structure Metered (step : σ → α → σ) (enabled : σ → α → Prop) (marked : σ → α → Bool)
    (time : α → Int) (clock : σ → Int) (I : σ → Prop) (level : σ → Int → ℚ)
    (capacity rate : ℚ) : Prop where
  keep : ∀ s a, I s → enabled s a → I (step s a)
  order : ∀ s a, enabled s a → clock s ≤ time a
  clock_step : ∀ s a, clock (step s a) = time a
  rate_nonneg : 0 ≤ rate
  nonneg : ∀ s t, I s → clock s ≤ t → 0 ≤ level s t
  le_capacity : ∀ s t, level s t ≤ capacity
  gain : ∀ s t t', I s → clock s ≤ t → t ≤ t' → level s t' ≤ level s t + rate * (t' - t)
  spend : ∀ s a, I s → enabled s a →
    level (step s a) (time a) + (if marked s a then 1 else 0) ≤ level s (time a)

namespace Metered

variable {step : σ → α → σ} {enabled : σ → α → Prop} {marked : σ → α → Bool} {time : α → Int}
  {clock : σ → Int} {I : σ → Prop} {level : σ → Int → ℚ} {capacity rate : ℚ} {from_ to_ : Int}
  {s : σ} {a : α} {as : List α}
  (h : Metered step enabled marked time clock I level capacity rate)

include h

/-- After the end of the window nothing counts. -/
theorem marks_eq_zero (halong : Along step enabled s as) (hafter : to_ < clock s) :
    marks step marked time from_ to_ s as = 0 := by
  induction as generalizing s with
  | nil => rfl
  | cons a as ih =>
    have htime := h.order s a halong.1
    have hrest := ih halong.2 (by rw [h.clock_step]; omega)
    rw [marks, hrest, if_neg (by omega)]

theorem growth_nonneg {t t' : Int} (ht : t ≤ t') : 0 ≤ rate * ((t' : ℚ) - t) :=
  mul_nonneg h.rate_nonneg (sub_nonneg.mpr (by exact_mod_cast ht))

/-- A step in the window: if what is left pays for the rest, what there was pays for all. -/
theorem marks_cons_le (ha : enabled s a) (hI : I s)
    (hrest : (marks step marked time from_ to_ (step s a) as : ℚ) ≤
      level (step s a) (time a) + rate * (to_ - time a)) :
    (marks step marked time from_ to_ s (a :: as) : ℚ) ≤
      level s (time a) + rate * (to_ - time a) := by
  have hspend := h.spend s a hI ha
  have hmark : ((if marked s a = true ∧ from_ ≤ time a ∧ time a ≤ to_ then 1 else 0 : ℕ) : ℚ) ≤
      if marked s a then 1 else 0 := by
    cases marked s a <;> split <;> simp_all
  rw [marks, Nat.cast_add]
  linarith

/-- Up to the end of the window, the level and what it still gains pay for all that counts. -/
theorem marks_le_level (halong : Along step enabled s as) (hI : I s) (hbefore : clock s ≤ to_) :
    (marks step marked time from_ to_ s as : ℚ) ≤
      level s (clock s) + rate * (to_ - clock s) := by
  induction as generalizing s with
  | nil =>
    have hlevel := h.nonneg s (clock s) hI le_rfl
    have hgrowth := h.growth_nonneg hbefore
    rw [marks, Nat.cast_zero]
    linarith
  | cons a as ih =>
    have horder := h.order s a halong.1
    by_cases hin : time a ≤ to_
    · have hrest := ih halong.2 (h.keep s a hI halong.1) (by rw [h.clock_step]; exact hin)
      rw [h.clock_step] at hrest
      calc (marks step marked time from_ to_ s (a :: as) : ℚ)
          ≤ level s (time a) + rate * (to_ - time a) := h.marks_cons_le halong.1 hI hrest
        _ ≤ level s (clock s) + rate * (time a - clock s) + rate * (to_ - time a) := by
          have := h.gain s (clock s) (time a) hI le_rfl horder
          linarith
        _ = level s (clock s) + rate * (to_ - clock s) := by ring
    · -- the step and the rest of the run lie after the window
      have hrest : marks step marked time from_ to_ (step s a) as = 0 :=
        h.marks_eq_zero halong.2 (by rw [h.clock_step]; omega)
      have hlevel := h.nonneg s (clock s) hI le_rfl
      have hgrowth := h.growth_nonneg hbefore
      rw [marks, hrest, if_neg (by omega), Nat.add_zero, Nat.cast_zero]
      linarith

/-- A window of time holds at most as many marked steps as the capacity and the growth
over the window allow. -/
theorem marks_le (halong : Along step enabled s as) (hI : I s) (hwindow : from_ ≤ to_) :
    (marks step marked time from_ to_ s as : ℚ) ≤ capacity + rate * (to_ - from_) := by
  have hcapacity : ∀ {s}, I s → 0 ≤ capacity := fun {s} hI =>
    (h.nonneg s (clock s) hI le_rfl).trans (h.le_capacity s (clock s))
  have hgrowth := h.growth_nonneg hwindow
  induction as generalizing s with
  | nil =>
    have := hcapacity hI
    rw [marks, Nat.cast_zero]
    linarith
  | cons a as ih =>
    have hI' := h.keep s a hI halong.1
    by_cases hbefore : time a < from_
    · rw [marks, if_neg (by omega), Nat.zero_add]
      exact ih halong.2 hI'
    · by_cases hin : time a ≤ to_
      · have hrest : (marks step marked time from_ to_ (step s a) as : ℚ) ≤ _ :=
          h.marks_le_level halong.2 hI' (by rw [h.clock_step]; exact hin)
        rw [h.clock_step] at hrest
        calc (marks step marked time from_ to_ s (a :: as) : ℚ)
            ≤ level s (time a) + rate * (to_ - time a) := h.marks_cons_le halong.1 hI hrest
          _ ≤ capacity + rate * (time a - from_) + rate * (to_ - time a) := by
            have := h.le_capacity s (time a)
            have := h.growth_nonneg (Int.not_lt.mp hbefore)
            linarith
          _ = capacity + rate * (to_ - from_) := by ring
      · have hrest : marks step marked time from_ to_ (step s a) as = 0 :=
          h.marks_eq_zero halong.2 (by rw [h.clock_step]; omega)
        have := hcapacity hI
        rw [marks, hrest, if_neg (by omega), Nat.add_zero, Nat.cast_zero]
        linarith

end Metered

end Runs
