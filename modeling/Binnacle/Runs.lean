import Mathlib.Data.List.Basic
import Mathlib.Data.List.Induction

/-!
# Transition systems

Runs of a system that takes one labelled step after another, and the rule its
safety proofs use: what holds initially and is kept by every step holds in
every reachable state (`Reachable.invariant`). For a step function,
`forall_prefix_iff` says when a property that may be lost holds all along a
run: exactly when each step of it meets the condition that keeps the property.
-/

namespace Runs

universe u v

variable {σ : Type u} {α : Type v} {step : σ → α → σ}

/-- An initial state, and what one action can do. -/
structure System (σ : Type u) (α : Type v) where
  init : σ
  next : σ → α → σ → Prop

/-- The system of a step function whose actions have a precondition. -/
def System.ofStep (init : σ) (step : σ → α → σ) (enabled : σ → α → Prop) : System σ α where
  init := init
  next s a s' := enabled s a ∧ s' = step s a

/-- `S.Run as s`: the actions `as`, in order, lead from the initial state to `s`. -/
inductive System.Run (S : System σ α) : List α → σ → Prop where
  | nil : S.Run [] S.init
  | snoc {as : List α} {s s' : σ} {a : α} :
      S.Run as s → S.next s a s' → S.Run (as ++ [a]) s'

/-- Some run leads to the state. -/
def System.Reachable (S : System σ α) (s : σ) : Prop := ∃ as, S.Run as s

variable {S : System σ α} {s : σ} {as : List α} {I : σ → Prop}

theorem System.Reachable.init : S.Reachable S.init := ⟨[], .nil⟩

theorem System.Reachable.next {s' : σ} {a : α} (h : S.Reachable s) (hs : S.next s a s') :
    S.Reachable s' := by
  obtain ⟨as, hrun⟩ := h
  exact ⟨as ++ [a], hrun.snoc hs⟩

/-- What holds initially and is kept by every step holds in every reachable state. -/
theorem System.Reachable.invariant (I : σ → Prop) (hinit : I S.init)
    (hstep : ∀ s a s', I s → S.next s a s' → I s') (h : S.Reachable s) : I s := by
  obtain ⟨as, hrun⟩ := h
  induction hrun with
  | nil => exact hinit
  | snoc _ hs ih => exact hstep _ _ _ ih hs

/-- What holds at every position of a list of actions holds for each of its
prefixes and the action after it. -/
theorem forall_snoc_of_get {Q : List α → α → Prop}
    (h : ∀ i : Fin as.length, Q (as.take i) (as.get i)) :
    ∀ pre a, pre ++ [a] <+: as → Q pre a := by
  rintro pre a ⟨rest, rfl⟩
  have hlen : pre.length < (pre ++ [a] ++ rest).length := by simp
  simpa using h ⟨pre.length, hlen⟩

theorem forall_snoc_singleton {a : α} {Q : List α → α → Prop} (h : Q [] a) :
    ∀ pre b, pre ++ [b] <+: [a] → Q pre b := by
  refine forall_snoc_of_get fun ⟨i, hi⟩ => ?_
  obtain rfl : i = 0 := Nat.lt_one_iff.mp hi
  exact h

/-- Every action of a list is enabled when its turn comes. -/
def Along (step : σ → α → σ) (enabled : σ → α → Prop) : σ → List α → Prop
  | _, [] => True
  | s, a :: as => enabled s a ∧ Along step enabled (step s a) as

section Along

variable {step : σ → α → σ} {enabled enabled' : σ → α → Prop} {as : List α}

instance decidableAlong [∀ s a, Decidable (enabled s a)] :
    ∀ (as : List α) (s : σ), Decidable (Along step enabled s as)
  | [], _ => isTrue trivial
  | a :: as, s =>
    have := decidableAlong as (step s a)
    inferInstanceAs (Decidable (enabled s a ∧ Along step enabled (step s a) as))

/-- Actions that are enabled in every state. -/
theorem Along.of_mem (h : ∀ a ∈ as, ∀ s, enabled s a) (s : σ) : Along step enabled s as := by
  induction as generalizing s with
  | nil => trivial
  | cons a as ih =>
    exact ⟨h a List.mem_cons_self s, ih (fun b hb => h b (List.mem_cons_of_mem a hb)) _⟩

theorem Along.append {bs : List α} (ha : Along step enabled s as)
    (hb : Along step enabled (as.foldl step s) bs) : Along step enabled s (as ++ bs) := by
  induction as generalizing s with
  | nil => exact hb
  | cons a as ih => exact ⟨ha.1, ih ha.2 hb⟩

theorem Along.of_append {bs : List α} (h : Along step enabled s (as ++ bs)) :
    Along step enabled s as := by
  induction as generalizing s with
  | nil => trivial
  | cons a as ih => exact ⟨h.1, ih h.2⟩

theorem Along.and (h : Along step enabled s as)
    (h' : Along step enabled' s as) : Along step (fun s a => enabled s a ∧ enabled' s a) s as := by
  induction as generalizing s with
  | nil => trivial
  | cons a as ih => exact ⟨⟨h.1, h'.1⟩, ih h.2 h'.2⟩

theorem Along.imp (himp : ∀ s a, enabled s a → enabled' s a)
    (h : Along step enabled s as) : Along step enabled' s as := by
  induction as generalizing s with
  | nil => trivial
  | cons a as ih => exact ⟨himp s a h.1, ih h.2⟩

/-- What every enabled step keeps holds at the end. -/
theorem Along.invariant (hstep : ∀ s a, I s → enabled s a → I (step s a))
    (h : Along step enabled s as) (hI : I s) : I (as.foldl step s) := by
  induction as generalizing s with
  | nil => exact hI
  | cons a as ih => exact ih h.2 (hstep s a hI h.1)

/-- An action after a prefix is enabled there, and so is the prefix. -/
theorem Along.at_snoc {pre : List α} {a : α} (h : Along step enabled s as)
    (hpre : pre ++ [a] <+: as) : Along step enabled s pre ∧ enabled (pre.foldl step s) a := by
  induction pre generalizing s as with
  | nil =>
    obtain ⟨rest, rfl⟩ := hpre
    exact ⟨trivial, h.1⟩
  | cons b pre ih =>
    obtain ⟨rest, rfl⟩ := hpre
    obtain ⟨hpre, ha⟩ := ih h.2 ⟨rest, rfl⟩
    exact ⟨⟨h.1, hpre⟩, ha⟩

/-- A quantity that enabled steps keep and all others raise ends where it began
exactly if every step was enabled. -/
theorem Along.iff_of_monotone {μ : σ → Int} (hkeep : ∀ s a, enabled s a → μ (step s a) = μ s)
    (hraise : ∀ s a, ¬ enabled s a → μ s < μ (step s a)) (s : σ) (as : List α) :
    μ s ≤ μ (as.foldl step s) ∧ (μ (as.foldl step s) = μ s ↔ Along step enabled s as) := by
  induction as generalizing s with
  | nil => exact ⟨Int.le_refl _, iff_of_true rfl trivial⟩
  | cons a as ih =>
    obtain ⟨hle, hiff⟩ := ih (step s a)
    rw [List.foldl_cons]
    by_cases ha : enabled s a
    · rw [hkeep s a ha] at hle hiff
      exact ⟨hle, hiff.trans (and_iff_right ha).symm⟩
    · have hlt := hraise s a ha
      exact ⟨by omega, iff_of_false (by omega) fun h => ha h.1⟩

/-- Enabled actions lead from the initial state to a reachable one. -/
theorem Along.reachable (h : Along step enabled s as) {init : σ}
    (hs : (System.ofStep init step enabled).Reachable s) :
    (System.ofStep init step enabled).Reachable (as.foldl step s) := by
  induction as generalizing s with
  | nil => exact hs
  | cons a as ih => exact ih h.2 (hs.next ⟨h.1, rfl⟩)

end Along

/-- What every step that meets `Q` keeps holds all along a run of such steps. -/
theorem forall_prefix_of_step {Q : σ → α → Prop} (hstep : ∀ s a, I s → Q s a → I (step s a))
    (hQ : ∀ pre a, pre ++ [a] <+: as → Q (pre.foldl step s) a) (hI : I s) {pre : List α}
    (hpre : pre <+: as) : I (pre.foldl step s) := by
  induction pre using List.reverseRecOn with
  | nil => exact hI
  | append_singleton pre a ih =>
    rw [List.foldl_append]
    exact hstep _ a (ih ((List.prefix_append pre [a]).trans hpre)) (hQ pre a hpre)

/-- A property of the current state holds all along a run exactly when every
step meets the condition that carries it over that step. -/
theorem forall_prefix_iff {P : σ → Prop} {C Q : σ → α → Prop}
    (hstep : ∀ s a, I s → P s → Q s a → (P (step s a) ↔ C s a))
    (hinv : ∀ s a, I s → Q s a → I (step s a))
    (hQ : ∀ pre a, pre ++ [a] <+: as → Q (pre.foldl step s) a) (hI : I s) (hP : P s) :
    (∀ pre, pre <+: as → P (pre.foldl step s)) ↔
      ∀ pre a, pre ++ [a] <+: as → C (pre.foldl step s) a := by
  have hfront : ∀ {pre a}, pre ++ [a] <+: as → pre <+: as :=
    fun hpre => (List.prefix_append _ _).trans hpre
  constructor
  · intro h pre a hpre
    have hI' := forall_prefix_of_step hinv hQ hI (hfront hpre)
    have hafter := h _ hpre
    rw [List.foldl_append] at hafter
    exact (hstep _ a hI' (h pre (hfront hpre)) (hQ pre a hpre)).mp hafter
  · intro h pre hpre
    refine (forall_prefix_of_step (I := fun s => I s ∧ P s) (Q := fun s a => Q s a ∧ C s a) ?_
      (fun pre a hpre => ⟨hQ pre a hpre, h pre a hpre⟩) ⟨hI, hP⟩ hpre).2
    rintro s a ⟨hs, hp⟩ ⟨hq, hc⟩
    exact ⟨hinv s a hs hq, (hstep s a hs hp hq).mpr hc⟩

/-- The state after `n` steps, with the `k`-th action of a stream. -/
def follow (step : σ → α → σ) (actions : Nat → α) (s : σ) : Nat → σ
  | 0 => s
  | n + 1 => step (follow step actions s n) (actions n)

/-- What every step keeps holds after any number of steps. -/
theorem follow_invariant (hstep : ∀ s a, I s → I (step s a)) (actions : Nat → α)
    (hI : I s) (n : Nat) : I (follow step actions s n) := by
  induction n with
  | zero => exact hI
  | succ n ih => exact hstep _ _ ih

/-- A measure that every step before a halt decreases is a bound on the steps. -/
theorem exists_halt {H : σ → Prop} (μ : σ → Nat)
    (hstep : ∀ s a, I s → ¬ H s → I (step s a) ∧ μ (step s a) < μ s) (actions : Nat → α)
    (hI : I s) : ∃ n, H (follow step actions s n) ∧ I (follow step actions s n) := by
  by_contra hnever
  rw [not_exists] at hnever
  have hdown : ∀ n, I (follow step actions s n) ∧ μ (follow step actions s n) + n ≤ μ s := by
    intro n
    induction n with
    | zero => exact ⟨hI, Nat.le_refl _⟩
    | succ n ih =>
      have hrunning : ¬ H (follow step actions s n) := fun h => hnever n ⟨h, ih.1⟩
      obtain ⟨hI', hlt⟩ := hstep _ (actions n) ih.1 hrunning
      refine ⟨hI', ?_⟩
      show μ (step (follow step actions s n) (actions n)) + (n + 1) ≤ μ s
      omega
  have hbound := (hdown (μ s + 1)).2
  omega

end Runs
