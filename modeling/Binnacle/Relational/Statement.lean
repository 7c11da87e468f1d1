import Mathlib.Data.List.Basic

/-!
# Sequences of fallible statements

A transaction runs statements one after another and stops at the first that
fails. A loop of statements is `List.foldlM` in `Except`, and its rules are:

- `foldlM_ok_proj`: if every successful statement acts on a component of the
  state as `g`, a successful loop acts on it as the fold of `g`;
- `foldlM_ok_rel`: a reflexive and transitive relation kept by every
  successful statement is kept by a successful loop;
- `foldlM_ok_inv`: an invariant of the state and the items still to come, kept by
  every successful statement, holds at the end of a successful loop;
- `foldlM_zipIdx_ok`: an invariant that counts the items already served;
- `foldlM_ok_of_inv`: a loop whose statements succeed under an invariant they
  keep succeeds.
-/

namespace Relational

variable {ε σ τ α : Type} {f : σ → α → Except ε σ}

/-- A bind succeeds when both halves do. -/
theorem bind_ok {x : Except ε σ} {f : σ → Except ε τ} {t : τ} :
    (x >>= f) = .ok t ↔ ∃ s, x = .ok s ∧ f s = .ok t := by
  cases x with
  | error e => exact ⟨nofun, fun ⟨_, h, _⟩ => (nomatch h)⟩
  | ok s =>
    constructor
    · intro h
      exact ⟨s, rfl, h⟩
    · rintro ⟨s', h, h'⟩
      cases h
      exact h'

theorem foldlM_nil_ok {s s' : σ} : [].foldlM f s = .ok s' ↔ s' = s := by
  rw [List.foldlM_nil]
  exact ⟨fun h => (Except.ok.inj h).symm, fun h => h ▸ rfl⟩

theorem foldlM_cons_ok {a : α} {l : List α} {s s' : σ} :
    (a :: l).foldlM f s = .ok s' ↔ ∃ s₁, f s a = .ok s₁ ∧ l.foldlM f s₁ = .ok s' := by
  rw [List.foldlM_cons, bind_ok]

/-- An invariant of the items still to come and the state, kept by every
successful statement. -/
theorem foldlM_ok_inv (I : List α → σ → Prop)
    (step : ∀ a l s s', I (a :: l) s → f s a = .ok s' → I l s') :
    ∀ {l : List α} {s s' : σ}, l.foldlM f s = .ok s' → I l s → I [] s'
  | [], s, s', h, hI => by rw [foldlM_nil_ok.mp h]; exact hI
  | a :: l, s, s', h, hI => by
    obtain ⟨s₁, h₁, h₂⟩ := foldlM_cons_ok.mp h
    exact foldlM_ok_inv I step h₂ (step a l s s₁ hI h₁)

/-- A statement that acts on one component by `g` makes a loop act by the fold. -/
theorem foldlM_ok_proj (π : σ → τ) (g : τ → α → τ)
    (step : ∀ a s s', f s a = .ok s' → π s' = g (π s) a) {l : List α} {s s' : σ}
    (h : l.foldlM f s = .ok s') : π s' = l.foldl g (π s) := by
  refine foldlM_ok_inv (fun rest s₁ => rest.foldl g (π s₁) = l.foldl g (π s)) ?_ h rfl
  intro a rest s₁ s₂ hI hok
  rw [step a s₁ s₂ hok]
  exact hI

/-- What every successful statement keeps, a successful loop keeps. -/
theorem foldlM_ok_rel {R : σ → σ → Prop} (refl : ∀ s, R s s)
    (trans : ∀ {s₁ s₂ s₃}, R s₁ s₂ → R s₂ s₃ → R s₁ s₃) (step : ∀ a s s', f s a = .ok s' → R s s')
    {l : List α} {s s' : σ} (h : l.foldlM f s = .ok s') : R s s' :=
  foldlM_ok_inv (fun _ s₁ => R s s₁)
    (fun a _ s₁ s₂ hR hok => trans hR (step a s₁ s₂ hok)) h (refl s)

/-- An invariant of the number of items served and the state, kept by every successful
statement of a loop over numbered items. -/
theorem foldlM_zipIdx_ok {f : σ → α × Nat → Except ε σ} (I : Nat → σ → Prop) {l : List α}
    (step : ∀ a ∈ l, ∀ k s s', I k s → f s (a, k) = .ok s' → I (k + 1) s') {k : Nat} {s s' : σ}
    (h : (l.zipIdx k).foldlM f s = .ok s') (hI : I k s) : I (k + l.length) s' := by
  induction l generalizing k s with
  | nil =>
    rw [foldlM_nil_ok.mp h]
    exact hI
  | cons a l ih =>
    obtain ⟨s₁, h₁, h₂⟩ := foldlM_cons_ok.mp h
    have hrest := ih (fun b hb => step b (List.mem_cons_of_mem a hb)) h₂
      (step a List.mem_cons_self k s s₁ hI h₁)
    rw [List.length_cons, show k + (l.length + 1) = k + 1 + l.length by omega]
    exact hrest

/-- A loop of statements that succeed under an invariant they keep succeeds. -/
theorem foldlM_ok_of_inv {l : List α} (I : List α → σ → Prop)
    (step : ∀ a l s, I (a :: l) s → ∃ s', f s a = .ok s' ∧ I l s') :
    ∀ {s : σ}, I l s → ∃ s', l.foldlM f s = .ok s' ∧ I [] s' := by
  induction l with
  | nil => intro s h; exact ⟨s, rfl, h⟩
  | cons a l ih =>
    intro s h
    obtain ⟨s₁, h₁, hI⟩ := step a l s h
    obtain ⟨s', h', hI'⟩ := ih hI
    exact ⟨s', foldlM_cons_ok.mpr ⟨s₁, h₁, h'⟩, hI'⟩

/-- Renaming errors changes no success. -/
theorem mapError_ok {δ : Type} {x : Except ε σ} {f : ε → δ} {s : σ} :
    x.mapError f = .ok s ↔ x = .ok s := by
  cases x with
  | error e => exact ⟨nofun, nofun⟩
  | ok s' => exact ⟨fun h => congrArg _ (Except.ok.inj h), fun h => congrArg _ (Except.ok.inj h)⟩

/-- Every result of a mapped statement is the result of one of the items. -/
theorem exists_of_mapM_ok {f : α → Except ε σ} {l : List α} {bs : List σ} (h : l.mapM f = .ok bs) :
    ∀ b ∈ bs, ∃ a ∈ l, f a = .ok b := by
  induction l generalizing bs with
  | nil =>
    rw [List.mapM_nil] at h
    cases h
    exact nofun
  | cons a l ih =>
    rw [List.mapM_cons] at h
    obtain ⟨b, hb, h⟩ := bind_ok.mp h
    obtain ⟨bs, hbs, h⟩ := bind_ok.mp h
    cases h
    refine List.forall_mem_cons.mpr ⟨⟨a, List.mem_cons_self, hb⟩, fun b' hb' => ?_⟩
    obtain ⟨a', ha', h'⟩ := ih hbs b' hb'
    exact ⟨a', List.mem_cons_of_mem a ha', h'⟩

/-- A mapped statement that succeeds for every item succeeds, with a result for each. -/
theorem mapM_ok_of_forall {f : α → Except ε σ} {l : List α} (h : ∀ a ∈ l, ∃ b, f a = .ok b) :
    ∃ bs, l.mapM f = .ok bs ∧ ∀ a ∈ l, ∃ b ∈ bs, f a = .ok b := by
  induction l with
  | nil => exact ⟨[], rfl, nofun⟩
  | cons a l ih =>
    obtain ⟨⟨b, hb⟩, hrest⟩ := List.forall_mem_cons.mp h
    obtain ⟨bs, hbs, hall⟩ := ih hrest
    refine ⟨b :: bs, ?_, List.forall_mem_cons.mpr ⟨⟨b, List.mem_cons_self, hb⟩, fun a' ha' => ?_⟩⟩
    · rw [List.mapM_cons, bind_ok]
      exact ⟨b, hb, bind_ok.mpr ⟨bs, hbs, rfl⟩⟩
    · obtain ⟨b', hb', h'⟩ := hall a' ha'
      exact ⟨b', List.mem_cons_of_mem b hb', h'⟩

end Relational
