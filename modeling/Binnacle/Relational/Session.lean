import Mathlib.Data.List.Basic

/-!
# Sessions of transactions

A session queries a database and runs transactions on it, one after another.
Each transaction commits or is rolled back on its own; the first one that fails
ends the session, and what was committed before it stays. An `Outcome` also
lists the transactions that were tried, each with the state it found, so that
one can speak of them without running them again.

- `Closed`: a property of sessions that goes from the parts to the whole;
- `Keeps`: what every transaction keeps, a session keeps, whether it is stopped
  or not;
- `Tries`: what holds of every transaction a session tries;
- `Completes`: a session whose transactions are all acceptable is not stopped;
- `forEach_run`: a loop whose transactions are acceptable runs to its end, and what
  it has done then;
- `Leads`: trying a transaction of a kind leads from one property to another;
- `TriesAtMost`: how many transactions of a kind a session tries;
- `Exposes`: an error or a transaction that a session comes to.
-/

namespace Relational

variable {ε σ ω α : Type}

/-- The state a session leaves, what stopped it, and the transactions it tried. -/
structure Outcome (ε σ ω : Type) where
  state : σ
  error : Option ε
  tried : List (σ × ω)

abbrev Session (ε σ ω : Type) := σ → Outcome ε σ ω

namespace Session

def done : Session ε σ ω := fun s => ⟨s, none, []⟩

def fail (e : ε) : Session ε σ ω := fun s => ⟨s, some e, []⟩

/-- Go on according to the present state. -/
def read (f : σ → Session ε σ ω) : Session ε σ ω := fun s => f s s

/-- A statement outside the transactions of interest. -/
def execute (t : σ → Except ε σ) : Session ε σ ω := fun s =>
  match t s with
  | .ok s' => ⟨s', none, []⟩
  | .error e => ⟨s, some e, []⟩

/-- A transaction, known by its label. -/
def transact (label : ω) (t : σ → Except ε σ) : Session ε σ ω := fun s =>
  match t s with
  | .ok s' => ⟨s', none, [(s, label)]⟩
  | .error e => ⟨s, some e, [(s, label)]⟩

/-- Go on with `q` unless `p` was stopped. -/
def andThen (p q : Session ε σ ω) : Session ε σ ω := fun s =>
  match p s with
  | ⟨s', some e, tried⟩ => ⟨s', some e, tried⟩
  | ⟨s', none, tried⟩ => { q s' with tried := tried ++ (q s').tried }

/-- One session for each element, in order. -/
def forEach (l : List α) (f : α → Session ε σ ω) : Session ε σ ω :=
  l.foldr (fun a rest => (f a).andThen rest) done

variable {s : σ}

theorem andThen_of_error {p q : Session ε σ ω} {e : ε} (h : (p s).error = some e) :
    (p.andThen q) s = p s := by
  unfold andThen
  generalize p s = o at h ⊢
  obtain ⟨s', error, tried⟩ := o
  cases h
  rfl

theorem andThen_of_none {p q : Session ε σ ω} (h : (p s).error = none) :
    (p.andThen q) s
      = { q (p s).state with tried := (p s).tried ++ (q (p s).state).tried } := by
  unfold andThen
  generalize p s = o at h ⊢
  obtain ⟨s', error, tried⟩ := o
  cases h
  rfl

theorem done_andThen (q : Session ε σ ω) : (done : Session ε σ ω).andThen q = q := rfl

theorem forEach_nil (f : α → Session ε σ ω) : forEach [] f = done := rfl

theorem forEach_cons (a : α) (l : List α) (f : α → Session ε σ ω) :
    forEach (a :: l) f = (f a).andThen (forEach l f) := rfl

/-- A property of sessions that goes from the parts to the whole. -/
structure Closed (P : Session ε σ ω → Prop) : Prop where
  done : P done
  read : ∀ {f : σ → Session ε σ ω}, (∀ s, P (f s)) → P (read f)
  andThen : ∀ {p q : Session ε σ ω}, P p → P q → P (p.andThen q)

variable {l : List α}

theorem Closed.forEach {P : Session ε σ ω → Prop} (hP : Closed P)
    {f : α → Session ε σ ω} (h : ∀ a ∈ l, P (f a)) : P (forEach l f) := by
  induction l with
  | nil => exact hP.done
  | cons a l ih =>
    have hrest := ih fun b hb => h b (List.mem_cons_of_mem a hb)
    exact hP.andThen (h a List.mem_cons_self) hrest

/-! ## What a session keeps -/

/-- The session keeps `I`, stopped or not. -/
def Keeps (I : σ → Prop) (p : Session ε σ ω) : Prop := ∀ s, I s → I (p s).state

variable {f : σ → Session ε σ ω} {t : σ → Except ε σ} {label : ω}

section Keeps

variable {I : σ → Prop} {p q : Session ε σ ω}

theorem keeps_done : Keeps I (done : Session ε σ ω) := fun _ h => h

theorem keeps_fail (e : ε) : Keeps I (fail e : Session ε σ ω) := fun _ h => h

theorem keeps_read (h : ∀ s, I s → Keeps I (f s)) : Keeps I (read f) :=
  fun s hs => h s hs s hs

theorem keeps_execute (h : ∀ s s', I s → t s = .ok s' → I s') :
    Keeps I (execute t : Session ε σ ω) := by
  intro s hs
  unfold execute
  split
  · next s' hok => exact h s s' hs hok
  · exact hs

theorem keeps_transact (h : ∀ s s', I s → t s = .ok s' → I s') : Keeps I (transact label t) := by
  intro s hs
  unfold transact
  split
  · next s' hok => exact h s s' hs hok
  · exact hs

theorem Keeps.andThen (hp : Keeps I p) (hq : Keeps I q) : Keeps I (p.andThen q) := by
  intro s hs
  cases he : (p s).error with
  | some e =>
    rw [andThen_of_error he]
    exact hp s hs
  | none =>
    rw [andThen_of_none he]
    exact hq _ (hp s hs)

theorem closed_keeps (I : σ → Prop) : Closed (Keeps I : Session ε σ ω → Prop) :=
  ⟨keeps_done, fun h => keeps_read fun s _ => h s, Keeps.andThen⟩

end Keeps

/-! ## What a session tries -/

/-- The session keeps `I`, and every transaction it tries meets `A` where it is tried. -/
def Tries (I : σ → Prop) (A : σ → ω → Prop) (p : Session ε σ ω) : Prop :=
  ∀ s, I s → I (p s).state ∧ ∀ x ∈ (p s).tried, A x.1 x.2

section Tries

variable {I : σ → Prop} {A : σ → ω → Prop} {p q : Session ε σ ω}

theorem tries_done : Tries I A (done : Session ε σ ω) := fun _ hs => ⟨hs, nofun⟩

theorem tries_fail (e : ε) : Tries I A (fail e : Session ε σ ω) :=
  fun _ hs => ⟨hs, nofun⟩

theorem tries_read (h : ∀ s, I s → Tries I A (f s)) :
    Tries I A (read f) :=
  fun s hs => h s hs s hs

theorem tries_execute (h : ∀ s s', I s → t s = .ok s' → I s') :
    Tries I A (execute t : Session ε σ ω) := by
  intro s hs
  refine ⟨keeps_execute (ω := ω) h s hs, fun x hx => ?_⟩
  unfold execute at hx
  split at hx <;> cases hx

theorem tries_transact (h : ∀ s s', I s → t s = .ok s' → I s') (ha : ∀ s, I s → A s label) :
    Tries I A (transact label t) := by
  intro s hs
  refine ⟨keeps_transact h s hs, fun x hx => ?_⟩
  have hx' : x = (s, label) := by
    unfold transact at hx
    split at hx <;> exact List.mem_singleton.mp hx
  rw [hx']
  exact ha s hs

theorem Tries.andThen (hp : Tries I A p) (hq : Tries I A q) : Tries I A (p.andThen q) := by
  intro s hs
  cases he : (p s).error with
  | some e =>
    rw [andThen_of_error he]
    exact hp s hs
  | none =>
    rw [andThen_of_none he]
    obtain ⟨hmid, hfirst⟩ := hp s hs
    obtain ⟨hend, hsecond⟩ := hq _ hmid
    refine ⟨hend, fun x hx => ?_⟩
    rcases List.mem_append.mp hx with hx | hx
    · exact hfirst x hx
    · exact hsecond x hx

theorem closed_tries (I : σ → Prop) (A : σ → ω → Prop) :
    Closed (Tries I A : Session ε σ ω → Prop) :=
  ⟨tries_done, fun h => tries_read fun s _ => h s, Tries.andThen⟩

end Tries

/-! ## When a session is not stopped -/

/-- From a state with `I`, the session is not stopped if each transaction it tries is
acceptable where it is tried; and it keeps `I`. -/
def Completes (I : σ → Prop) (A : σ → ω → Prop) (p : Session ε σ ω) : Prop :=
  ∀ s, I s → (∀ x ∈ (p s).tried, A x.1 x.2) → (p s).error = none ∧ I (p s).state

section Completes

variable {I : σ → Prop} {A : σ → ω → Prop} {p q : Session ε σ ω}

theorem completes_done : Completes I A (done : Session ε σ ω) := fun _ hs _ => ⟨rfl, hs⟩

theorem completes_read (h : ∀ s, I s → Completes I A (f s)) :
    Completes I A (read f) :=
  fun s hs ha => h s hs s hs ha

theorem completes_execute (h : ∀ s, I s → ∃ s', t s = .ok s' ∧ I s') :
    Completes I A (execute t : Session ε σ ω) := by
  intro s hs _
  obtain ⟨s', hok, hI⟩ := h s hs
  simp only [execute, hok]
  exact ⟨trivial, hI⟩

theorem completes_transact
    (h : ∀ s, I s → A s label → ∃ s', t s = .ok s' ∧ I s') : Completes I A (transact label t) := by
  intro s hs ha
  have hacceptable : A s label := by
    refine ha (s, label) ?_
    unfold transact
    split <;> exact List.mem_singleton_self _
  obtain ⟨s', hok, hI⟩ := h s hs hacceptable
  simp only [transact, hok]
  exact ⟨trivial, hI⟩

/-- After a part that is not stopped, the rest goes on from the state it has left. -/
theorem goes_on (hp : (∀ x ∈ (p s).tried, A x.1 x.2) → (p s).error = none)
    (ha : ∀ x ∈ ((p.andThen q) s).tried, A x.1 x.2) :
    (∀ x ∈ (p s).tried, A x.1 x.2) ∧ (∀ x ∈ (q (p s).state).tried, A x.1 x.2) ∧
      ((p.andThen q) s).error = (q (p s).state).error ∧
      ((p.andThen q) s).state = (q (p s).state).state := by
  cases he : (p s).error with
  | some e =>
    rw [andThen_of_error he] at ha
    have hnone := hp ha
    rw [he] at hnone
    cases hnone
  | none =>
    rw [andThen_of_none he] at ha ⊢
    exact ⟨fun x hx => ha x (List.mem_append_left _ hx),
      fun x hx => ha x (List.mem_append_right _ hx), rfl, rfl⟩

theorem Completes.andThen (hp : Completes I A p) (hq : Completes I A q) :
    Completes I A (p.andThen q) := by
  intro s hs ha
  obtain ⟨hfirst, hrest, herror, hstate⟩ := goes_on (fun h => (hp s hs h).1) ha
  rw [herror, hstate]
  exact hq _ (hp s hs hfirst).2 hrest

theorem closed_completes (I : σ → Prop) (A : σ → ω → Prop) :
    Closed (Completes I A : Session ε σ ω → Prop) :=
  ⟨completes_done, fun h => completes_read fun s _ => h s, Completes.andThen⟩

end Completes

/-- A loop whose transactions are acceptable runs to its end; `J` says what holds
when the elements of a list are left. -/
theorem forEach_run {A : σ → ω → Prop} {f : α → Session ε σ ω} (J : List α → σ → Prop)
    (step : ∀ a l s, J (a :: l) s → (∀ x ∈ (f a s).tried, A x.1 x.2) →
      (f a s).error = none ∧ J l (f a s).state) (hJ : J l s)
    (ha : ∀ x ∈ (forEach l f s).tried, A x.1 x.2) :
    (forEach l f s).error = none ∧ J [] (forEach l f s).state := by
  induction l generalizing s with
  | nil => exact ⟨rfl, hJ⟩
  | cons a l ih =>
    rw [forEach_cons] at ha ⊢
    obtain ⟨hfirst, hrest, herror, hstate⟩ := goes_on (fun h => (step a l s hJ h).1) ha
    rw [herror, hstate]
    exact ih (step a l s hJ hfirst).2 hrest

/-! ## What a transaction of a kind leads to -/

/-- As long as transactions are acceptable, the session keeps `P`; it keeps `Q`, and `Q` holds
once a transaction of the kind was tried. -/
def Leads (P Q : σ → Prop) (kind : ω → Prop) (A : σ → ω → Prop) (p : Session ε σ ω) : Prop :=
  ∀ s, P s → (∀ x ∈ (p s).tried, A x.1 x.2) →
    P (p s).state ∧ (Q s ∨ (∃ x ∈ (p s).tried, kind x.2) → Q (p s).state)

section Leads

variable {P Q : σ → Prop} {kind : ω → Prop} {A : σ → ω → Prop} {p q : Session ε σ ω}

theorem leads_done : Leads P Q kind A (done : Session ε σ ω) :=
  fun _ hs _ => ⟨hs, fun h => h.elim id fun ⟨_, hx, _⟩ => by cases hx⟩

theorem leads_fail (e : ε) : Leads P Q kind A (fail e : Session ε σ ω) :=
  fun _ hs _ => ⟨hs, fun h => h.elim id fun ⟨_, hx, _⟩ => by cases hx⟩

/-- A statement that keeps both. -/
theorem leads_execute (hP : ∀ s s', P s → t s = .ok s' → P s')
    (hQ : ∀ s s', Q s → t s = .ok s' → Q s') :
    Leads P Q kind A (execute t : Session ε σ ω) := by
  intro s hs _
  unfold execute
  split
  · next s' hok =>
    exact ⟨hP s s' hs hok, fun h => h.elim (hQ s s' · hok) fun ⟨_, hx, _⟩ => by cases hx⟩
  · exact ⟨hs, fun h => h.elim id fun ⟨_, hx, _⟩ => by cases hx⟩

/-- A transaction of the kind must commit. -/
theorem leads_transact
    (hok : ∀ s s', P s → A s label → t s = .ok s' → P s' ∧ (Q s ∨ kind label → Q s'))
    (hkind : ∀ s, P s → A s label → kind label → ∃ s', t s = .ok s') :
    Leads P Q kind A (transact label t) := by
  intro s hs ha
  have hone : (transact label t s).tried = [(s, label)] := by
    unfold transact
    split <;> rfl
  have hlabel : A s label := ha (s, label) (by rw [hone]; exact List.mem_singleton_self _)
  rw [hone]
  simp only [List.mem_singleton, exists_eq_left]
  unfold transact
  split
  · next s' hs' => exact hok s s' hs hlabel hs'
  · next e he =>
    refine ⟨hs, fun h => h.elim id fun hk => ?_⟩
    obtain ⟨s', hs'⟩ := hkind s hs hlabel hk
    rw [he] at hs'
    cases hs'

theorem Leads.andThen (hp : Leads P Q kind A p) (hq : Leads P Q kind A q) :
    Leads P Q kind A (p.andThen q) := by
  intro s hs ha
  cases he : (p s).error with
  | some e =>
    rw [andThen_of_error he] at ha ⊢
    exact hp s hs ha
  | none =>
    rw [andThen_of_none he] at ha ⊢
    obtain ⟨hmid, hfirst⟩ := hp s hs fun x hx => ha x (List.mem_append_left _ hx)
    obtain ⟨hend, hsecond⟩ := hq _ hmid fun x hx => ha x (List.mem_append_right _ hx)
    refine ⟨hend, fun h => hsecond ?_⟩
    rcases h with hQ | ⟨x, hx, hk⟩
    · exact .inl (hfirst (.inl hQ))
    · rcases List.mem_append.mp hx with hx | hx
      · exact .inl (hfirst (.inr ⟨x, hx, hk⟩))
      · exact .inr ⟨x, hx, hk⟩

theorem closed_leads (P Q : σ → Prop) (kind : ω → Prop) (A : σ → ω → Prop) :
    Closed (Leads P Q kind A : Session ε σ ω → Prop) :=
  ⟨leads_done, fun h s => h s s, Leads.andThen⟩

end Leads

/-! ## How often a session tries something -/

/-- From a state with `I`, the session tries at most `n` transactions of the kind; and it
keeps `I`. -/
def TriesAtMost (I : σ → Prop) (kind : ω → Bool) (n : Nat) (p : Session ε σ ω) : Prop :=
  ∀ s, I s → I (p s).state ∧ (p s).tried.countP (fun x => kind x.2) ≤ n

section TriesAtMost

variable {I : σ → Prop} {kind : ω → Bool} {n m : Nat} {p q : Session ε σ ω}

theorem TriesAtMost.mono (h : TriesAtMost I kind n p) (hle : n ≤ m) : TriesAtMost I kind m p :=
  fun s hs => ⟨(h s hs).1, Nat.le_trans (h s hs).2 hle⟩

/-- A session that tries none of the kind unless `c`. -/
theorem TriesAtMost.ite {c : Prop} [Decidable c] (h : TriesAtMost I kind n p)
    (hnone : ¬ c → TriesAtMost I kind 0 p) : TriesAtMost I kind (if c then n else 0) p := by
  split
  · exact h
  · next hc => exact hnone hc

theorem triesAtMost_done : TriesAtMost I kind n (done : Session ε σ ω) :=
  fun _ hs => ⟨hs, Nat.zero_le n⟩

theorem triesAtMost_fail (e : ε) : TriesAtMost I kind n (fail e : Session ε σ ω) :=
  fun _ hs => ⟨hs, Nat.zero_le n⟩

theorem triesAtMost_read (h : ∀ s, I s → TriesAtMost I kind n (f s)) :
    TriesAtMost I kind n (read f) :=
  fun s hs => h s hs s hs

theorem triesAtMost_execute (h : ∀ s s', I s → t s = .ok s' → I s') :
    TriesAtMost I kind n (execute t : Session ε σ ω) := by
  intro s hs
  refine ⟨keeps_execute (ω := ω) h s hs, ?_⟩
  unfold execute
  split <;> exact Nat.zero_le n

theorem triesAtMost_transact
    (h : ∀ s s', I s → t s = .ok s' → I s') (hn : kind label = true → 1 ≤ n) :
    TriesAtMost I kind n (transact label t) := by
  intro s hs
  refine ⟨keeps_transact h s hs, ?_⟩
  have hone : [(s, label)].countP (fun x => kind x.2) ≤ n := by
    rw [List.countP_singleton]
    split
    · next hkind => exact hn hkind
    · exact Nat.zero_le n
  unfold transact
  split <;> exact hone

theorem TriesAtMost.andThen (hp : TriesAtMost I kind n p) (hq : TriesAtMost I kind m q) :
    TriesAtMost I kind (n + m) (p.andThen q) := by
  intro s hs
  cases he : (p s).error with
  | some e =>
    rw [andThen_of_error he]
    exact hp.mono (Nat.le_add_right n m) s hs
  | none =>
    obtain ⟨hmid, hfirst⟩ := hp s hs
    obtain ⟨hend, hsecond⟩ := hq _ hmid
    rw [andThen_of_none he, List.countP_append]
    exact ⟨hend, Nat.add_le_add hfirst hsecond⟩

theorem closed_triesNone (I : σ → Prop) (kind : ω → Bool) :
    Closed (TriesAtMost I kind 0 : Session ε σ ω → Prop) :=
  ⟨triesAtMost_done, fun h => triesAtMost_read fun s _ => h s, TriesAtMost.andThen⟩

/-- A loop tries a kind at most once for each element that gives rise to it. -/
theorem triesAtMost_forEach {f : α → Session ε σ ω} (c : α → Bool)
    (h : ∀ a ∈ l, TriesAtMost I kind (if c a then 1 else 0) (f a)) :
    TriesAtMost I kind (l.countP c) (forEach l f) := by
  induction l with
  | nil => exact triesAtMost_done
  | cons a l ih =>
    have hrest := ih fun b hb => h b (List.mem_cons_of_mem a hb)
    rw [List.countP_cons, Nat.add_comm]
    exact (h a List.mem_cons_self).andThen hrest

end TriesAtMost

/-! ## What a session comes to -/

/-- The session was stopped by an error of a kind, or tried a transaction of a kind. -/
def Exposes (E : ε → Prop) (A : σ → ω → Prop) (o : Outcome ε σ ω) : Prop :=
  (∃ e ∈ o.error, E e) ∨ ∃ x ∈ o.tried, A x.1 x.2

section Exposes

variable {E : ε → Prop} {A : σ → ω → Prop} {p q : Session ε σ ω} {s : σ}

theorem exposes_fail {e : ε} (he : E e) : Exposes E A (fail e s : Outcome ε σ ω) :=
  .inl ⟨e, rfl, he⟩

theorem exposes_transact (ha : A s label) :
    Exposes E A (transact label t s) := by
  refine .inr ⟨(s, label), ?_, ha⟩
  unfold transact
  split <;> exact List.mem_singleton_self _

theorem Exposes.andThen (h : Exposes E A (p s)) : Exposes E A ((p.andThen q) s) := by
  cases he : (p s).error with
  | some e =>
    rw [andThen_of_error he]
    exact h
  | none =>
    rw [andThen_of_none he]
    rcases h with ⟨e, hstop, -⟩ | ⟨x, hx, hA⟩
    · rw [he] at hstop
      cases hstop
    · exact .inr ⟨x, List.mem_append_left _ hx, hA⟩

theorem Exposes.after (he : (p s).error = none) (h : Exposes E A (q (p s).state)) :
    Exposes E A ((p.andThen q) s) := by
  rw [andThen_of_none he]
  exact h.imp_right fun ⟨x, hx, hA⟩ => ⟨x, List.mem_append_right _ hx, hA⟩

/-- A part that runs to its end, and one that comes to something after it. -/
theorem Completes.exposes {I : σ → Prop} (hp : Completes I (fun _ _ => True) p)
    (hq : ∀ s, I s → Exposes E A (q s)) (hs : I s) : Exposes E A ((p.andThen q) s) := by
  obtain ⟨he, hmid⟩ := hp s hs fun _ _ => trivial
  exact .after he (hq _ hmid)

/-- A loop comes to what one of its elements comes to, if the ones before it run to their ends;
`J` says what holds when the elements of a list are left. -/
theorem exposes_forEach {f : α → Session ε σ ω} (J : List α → σ → Prop) {a : α}
    (hothers : ∀ b l s, J (b :: l) s → b ≠ a → (f b s).error = none ∧ J l (f b s).state)
    (h : ∀ l s, J (a :: l) s → Exposes E A (f a s)) (ha : a ∈ l)
    (hs : J l s) : Exposes E A (forEach l f s) := by
  induction l generalizing s with
  | nil => cases ha
  | cons b l ih =>
    rw [forEach_cons]
    by_cases hb : b = a
    · subst hb
      exact (h l s hs).andThen
    · obtain ⟨he, hrest⟩ := hothers b l s hs hb
      have hmem : a ∈ l := (List.mem_cons.mp ha).resolve_left fun hab => hb hab.symm
      exact .after he (ih hmem hrest)

/-- The same where the other elements keep `I`. -/
theorem exposes_of_completes {I : σ → Prop} {f : α → Session ε σ ω} {a : α}
    (hothers : ∀ b ∈ l, b ≠ a → Completes I (fun _ _ => True) (f b))
    (h : ∀ s, I s → Exposes E A (f a s)) (ha : a ∈ l) (hs : I s) :
    Exposes E A (forEach l f s) := by
  refine exposes_forEach (fun l' s => I s ∧ ∀ b ∈ l', b ∈ l) (fun b l' s hJ hb => ?_)
    (fun _ s hJ => h s hJ.1) ha ⟨hs, fun _ hb => hb⟩
  obtain ⟨he, hI⟩ := hothers b (hJ.2 b List.mem_cons_self) hb s hJ.1 fun _ _ => trivial
  exact ⟨he, hI, fun c hc => hJ.2 c (List.mem_cons_of_mem b hc)⟩

end Exposes

end Session

end Relational
