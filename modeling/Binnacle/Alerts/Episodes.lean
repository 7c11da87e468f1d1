import Binnacle.Alerts.Lifecycle
import Binnacle.Alerts.Pass

/-!
# The episodes of a key

Each row of `alerts` is an episode of its dedup key, from the transition that triggered it to
the one that resolved it. Over any sequence of passes at times that do not decrease, with
anything else done in between to rules, observations, silences, grace periods and events:

- `evaluate_recorded`: an evaluation begins an episode, ends the one that runs, or leaves them;
- `Mirrors`: one episode runs exactly while the phase is firing or recovering, and the episodes
  of a key follow one another;
- `alerts_mirror_phase`: this holds in every database reached.

Events are among what may change, because the event of a trigger stands in the way of the
resolution (`Consistent.refused_of_resolved`): only where it is gone an episode ends.
-/

namespace Binnacle.Alerts

open Relational Runs Storage Notifications

/-! ## What an evaluation does to the alerts -/

def firingRows (db : Database) (key : String) : List AlertRow :=
  db.alerts.rows.filter fun a => a.dedupKey = key && a.status = .firing

def EndsBy (a : AlertRow) (t : Int) : Prop :=
  a.status = .resolved ∧ ∃ ended ∈ a.resolvedAt, ended ≤ t

structure KeepsEpisode (f : AlertRow → AlertRow) : Prop where
  id : ∀ a, (f a).id = a.id
  dedupKey : ∀ a, (f a).dedupKey = a.dedupKey
  status : ∀ a, (f a).status = a.status
  startedAt : ∀ a, (f a).startedAt = a.startedAt
  resolvedAt : ∀ a, (f a).resolvedAt = a.resolvedAt

theorem keepsEpisode_id : KeepsEpisode id :=
  ⟨fun _ => rfl, fun _ => rfl, fun _ => rfl, fun _ => rfl, fun _ => rfl⟩

variable {a : AlertRow} {sink : Option Repository} {f : AlertRow → AlertRow}

theorem KeepsEpisode.endsBy (hf : KeepsEpisode f) {t : Int} :
    EndsBy (f a) t ↔ EndsBy a t := by
  unfold EndsBy
  rw [hf.status, hf.resolvedAt]

inductive Recorded (env : Ambient) (o : Observation) (db db' : Database) : Prop where
  | triggered (level : Level) : (o.answer db).triggered = true →
      (∀ a ∈ db.alerts.rows, a.dedupKey = o.key → a.startedAt ≠ unix o.now) →
      db'.alerts.rows = db.alerts.rows ++ [alertRow env o level] → Recorded env o db db'
  | resolved (a : AlertRow) : (o.answer db).resolved = true → firingAlert db o.key = some a →
      db'.alerts = (resolveAlert db a.id o.now).alerts → Recorded env o db db'
  | kept (f : AlertRow → AlertRow) : (o.answer db).triggered = false →
      ((o.answer db).resolved = true → firingAlert db o.key = none) → KeepsEpisode f →
      (∀ a, a.dedupKey ≠ o.key → f a = a) → db'.alerts.rows = db.alerts.rows.map f →
      Recorded env o db db'

theorem evaluate_recorded {env : Ambient} {db db' : Database} {o : Observation}
    (h : evaluate sink env db o = .ok db') : Recorded env o db db' := by
  cases ht : (o.answer db).triggered with
  | true =>
    obtain ⟨⟨level, hlevel, hrows⟩, -⟩ := evaluate_triggered h ht
    have hrefused : refused db o = false := by
      rw [Bool.eq_false_iff]
      exact fun hrefused => evaluate_refused hrefused db' h
    refine .triggered level ht (fun a ha hkey hstart => ?_) hrows
    simp only [refused, ht, Bool.or_eq_false_iff, Bool.true_and] at hrefused
    have hfree := List.any_eq_false.mp hrefused.1.2.2 a ha
    simp [hkey, hstart] at hfree
  | false =>
    obtain ⟨mid, h₁, h₂⟩ := evaluate_ok h
    rw [(storeState_ok h₁).2, recordTransition, if_neg (by simp [ht])] at h₂
    have hkept : ∀ {db' : Database}, db'.alerts = db.alerts →
        ((o.answer db).resolved = true → firingAlert db o.key = none) → Recorded env o db db' :=
      fun halerts hr =>
        .kept id ht hr keepsEpisode_id (fun _ _ => rfl) (by rw [halerts, List.map_id])
    split at h₂
    · next hrepeated =>
      refine hkept (by rw [(insertEvent_ok h₂).2.2]; rfl) fun hr => ?_
      have hnot : (o.answer db).repeated = false := ((o.advances db).resolved_only hr).2
      rw [hnot] at hrepeated
      cases hrepeated
    · split at h₂
      · next hr =>
        rcases recordResolved_ok h₂ with ⟨hnone, rfl⟩ | ⟨a, ha, -, halerts, -⟩
        · exact hkept rfl fun _ => hnone
        · exact .resolved a hr ha halerts
      · next hr =>
        split at h₂
        · cases h₂
          refine .kept _ ht (fun hr' => absurd hr' hr) ⟨fun a => ?_, fun a => ?_, fun a => ?_,
            fun a => ?_, fun a => ?_⟩ (fun a hother => if_neg (by simp [hother])) rfl
          all_goals split <;> rfl
        · cases h₂
          exact hkept rfl fun hr' => absurd hr' hr

/-! ## Alerts and phases -/

/-- One of two episodes has ended when the other begins. -/
def Follow (a b : AlertRow) : Prop :=
  (a.startedAt < b.startedAt ∧ EndsBy a b.startedAt) ∨
    (b.startedAt < a.startedAt ∧ EndsBy b a.startedAt)

/-- A key has one firing alert while its phase is firing or recovering and none otherwise, and
its alerts follow one another; nothing has happened after the time given. -/
structure Mirrors (now : Time) (db : Database) : Prop where
  count : ∀ key, (firingRows db key).length = if (phaseOf db key).Active then 1 else 0
  started : ∀ a ∈ db.alerts.rows, a.startedAt ≤ unix now
  ended : ∀ a ∈ db.alerts.rows, a.status = .firing ∨ EndsBy a (unix now)
  follow : ∀ a ∈ db.alerts.rows, ∀ b ∈ db.alerts.rows, a.dedupKey = b.dedupKey → a ≠ b → Follow a b

theorem EndsBy.mono {t t' : Int} (h : EndsBy a t) (hle : t ≤ t') : EndsBy a t' := by
  obtain ⟨hstatus, ended, hended, hby⟩ := h
  exact ⟨hstatus, ended, hended, Int.le_trans hby hle⟩

theorem EndsBy.not_firing {t : Int} (h : EndsBy a t) : a.status ≠ .firing := by
  rw [h.1]
  exact nofun

theorem Follow.symm {b : AlertRow} (h : Follow a b) : Follow b a := Or.symm h

section Mirrors

variable {now : Time} {db db' : Database} {o : Observation} {sink : Option Repository}
  {env : Ambient} {key : String} {a : AlertRow}

theorem Mirrors.mono {now' : Time} (h : Mirrors now db) (hle : now ≤ now') : Mirrors now' db where
  count := h.count
  started a ha := Int.le_trans (h.started a ha) (unix_mono hle)
  ended a ha := (h.ended a ha).imp_right fun hended => hended.mono (unix_mono hle)
  follow := h.follow

theorem Mirrors.of_eq (h : Mirrors now db) (halerts : db'.alerts = db.alerts)
    (hstates : db'.alertEvaluationState = db.alertEvaluationState) : Mirrors now db' where
  count key := by
    have hcount := h.count key
    unfold firingRows phaseOf loadState at hcount ⊢
    rw [halerts, hstates]
    exact hcount
  started := by
    rw [halerts]
    exact h.started
  ended := by
    rw [halerts]
    exact h.ended
  follow := by
    rw [halerts]
    exact h.follow

theorem mem_firingRows :
    a ∈ firingRows db key ↔ a ∈ db.alerts.rows ∧ a.dedupKey = key ∧ a.status = .firing := by
  unfold firingRows
  rw [List.mem_filter, Bool.and_eq_true, decide_eq_true_eq, decide_eq_true_eq]

theorem Mirrors.not_firing (h : Mirrors now db) (hkey : ¬ (phaseOf db key).Active) :
    ∀ a ∈ db.alerts.rows, a.dedupKey = key → a.status ≠ .firing := by
  intro a ha hdedup hfiring
  have hcount := h.count key
  rw [if_neg hkey] at hcount
  have hmem : a ∈ firingRows db key := mem_firingRows.mpr ⟨ha, hdedup, hfiring⟩
  rw [List.length_eq_zero_iff.mp hcount] at hmem
  cases hmem

theorem firingAlert_eq (h : firingAlert db key = some a) :
    a ∈ firingRows db key := by
  have hmem := List.mem_of_mem_head? h
  exact (List.perm_insertionSort _ _).mem_iff.mp hmem

theorem firingAlert_none (h : firingAlert db key = none) : firingRows db key = [] := by
  have hnil := List.head?_eq_none_iff.mp h
  have hperm := List.perm_insertionSort (fun a b : AlertRow => b.startedAt ≤ a.startedAt)
    (firingRows db key)
  unfold firingRows at hperm ⊢
  rw [hnil] at hperm
  exact hperm.symm.eq_nil

theorem count_of_evaluate (h : Mirrors now db) (hok : evaluate sink env db o = .ok db')
    (hother : ∀ key, o.key ≠ key → (firingRows db' key).length = (firingRows db key).length)
    (hown : (firingRows db' o.key).length = if (o.answer db).state.phase.Active then 1 else 0) :
    ∀ key, (firingRows db' key).length = if (phaseOf db' key).Active then 1 else 0 := by
  intro key
  rw [phaseOf_evaluate hok]
  by_cases hkey : o.key = key
  · subst hkey
    rw [if_pos rfl]
    exact hown
  · rw [if_neg hkey, hother key hkey]
    exact h.count key

section Evaluated

variable (h : Mirrors now db) (hnow : now ≤ o.now) (hok : evaluate sink env db o = .ok db')

include h hnow hok

theorem Mirrors.of_triggered {level : Level} (ht : (o.answer db).triggered = true)
    (hfree : ∀ a ∈ db.alerts.rows, a.dedupKey = o.key → a.startedAt ≠ unix o.now)
    (hrows : db'.alerts.rows = db.alerts.rows ++ [alertRow env o level]) : Mirrors o.now db' := by
  have h' := h.mono hnow
  have hpending : phaseOf db o.key = .pending := by
    rw [← loadState_phase db o.key o.now]
    exact (advance_triggered_iff.mp ht).1
  have hquiet : ¬ (phaseOf db o.key).Active := by
    rw [hpending]
    decide
  have hfiring : ∀ key, firingRows db' key =
      firingRows db key ++ if o.key = key then [alertRow env o level] else [] := by
    intro key
    unfold firingRows
    rw [hrows, List.filter_append]
    by_cases hkey : o.key = key
    · rw [if_pos hkey, List.filter_cons_of_pos (by simp [alertRow, hkey]), List.filter_nil]
    · rw [if_neg hkey, List.filter_cons_of_neg (by simp [alertRow, hkey]), List.filter_nil]
  -- the alerts of the key before this one have all ended
  have hbefore : ∀ a ∈ db.alerts.rows, a.dedupKey = o.key → Follow a (alertRow env o level) := by
    intro a ha hdedup
    have hlt : a.startedAt < unix o.now := lt_of_le_of_ne (h'.started a ha) (hfree a ha hdedup)
    have hended := (h'.ended a ha).resolve_left (h.not_firing hquiet a ha hdedup)
    exact .inl ⟨hlt, hended⟩
  refine ⟨count_of_evaluate h hok (fun key hkey => ?_) ?_, fun a ha => ?_, fun a ha => ?_,
    fun a ha b hb hdedup hne => ?_⟩
  · rw [hfiring, if_neg hkey, List.append_nil]
  · have hcount := h.count o.key
    rw [if_neg hquiet] at hcount
    rw [hfiring, if_pos rfl, List.length_append, hcount, (o.advances db).firing_of_triggered ht]
    rfl
  · rcases mem_snoc hrows ha with ha | rfl
    · exact h'.started a ha
    · exact Int.le_refl _
  · rcases mem_snoc hrows ha with ha | rfl
    · exact h'.ended a ha
    · exact .inl rfl
  · rcases mem_snoc hrows ha with ha | rfl
    · rcases mem_snoc hrows hb with hb | rfl
      · exact h.follow a ha b hb hdedup hne
      · exact hbefore a ha hdedup
    · rcases mem_snoc hrows hb with hb | rfl
      · exact (hbefore b hb hdedup.symm).symm
      · exact absurd rfl hne

omit hok in
/-- Where alerts only change such that episodes begin when they did and none that has ended runs
again, the counts and the ends of episodes are left to show. -/
theorem Mirrors.of_map (hkey : ∀ a, (f a).dedupKey = a.dedupKey)
    (hstart : ∀ a, (f a).startedAt = a.startedAt)
    (hends : ∀ a ∈ db.alerts.rows, ∀ t, EndsBy a t → EndsBy (f a) t)
    (hstatus : ∀ a ∈ db.alerts.rows, (f a).status = a.status ∨ EndsBy (f a) (unix o.now))
    (hrows : db'.alerts.rows = db.alerts.rows.map f)
    (hcount : ∀ key, (firingRows db' key).length = if (phaseOf db' key).Active then 1 else 0) :
    Mirrors o.now db' := by
  have h' := h.mono hnow
  have hmem : ∀ {a}, a ∈ db'.alerts.rows → ∃ b ∈ db.alerts.rows, f b = a := by
    intro a ha
    rw [hrows] at ha
    exact List.mem_map.mp ha
  refine ⟨hcount, fun a ha => ?_, fun a ha => ?_, fun a ha b hb hdedup hne => ?_⟩
  · obtain ⟨b, hb, rfl⟩ := hmem ha
    rw [hstart]
    exact h'.started b hb
  · obtain ⟨b, hb, rfl⟩ := hmem ha
    rcases hstatus b hb with hsame | hended
    · rw [hsame]
      exact (h'.ended b hb).imp_right (hends b hb _)
    · exact .inr hended
  · obtain ⟨a₀, ha₀, rfl⟩ := hmem ha
    obtain ⟨b₀, hb₀, rfl⟩ := hmem hb
    rw [hkey, hkey] at hdedup
    unfold Follow
    rw [hstart, hstart]
    exact (h.follow a₀ ha₀ b₀ hb₀ hdedup fun hab => hne (congrArg f hab)).imp
      (fun hbefore => ⟨hbefore.1, hends a₀ ha₀ _ hbefore.2⟩)
      fun hafter => ⟨hafter.1, hends b₀ hb₀ _ hafter.2⟩

theorem Mirrors.of_kept (ht : (o.answer db).triggered = false)
    (hr : (o.answer db).resolved = true → firingAlert db o.key = none) (hf : KeepsEpisode f)
    (hrows : db'.alerts.rows = db.alerts.rows.map f) : Mirrors o.now db' := by
  have hfiring : ∀ key, (firingRows db' key).length = (firingRows db key).length := by
    intro key
    unfold firingRows
    rw [hrows, List.filter_map, List.length_map]
    refine congrArg List.length (List.filter_congr fun a _ => ?_)
    rw [Function.comp_apply, hf.dedupKey, hf.status]
  refine h.of_map hnow hf.dedupKey hf.startedAt (fun _ _ _ => hf.endsBy.mpr)
    (fun a _ => .inl (hf.status a)) hrows (count_of_evaluate h hok (fun key _ => hfiring key) ?_)
  rw [hfiring]
  cases hb : (o.answer db).resolved with
  | true =>
    rw [firingAlert_none (hr hb), (o.advances db).healthy_of_resolved hb]
    rfl
  | false =>
    have hsame : (o.answer db).state.phase.Active ↔ (phaseOf db o.key).Active := by
      rw [← loadState_phase db o.key o.now]
      refine ((o.advances db).active_iff hb).trans (or_iff_right fun htrue => ?_)
      exact Bool.false_ne_true (ht.symm.trans htrue)
    rw [h.count]
    exact if_congr hsame.symm rfl rfl

def closedRow (a : AlertRow) (now : Time) : AlertRow :=
  { a with status := .resolved, resolvedAt := some (unix now), lastObservedAt := unix now }

theorem Mirrors.of_resolved (hr : (o.answer db).resolved = true)
    (ha : firingAlert db o.key = some a)
    (halerts : db'.alerts = (resolveAlert db a.id o.now).alerts) : Mirrors o.now db' := by
  have hin := firingAlert_eq ha
  obtain ⟨hmem, hdedup, hfiring⟩ := mem_firingRows.mp hin
  have hactive : (phaseOf db o.key).Active := by
    rw [← loadState_phase db o.key o.now]
    exact .inr (advance_resolved_iff.mp hr).1
  have hrows : db'.alerts.rows =
      db.alerts.rows.map fun b => if b.id = a.id then closedRow b o.now else b := by
    rw [halerts]
    exact List.map_congr_left fun b _ => if_congr decide_eq_true_iff rfl rfl
  -- the alert that ends no longer counts
  have hleft : ∀ key, (firingRows db' key).length =
      ((firingRows db key).filter fun b => b.id ≠ a.id).length := by
    intro key
    unfold firingRows
    rw [hrows, List.filter_map, List.length_map, List.filter_filter]
    refine congrArg List.length (List.filter_congr fun b _ => ?_)
    rw [Function.comp_apply]
    by_cases hid : b.id = a.id
    · simp [hid, closedRow]
    · simp [hid]
  refine h.of_map hnow (fun b => ?_) (fun b => ?_) (fun b hb t hended => ?_) (fun b hb => ?_) hrows
    (count_of_evaluate h hok (fun key hkey => ?_) ?_)
  · split <;> rfl
  · split <;> rfl
  · split
    · next hid =>
      rw [Table.eq_of_key_eq hb hmem hid] at hended
      exact absurd hfiring hended.not_firing
    · exact hended
  · split
    · exact .inr ⟨rfl, unix o.now, rfl, Int.le_refl _⟩
    · exact .inl rfl
  · rw [hleft, List.filter_eq_self.mpr]
    refine fun b hb => decide_eq_true fun hid => ?_
    obtain ⟨hb, hbkey, -⟩ := mem_firingRows.mp hb
    rw [Table.eq_of_key_eq hb hmem hid, hdedup] at hbkey
    exact hkey hbkey
  · have hcount := h.count o.key
    rw [if_pos hactive] at hcount
    obtain ⟨c, hc⟩ := List.length_eq_one_iff.mp hcount
    rw [hc, List.mem_singleton] at hin
    rw [hleft, hc, hin, (o.advances db).healthy_of_resolved hr]
    simp [Phase.Active]

theorem Mirrors.of_evaluate : Mirrors o.now db' := by
  cases evaluate_recorded hok with
  | triggered level ht hfree hrows => exact h.of_triggered hnow hok ht hfree hrows
  | resolved a hr ha halerts => exact h.of_resolved hnow hok hr ha halerts
  | kept f ht hr hf _ hrows => exact h.of_kept hnow hok ht hr hf hrows

end Evaluated

theorem Mirrors.of_cleanup (h : Mirrors now db) (at_ : Time) : Mirrors now (cleanup db at_) := by
  have hsub : ∀ a ∈ (cleanup db at_).alerts.rows, a ∈ db.alerts.rows :=
    fun a ha => (Table.mem_delete.mp ha).1
  refine ⟨fun key => ?_, fun a ha => h.started a (hsub a ha), fun a ha => h.ended a (hsub a ha),
    fun a ha b hb => h.follow a (hsub a ha) b (hsub b hb)⟩
  have hfiring : firingRows (cleanup db at_) key = firingRows db key := by
    unfold firingRows
    show ((db.alerts.rows.filter _).filter _) = _
    rw [List.filter_filter]
    refine List.filter_congr fun a _ => ?_
    cases hstatus : a.status with
    | firing => simp [hstatus]
    | resolved => simp [hstatus]
  rw [hfiring]
  exact h.count key

end Mirrors

/-! ## Sequences of passes -/

structure Watch where
  db : Database
  now : Time

inductive WatchStep where
  | pass (input : PassInput)
  | cleanup (now : Time)
  | edit (db : Database)

def watchStep (sink : Option Repository) (w : Watch) : WatchStep → Watch
  | .pass input => { db := (evaluatePass sink input w.db).state, now := input.now }
  | .cleanup now => { w with db := Alerts.cleanup w.db now }
  | .edit db => { w with db }

/-- The times of passes do not decrease, and only passes and cleanups write alerts and
evaluation states. -/
def WatchStep.Enabled (w : Watch) : WatchStep → Prop
  | .pass input => w.now ≤ input.now
  | .cleanup _ => True
  | .edit db => db.alerts = w.db.alerts ∧ db.alertEvaluationState = w.db.alertEvaluationState

def watches (sink : Option Repository) (start : Time) : System Watch WatchStep :=
  .ofStep { db := Database.empty, now := start } (watchStep sink) WatchStep.Enabled

theorem mirrors_evaluatePass {input : PassInput} {db : Database} (h : Mirrors input.now db) :
    Mirrors input.now (evaluatePass sink input db).state := by
  refine evaluatePass_keeps (I := Mirrors input.now) h ?_ ?_ ?_
  · intro db db' o families hdb ho hok
    rw [← ho.under.2] at hdb ⊢
    exact hdb.of_evaluate (Int.le_refl _) hok
  · exact fun db hdb => hdb.of_cleanup input.now
  · exact fun db gracePeriods hdb => hdb.of_eq rfl rfl

variable {w : Watch}

theorem mirrors_of_reachable {start : Time} (hw : (watches sink start).Reachable w) :
    Mirrors w.now w.db := by
  refine hw.invariant (fun w => Mirrors w.now w.db) ?_ ?_
  · exact ⟨fun _ => rfl, fun _ ha => (nomatch ha), fun _ ha => (nomatch ha),
      fun _ ha => (nomatch ha)⟩
  · rintro w step w' hw ⟨henabled, rfl⟩
    cases step with
    | pass input => exact mirrors_evaluatePass (hw.mono henabled)
    | cleanup now => exact hw.of_cleanup now
    | edit db => exact hw.of_eq henabled.1 henabled.2

/-- Firing rows mirror the phase. In every database that passes reach, whatever else is done to
rules, observations, silences, grace periods and events, each key has one firing alert while its
stored phase is firing or recovering and none otherwise, and of two alerts of a key the one that
started first was resolved when the other started, or before. -/
theorem alerts_mirror_phase {sink : Option Repository} {start : Time} {w : Watch}
    (hw : (watches sink start).Reachable w) (key : String) :
    (firingRows w.db key).length =
        (if phaseOf w.db key = .firing ∨ phaseOf w.db key = .recovering then 1 else 0) ∧
      ∀ a ∈ w.db.alerts.rows, ∀ b ∈ w.db.alerts.rows, a.dedupKey = key → b.dedupKey = key →
        a ≠ b → a.startedAt ≤ b.startedAt →
          a.status = .resolved ∧ ∃ ended ∈ a.resolvedAt, ended ≤ b.startedAt := by
  have hmirrors := mirrors_of_reachable hw
  refine ⟨hmirrors.count key, fun a ha b hb hakey hbkey hne hle => ?_⟩
  rcases hmirrors.follow a ha b hb (hakey.trans hbkey.symm) hne with ⟨-, hended⟩ | ⟨hlt, -⟩
  · exact hended
  · exact absurd hle (Int.not_le.mpr hlt)

/-! ### Two episodes of persistence -/

def withEvent (db : Database) (type : String) : Database :=
  { db with events := ⟨[{ id := "event", ts := 0, type, severity := "", summary := "", source := "",
                          createdAt := 0 }], List.nodup_singleton _⟩ }

def passOver (w : Watch) (type : String) (seconds : Int) : Watch :=
  [.edit (withEvent w.db type), .pass (passAt seconds)].foldl (watchStep (some {})) w

def degradedTwice : Watch :=
  [("persistence_degraded", 0), ("persistence_degraded", 10), ("persistence_resumed", 20),
      ("persistence_resumed", 90), ("persistence_degraded", 400),
      ("persistence_degraded", 410)].foldl
    (fun w p => passOver w p.1 p.2)
    (watchStep (some {}) { db := Database.empty, now := 0 } (.edit seeded.db))

theorem reachable_passOver (h : (watches (some {}) 0).Reachable w) (type : String)
    {seconds : Int} (hle : w.now ≤ seconds * second) :
    (watches (some {}) 0).Reachable (passOver w type seconds) := by
  refine Along.reachable ?_ h
  exact ⟨⟨rfl, rfl⟩, hle, trivial⟩

theorem reachable_passesOver (h : (watches (some {}) 0).Reachable w) {passes : List (String × Int)}
    (hchain : (w.now :: passes.map fun p => p.2 * second).IsChain (· ≤ ·)) :
    (watches (some {}) 0).Reachable (passes.foldl (fun w p => passOver w p.1 p.2) w) := by
  induction passes generalizing w with
  | nil => exact h
  | cons p passes ih =>
    rw [List.map_cons, List.isChain_cons_cons] at hchain
    exact ih (reachable_passOver h p.1 hchain.1) hchain.2

theorem reachable_degradedTwice : (watches (some {}) 0).Reachable degradedTwice := by
  have hseeded : (watches (some {}) 0).Reachable
      (watchStep (some {}) { db := Database.empty, now := 0 } (.edit seeded.db)) :=
    System.Reachable.init.next (a := .edit seeded.db) ⟨⟨rfl, rfl⟩, rfl⟩
  exact reachable_passesOver hseeded (by decide)

/-- The second episode begins when the first one has ended. -/
theorem alerts_mirror_phase_degraded :
    (degradedTwice.db.alerts.rows.map fun a => (a.startedAt, a.resolvedAt)) =
      [(10, some 90), (410, none)] ∧
    (firingRows degradedTwice.db (persistenceAt 0 true).key).length =
      (if phaseOf degradedTwice.db (persistenceAt 0 true).key = .firing ∨
        phaseOf degradedTwice.db (persistenceAt 0 true).key = .recovering then 1 else 0) :=
  ⟨by decide +kernel, (alerts_mirror_phase reachable_degradedTwice _).1⟩

end Binnacle.Alerts
