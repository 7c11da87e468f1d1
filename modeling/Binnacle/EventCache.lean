import Mathlib.Data.List.Induction

/-!
# Caches kept by events

A cached value of some truth that changes, and the events that tell of the
changes: an event may fetch the truth again, patch the cached value, drop it, or
mean nothing to the cache. Events are handled later than the changes happen, so
what matters is the value once the events that are under way have been handled.

- `settle_eq`: unless it is dropped, that value is the truth or the cached value,
  as some event fetches it or none does, under the patches that come after.
-/

namespace EventCache

universe u

variable {β : Type u}

/-- What an event does to a cached value. -/
inductive Effect (β : Type u) where
  /-- Fetch the truth; if there is none, nothing happens. -/
  | refresh
  | patch (f : β → β)
  | remove
  | ignore

/-- The cached value after an event. -/
def Effect.apply (truth : Option β) : Effect β → Option β → Option β
  | .refresh, entry => truth.or entry
  | .patch f, entry => entry.map f
  | .remove, _ => none
  | .ignore, entry => entry

/-- The cached value after some events, when the truth does not change meanwhile. -/
def settle (truth : Option β) (effects : List (Effect β)) (entry : Option β) : Option β :=
  effects.foldl (fun entry e => e.apply truth entry) entry

def Effect.isRefresh : Effect β → Bool
  | .refresh => true
  | _ => false

def Effect.isPatch : Effect β → Bool
  | .patch _ => true
  | _ => false

def Effect.isRemove : Effect β → Bool
  | .remove => true
  | _ => false

/-- The patch an event adds to those before it; a refresh undoes them. -/
def Effect.after : Effect β → (β → β) → β → β
  | .refresh, _ => id
  | .patch f, g => f ∘ g
  | _, g => g

/-- The patches after the last refresh, as one. -/
def patches (effects : List (Effect β)) : β → β := effects.foldl (fun g e => e.after g) id

theorem settle_append (truth : Option β) (effects effects' : List (Effect β)) (entry : Option β) :
    settle truth (effects ++ effects') entry
      = settle truth effects' (settle truth effects entry) := by
  simp [settle]

theorem patches_snoc (effects : List (Effect β)) (e : Effect β) :
    patches (effects ++ [e]) = e.after (patches effects) := by
  simp [patches]

theorem patches_of_not_patch {effects : List (Effect β)}
    (h : ∀ e ∈ effects, e.isPatch = false) : patches effects = id := by
  induction effects using List.reverseRecOn with
  | nil => rfl
  | append_singleton effects e ih =>
    have hlast := h e (by simp)
    rw [patches_snoc, ih fun e' he' => h e' (List.mem_append_left _ he')]
    cases e with
    | patch f => cases hlast
    | _ => rfl

/-- Without removals, the events leave the truth or the old value, patched. -/
theorem settle_eq (t : β) {effects : List (Effect β)}
    (hremove : ∀ e ∈ effects, e.isRemove = false) (entry : Option β) :
    settle (some t) effects entry
      = (if effects.any Effect.isRefresh then some t else entry).map (patches effects) := by
  -- on the last event: the patches are counted from there
  induction effects using List.reverseRecOn with
  | nil => simp [settle, patches]
  | append_singleton effects e ih =>
    have hbefore : ∀ e ∈ effects, e.isRemove = false :=
      fun e' he' => hremove e' (List.mem_append_left _ he')
    have hlast := hremove e (by simp)
    rw [settle_append, ih hbefore, patches_snoc]
    cases e with
    | refresh => simp [settle, Effect.apply, Effect.after, Effect.isRefresh]
    | patch f =>
      simp only [settle, List.foldl_cons, List.foldl_nil, Effect.apply, Effect.after,
        List.any_append, List.any_cons, List.any_nil, Effect.isRefresh, Bool.or_false,
        Option.map_map]
    | remove => cases hlast
    | ignore => simp [settle, Effect.apply, Effect.after, Effect.isRefresh]

end EventCache
