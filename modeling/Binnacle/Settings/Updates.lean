import Binnacle.Settings.Retention

/-!
# Concurrent updates of the settings

Calls of `Patch`, `SetRetentionPreset` and `Snapshot` interleaved with the second writer
of the table `settings`, `Configure` of `internal/coolify/integration.go`, and with
restarts of the process.

- A transaction is one step: `Patch` holds the lock of the service and the one connection
  of the database, and `Configure` the connection. `SetRetentionPreset` is a caller that
  reads `Current`, takes a snapshot and patches, with other steps in between (`Progress`).
- `settings_linearizable`: every world reached is coherent, and patches on it are atomic.

Not claimed: that the token and the URL of Coolify are written together; `Configure` writes
them in two transactions.
-/

namespace Binnacle.Settings

open Relational Layers Runs

/-! ## The second writer -/

/-- `ClientConfig` (client.go:31-35). -/
structure ClientConfig where
  baseURL : String
  token : String
  allowInsecureHTTP : Bool

/-- `NewAPIClient` (client.go:37-57), as far as it may refuse. -/
def newAPIClient (lib : Library) (config : ClientConfig) : Except String Unit :=
  if trimSpace config.token = "" then .error "Coolify API token is required"
  else
    match lib.parseURL (lib.trimRight config.baseURL "/") with
    | .error _ => .error "invalid Coolify URL"
    | .ok base =>
      if base.hostname = "" || base.hasUser then .error "invalid Coolify URL"
      else if base.scheme ≠ "https" && !(config.allowInsecureHTTP && base.scheme = "http") then
        .error "Coolify URL must use HTTPS"
      else .ok ()

/-- The statements of `Configure` that may fail. -/
inductive ConfigurePoint where
  | readSecret
  | beginTx
  | setting
  | commit
  | secret

/-- `Configure` (integration.go:102-139): the stored settings and the stored token it leaves.
The integration was made from the deployment's configuration (main.go:106); what `activate`
does afterwards touches neither. -/
def configure (lib : Library) (fails : ConfigurePoint → Bool) (now : Time) (available : Bool)
    (base : Config) (url token : String) (store : Store) (secret : Option String) :
    Store × Option String :=
  if base.coolify.url ≠ "" || base.coolify.apiToken ≠ "" then (store, secret)
  else if token ≠ "" && !available then (store, secret)
  else
    match if token = "" then if available && !fails .readSecret then secret else none
      else some token with
    | none => (store, secret)
    | some used =>
      match newAPIClient lib ⟨url, used, base.coolify.allowInsecureHTTP⟩ with
      | .error _ => (store, secret)
      | .ok () =>
        if fails .beginTx || fails .setting || fails .commit then (store, secret)
        else
          let raw := lib.marshal url
          let settings := store.settings.upsert ⟨"coolify.url", raw, unixMilli now, "admin"⟩
            (fun s => { s with valueJSON := raw, updatedAt := unixMilli now, updatedBy := "admin" })
            fun _ => rfl
          ({ store with settings },
            if token ≠ "" ∧ fails .secret = false then some token else secret)

/-! ## Interleavings -/

/-- How far a call of `SetRetentionPreset` has come. -/
inductive Progress where
  | idle
  /-- About to take a snapshot, with so many attempts left. -/
  | reading (preset actor : String) (attempts : Nat)
  | patching (preset actor : String) (attempts : Nat) (expected : Int)
  deriving DecidableEq

/-- The service, the stored token of Coolify and the callers of `SetRetentionPreset`. -/
structure World where
  service : Service
  secret : Option String
  callers : Nat → Progress

inductive Action where
  | patch (order : RowOrder) (fails : PatchPoint → Bool) (now : Time) (expected : Int)
      (changes : Values) (actor : String)
  | snapshot (order : RowOrder)
  | configure (fails : ConfigurePoint → Bool) (now : Time) (url token : String)
  | beginPreset (caller : Nat) (preset actor : String)
  | readPreset (caller : Nat) (order : RowOrder) (fails : Bool)
  | patchPreset (caller : Nat) (order : RowOrder) (fails : PatchPoint → Bool) (now : Time)
  | restart (order : RowOrder)

/-- One step; `available` says whether there is a master key. -/
def World.act (lib : Library) (available : Bool) (w : World) : Action → World
  | .patch order fails now expected changes actor =>
    { w with service := (w.service.patch lib order fails now expected changes actor).2 }
  | .snapshot _ => w
  | .configure fails now url token =>
    let (store, secret) := configure lib fails now available w.service.base url token
      w.service.store w.secret
    { w with service := { w.service with store }, secret }
  | .beginPreset caller preset actor =>
    if w.service.current.retention.preset = preset ∨ (retentionPreset preset).isNone then w
    else { w with callers := Function.update w.callers caller (.reading preset actor 3) }
  | .readPreset caller order fails =>
    match w.callers caller with
    | .reading preset actor attempts =>
      let progress := match attempts, w.service.snapshot lib order with
        | attempts + 1, .ok revision =>
          if fails then .idle else .patching preset actor attempts revision
        -- three conflicts, or an error of the snapshot
        | _, _ => .idle
      { w with callers := Function.update w.callers caller progress }
    | _ => w
  | .patchPreset caller order fails now =>
    match w.callers caller with
    | .patching preset actor attempts expected =>
      let (answer, service) := w.service.patch lib order fails now expected
        (single "retention.preset" preset) actor
      { w with
        service
        callers := Function.update w.callers caller
          (if answer = .error .revisionConflict then .reading preset actor attempts else .idle) }
    | _ => w
  | .restart order =>
    match (newService w.service.store w.service.base).initializeService lib order with
    | .ok service => { w with service, callers := fun _ => .idle }
    | .error _ => w

def World.start (base : Config) (secret : Option String) : World where
  service := newService ⟨Table.empty, [], 0⟩ base
  secret
  callers := fun _ => .idle

/-- The interleavings of the calls. -/
def updates (lib : Library) (available : Bool) (base : Config) (secret : Option String) :
    System World Action :=
  System.ofStep (World.start base secret) (World.act lib available) fun _ _ => True

/-! ## Coherence -/

def Store.Known (lib : Library) (store : Store) : Prop :=
  ∀ name value, store.stored lib name = some value →
    name = "coolify.url" ∨ ∃ k ∈ editable, name = k.text

/-- What is stored resolves, and `Current` agrees with it on every editable key; every stored
editable value is the newest audited one. -/
structure Coherent (lib : Library) (s : Service) : Prop where
  known : s.store.Known lib
  audited : s.store.Audited
  resolves : ∃ stored resolved, s.store.overrides lib = .ok stored ∧
    (∀ order, resolveOverrides lib order s.base stored = .ok resolved) ∧
    ∀ k ∈ editable, s.current.get k = resolved.get k

section Coherent

variable {lib : Library} {order : RowOrder} {base : Config} {s : Service} {store store' : Store}

theorem get_normalize (c : Config) {k : Key} (hk : k ∈ editable) :
    (c.normalize lib).get k = c.get k := by
  simp only [editable, List.mem_cons, List.not_mem_nil, or_false] at hk
  rcases hk with rfl | rfl | rfl | rfl | rfl | rfl | rfl | rfl | rfl | rfl | rfl | rfl <;> rfl

theorem normalize_normalize (c : Config) : (c.normalize lib).normalize lib = c.normalize lib := by
  have hpath : ∀ path joined : String,
      (if (if path = "" then joined else path) = "" then joined
        else if path = "" then joined else path) = if path = "" then joined else path := by
    intro path joined
    by_cases h : path = ""
    · rw [if_pos h, ite_self]
    · rw [if_neg h, if_neg h]
  unfold Config.normalize
  dsimp only
  rw [hpath, hpath]

theorem resolveOverrides_empty (h : base.validate lib order = .ok ()) (order' : RowOrder) :
    resolveOverrides lib order' base Table.empty = .ok (base.normalize lib) := by
  have hvalid : (base.normalize lib).validate lib order = .ok () := by
    unfold Config.validate at h ⊢
    rw [normalize_normalize]
    exact h
  refine resolveOverrides_order (resolveOverrides_ok_iff.mpr ⟨base, rfl, ?_, ?_, hvalid⟩)
  · exact nofun
  · exact congrArg _ (under_none base).symm

theorem coherent_new (h : base.validate lib order = .ok ()) :
    Coherent lib (newService ⟨Table.empty, [], 0⟩ base) where
  known := nofun
  audited := nofun
  resolves := ⟨Table.empty, base.normalize lib, rfl, resolveOverrides_empty h,
    fun _ hk => (get_normalize base hk).symm⟩

theorem Store.Decodable.resolves {resolved : Config} {values : Values}
    (hdecodable : store.Decodable lib) (hstored : textOf values = store.stored lib)
    (h : resolveOverrides lib order base values = .ok resolved) :
    ∃ stored, store.overrides lib = .ok stored ∧
      ∀ order', resolveOverrides lib order' base stored = .ok resolved := by
  obtain ⟨stored, hoverrides⟩ := overrides_ok_of_decodable hdecodable
  have hsame : textOf values = textOf stored := hstored.trans (textOf_overrides hoverrides).symm
  exact ⟨stored, hoverrides, fun order' => resolveOverrides_order (resolveOverrides_congr hsame h)⟩

theorem Coherent.committed (hs : Coherent lib s) {expected : Int} {changes : Values}
    {resolved : Config} {applied : List Config}
    (heditable : ∀ row ∈ changes.rows, ∃ k ∈ editable, row.1 = k.text)
    (h : Committed lib order s.base expected changes s.store store' resolved) :
    Coherent lib { s with store := store', current := resolved, applied } where
  known := by
    intro name value hstored
    rw [h.stored, overlay_apply] at hstored
    cases hchange : textOf changes name with
    | none =>
      rw [hchange] at hstored
      exact hs.known name value hstored
    | some text => exact .inr (heditable _ (mem_of_textOf hchange))
  audited := h.audited hs.audited
  resolves := by
    obtain ⟨current, hcurrent, hresolved⟩ := h.resolves
    have htext : textOf (merge order current changes) = store'.stored lib := by
      rw [textOf_merge, textOf_overrides hcurrent, h.stored]
    obtain ⟨stored, hoverrides, hstored⟩ :=
      (h.decodable (decodable_of_overrides_ok hcurrent)).resolves htext hresolved
    exact ⟨stored, resolved, hoverrides, hstored, fun _ _ => rfl⟩

theorem Coherent.patch (hs : Coherent lib s) (order : RowOrder) (fails : PatchPoint → Bool)
    (now : Time) (expected : Int) (changes : Values) (actor : String) :
    Coherent lib (s.patch lib order fails now expected changes actor).2 := by
  rcases patch_cases lib order fails now expected changes actor s with
    ⟨e, he⟩ | ⟨answer, store', resolved, hpatch, -, heditable, hdone⟩
  · rw [he]
    exact hs
  · rw [hpatch]
    exact hs.committed heditable hdone

theorem badURL_of_newAPIClient {config : ClientConfig} {u : Unit}
    (h : newAPIClient lib config = .ok u) (coolify : Coolify)
    (hinsecure : coolify.allowInsecureHTTP = config.allowInsecureHTTP) :
    ({ coolify with url := lib.trimRight config.baseURL "/" } : Coolify).badURL lib = false := by
  unfold newAPIClient at h
  unfold Coolify.badURL
  split_ifs at h
  split at h
  · cases h
  · next parsed hparsed =>
    rw [hparsed, hinsecure]
    split at h
    · cases h
    · next hhost =>
      split at h
      · cases h
      · next hscheme =>
        simp only [Bool.not_eq_true] at hhost hscheme
        dsimp only
        rw [hhost, hscheme]
        rfl

/-- What `Configure` does to the store: nothing, or it writes the URL of a client. -/
theorem configure_cases (lib : Library) (fails : ConfigurePoint → Bool) (now : Time)
    (available : Bool) (base : Config) (url token : String) (store : Store)
    (secret : Option String) :
    let store' := (configure lib fails now available base url token store secret).1
    store' = store ∨
      store'.revision = store.revision ∧ store'.audit = store.audit ∧
        (∀ name, store'.settings.find? name = if "coolify.url" = name then
          some ⟨"coolify.url", lib.marshal url, unixMilli now, "admin"⟩
          else store.settings.find? name) ∧
        ∃ used, newAPIClient lib ⟨url, used, base.coolify.allowInsecureHTTP⟩ = .ok () := by
  unfold configure
  dsimp only
  split
  · exact .inl rfl
  · split
    · exact .inl rfl
    · split
      · exact .inl rfl
      · next used hused =>
        split
        · exact .inl rfl
        · next hclient =>
          split
          · exact .inl rfl
          · exact .inr ⟨rfl, rfl, find?_upsert_setting _ _ _ _ _, used, hclient⟩

theorem Store.Known.layer_none {stored : Values} (hknown : store.Known lib)
    (hstored : textOf stored = store.stored lib) {k : Key} (hurl : k ≠ .coolifyURL)
    (hk : k ∉ editable) : layer lib stored k = none := by
  unfold layer
  cases htext : textOf stored k.text with
  | none => rfl
  | some text =>
    rw [hstored] at htext
    rcases hknown _ _ htext with hname | ⟨k', hk', hname⟩
    · exact absurd (text_inj hname) hurl
    · rw [text_inj hname] at hk
      exact absurd hk' hk

theorem text_ne_coolifyURL {k : Key} (hk : k ∈ editable) : "coolify.url" ≠ k.text := by
  intro htext
  obtain rfl : k = .coolifyURL := text_inj htext.symm
  revert hk
  decide

theorem under_insertOrReplace_url (c : Config) (values : Values) (url : String) :
    c.under (layer lib (values.insertOrReplace ("coolify.url", url))) =
      (c.under (layer lib values)).set .coolifyURL (lib.trimRight url "/") := by
  rw [set_eq_under, under_under]
  refine congrFun (congrArg Config.under (funext fun k => ?_)) c
  unfold layer
  rw [textOf_insertOrReplace]
  by_cases hk : k = .coolifyURL
  · subst hk
    rw [Function.update_self]
    rfl
  · have htext : "coolify.url" ≠ k.text := fun htext => hk (text_inj htext.symm)
    rw [if_neg htext, Function.update_of_ne hk, Option.none_or]

theorem resolveOverrides_url {values : Values} {resolved : Config} {url used : String} {u : Unit}
    (h : resolveOverrides lib order base values = .ok resolved)
    (hinsecure : layer lib values .coolifyInsecureHTTP = none)
    (hclient : newAPIClient lib ⟨url, used, base.coolify.allowInsecureHTTP⟩ = .ok u) :
    resolveOverrides lib order base (values.insertOrReplace ("coolify.url", url)) =
      .ok (resolved.set .coolifyURL (lib.trimRight url "/")) := by
  obtain ⟨start, hstart, hread, hc, hvalid⟩ := resolveOverrides_ok_iff.mp h
  have hpreset : presetBase lib base (values.insertOrReplace ("coolify.url", url)) = .ok start := by
    rw [← hstart]
    unfold presetBase
    rw [textOf_insertOrReplace, if_neg (by decide)]
  have hbase : start.coolify = base.coolify := by
    obtain ⟨retention, rfl⟩ := presetBase_eq hstart
    rfl
  have hallowed : resolved.coolify.allowInsecureHTTP = base.coolify.allowInsecureHTTP := by
    rw [hc, ← hbase]
    show (start.under (layer lib values)).get .coolifyInsecureHTTP = _
    rw [get_under, overlay_apply, hinsecure]
    rfl
  refine resolveOverrides_ok_iff.mpr ⟨start, hpreset, fun row hrow => ?_, ?_, ?_⟩
  · have htext := textOf_of_mem hrow
    rw [textOf_insertOrReplace] at htext
    split at htext
    · next hname => exact ⟨.coolifyURL, hname ▸ rfl, _, rfl⟩
    · exact hread row (mem_of_textOf htext)
  · rw [under_insertOrReplace_url, hc]
    rfl
  · exact Config.validate_coolifyURL hvalid (badURL_of_newAPIClient hclient _ hallowed)

/-- `Configure` keeps coherence. -/
theorem Coherent.configure (hs : Coherent lib s) (fails : ConfigurePoint → Bool) (now : Time)
    (available : Bool) (url token : String) (secret : Option String) :
    Coherent lib { s with
      store := (configure lib fails now available s.base url token s.store secret).1 } := by
  rcases configure_cases lib fails now available s.base url token s.store secret with
    hsame | ⟨-, haudit, hfind, used, hclient⟩
  · rw [hsame]
    exact hs
  revert haudit hfind
  generalize (Settings.configure lib fails now available s.base url token s.store secret).1 = store'
  intro haudit hfind
  obtain ⟨stored, resolved, hoverrides, hresolved, hcurrent⟩ := hs.resolves
  have htext := textOf_overrides hoverrides
  have hstored : ∀ name, store'.stored lib name =
      if "coolify.url" = name then some url else s.store.stored lib name := by
    intro name
    unfold Store.stored
    rw [hfind]
    by_cases hname : "coolify.url" = name
    · rw [if_pos hname, if_pos hname, Option.bind_some, lib.unmarshal_marshal]
      rfl
    · rw [if_neg hname, if_neg hname]
  have hdecodable : store'.Decodable lib := by
    intro row hrow
    have hself := hfind row.key
    rw [Table.find?_eq_some_iff.mpr ⟨hrow, rfl⟩] at hself
    split at hself
    · cases hself
      exact ⟨url, lib.unmarshal_marshal _⟩
    · exact decodable_of_overrides_ok hoverrides row (Table.find?_eq_some_iff.mp hself.symm).1
  have hinsecure : layer lib stored .coolifyInsecureHTTP = none :=
    hs.known.layer_none htext (by decide) (by decide)
  have hvalues : textOf (stored.insertOrReplace ("coolify.url", url)) = store'.stored lib := by
    funext name
    rw [textOf_insertOrReplace, hstored, htext]
  obtain ⟨stored', hoverrides', hresolved'⟩ := hdecodable.resolves hvalues
    (resolveOverrides_url (hresolved RowOrder.stored) hinsecure hclient)
  refine ⟨fun name value hname => ?_, fun k hk row hrow => ?_, stored', _, hoverrides', hresolved',
    fun k hk => ?_⟩
  · by_cases hurl : "coolify.url" = name
    · exact .inl hurl.symm
    · rw [hstored, if_neg hurl] at hname
      exact hs.known name value hname
  · rw [hfind, if_neg (text_ne_coolifyURL hk)] at hrow
    unfold Store.newest
    rw [haudit]
    exact hs.audited k hk row hrow
  · rw [hcurrent k hk, set_eq, get_ofGet, Function.update_of_ne]
    rintro rfl
    revert hk
    decide

theorem Coherent.restart (hs : Coherent lib s) (order : RowOrder) :
    ∃ s', (newService s.store s.base).initializeService lib order = .ok s' ∧
      s'.store = s.store ∧ s'.base = s.base ∧ Coherent lib s' := by
  obtain ⟨stored, resolved, hoverrides, hresolved, -⟩ := hs.resolves
  refine ⟨{ newService s.store s.base with current := resolved, applied := [resolved] },
    bind_ok.mpr ⟨stored, hoverrides, bind_ok.mpr ⟨resolved, ?_, rfl⟩⟩, rfl, rfl, ?_⟩
  · exact mapError_ok.mpr (hresolved order)
  · exact ⟨hs.known, hs.audited, stored, resolved, hoverrides, hresolved, fun _ _ => rfl⟩

end Coherent

/-! ## Every interleaving -/

section Updates

variable {lib : Library} {available : Bool} {w : World}

/-- What an action does to the service: nothing that is kept, a patch, the work of
`Configure`, or a restart. -/
theorem act_cases (lib : Library) (available : Bool) (w : World) (a : Action) :
    let s' := (w.act lib available a).service
    s' = w.service ∨
      (∃ order fails now expected changes actor,
        s' = (w.service.patch lib order fails now expected changes actor).2) ∨
      (∃ fails now url token, s' = { w.service with
        store := (configure lib fails now available w.service.base url token w.service.store
          w.secret).1 }) ∨
      ∃ order, (newService w.service.store w.service.base).initializeService lib order
        = .ok s' := by
  cases a with
  | patch order fails now expected changes actor => exact .inr (.inl ⟨_, _, _, _, _, _, rfl⟩)
  | snapshot order => exact .inl rfl
  | configure fails now url token => exact .inr (.inr (.inl ⟨fails, now, url, token, rfl⟩))
  | beginPreset caller preset actor | readPreset caller order fails =>
    simp only [World.act]
    split
    · exact .inl rfl
    · exact .inl rfl
  | patchPreset caller order fails now =>
    simp only [World.act]
    split
    · exact .inr (.inl ⟨_, _, _, _, _, _, rfl⟩)
    · exact .inl rfl
  | restart order =>
    simp only [World.act]
    split
    · next service hservice => exact .inr (.inr (.inr ⟨order, hservice⟩))
    · exact .inl rfl

theorem Coherent.act (hw : Coherent lib w.service) (a : Action) :
    Coherent lib (w.act lib available a).service ∧
      (w.act lib available a).service.base = w.service.base := by
  rcases act_cases lib available w a with h | ⟨order, fails, now, expected, changes, actor, h⟩ |
    ⟨fails, now, url, token, h⟩ | ⟨order, h⟩
  · rw [h]
    exact ⟨hw, rfl⟩
  · rw [h]
    refine ⟨hw.patch order fails now expected changes actor, ?_⟩
    rcases patch_cases lib order fails now expected changes actor w.service with
      ⟨e, he⟩ | ⟨answer, store', resolved, hpatch, -⟩
    · rw [he]
    · rw [hpatch]
  · rw [h]
    exact ⟨hw.configure fails now available url token w.secret, rfl⟩
  · obtain ⟨s', hs', -, hbase, hcoherent⟩ := hw.restart order
    cases hs'.symm.trans h
    exact ⟨hcoherent, hbase⟩

/-- What every patch does: it succeeds only at the revision it names, which it raises by one;
a stale one changes nothing; one that fails changes nothing, unless it fails after its commit. -/
structure AtomicPatches (lib : Library) (s : Service) : Prop where
  ok : ∀ order fails now expected changes actor revision s',
    s.patch lib order fails now expected changes actor = (.ok revision, s') →
      s.store.revision = expected ∧ revision = expected + 1 ∧ s'.store.revision = expected + 1
  stale : ∀ order fails now expected changes actor, s.store.revision ≠ expected →
    ∃ e, s.patch lib order fails now expected changes actor = (.error e, s)
  failed : ∀ order fails now expected changes actor e s',
    s.patch lib order fails now expected changes actor = (.error e, s') →
      s' = s ∨ fails .snapshot = true ∧ s.store.revision = expected ∧
        s'.store.revision = expected + 1

theorem atomicPatches (lib : Library) (s : Service) : AtomicPatches lib s where
  ok := by
    intro order fails now expected changes actor revision s' h
    obtain ⟨hrevision, store', resolved, rfl, hdone⟩ := patch_ok h
    exact ⟨hdone.found, hrevision, hdone.next⟩
  stale := by
    intro order fails now expected changes actor hstale
    rcases patch_cases lib order fails now expected changes actor s with
      hfailed | ⟨answer, store', resolved, -, -, -, hdone⟩
    · exact hfailed
    · exact absurd hdone.found hstale
  failed := by
    intro order fails now expected changes actor e s' h
    rcases patch_cases lib order fails now expected changes actor s with
      ⟨e', he'⟩ | ⟨answer, store', resolved, hpatch, hanswer, -, hdone⟩
    · cases he'.symm.trans h
      exact .inl rfl
    · cases hpatch.symm.trans h
      rcases hanswer with hok | ⟨hfails, -⟩
      · cases hok
      · exact .inr ⟨hfails, hdone.found, hdone.next⟩

theorem act_revision (hw : Coherent lib w.service) (a : Action) :
    (w.act lib available a).service.store.revision = w.service.store.revision ∨
      (w.act lib available a).service.store.revision = w.service.store.revision + 1 := by
  rcases act_cases lib available w a with h | ⟨order, fails, now, expected, changes, actor, h⟩ |
    ⟨fails, now, url, token, h⟩ | ⟨order, h⟩
  · exact .inl (by rw [h])
  · rw [h]
    rcases patch_cases lib order fails now expected changes actor w.service with
      ⟨e, he⟩ | ⟨answer, store', resolved, hpatch, -, -, hdone⟩
    · exact .inl (by rw [he])
    · rw [hpatch, hdone.found]
      exact .inr hdone.next
  · rw [h]
    rcases configure_cases lib fails now available w.service.base url token w.service.store
      w.secret with hsame | ⟨hrevision, -⟩
    · exact .inl (congrArg Store.revision hsame)
    · exact .inl hrevision
  · obtain ⟨s', hs', hstore, -⟩ := hw.restart order
    cases hs'.symm.trans h
    exact .inl (congrArg Store.revision hstore)

/-- Settings updates are linearizable and can always be loaded again. In every world that calls
of `Patch`, `SetRetentionPreset`, `Snapshot` and `Configure` reach, interleaved in any way, with
any statements failing and with restarts in between: patches are atomic, and no other step
touches the revision; `Current` agrees with what the stored values resolve to; every stored
editable value is the newest audited one; and a restart succeeds. -/
theorem settings_linearizable {order : RowOrder} {d : Deployment} {base : Config}
    (hbase : load lib order d = .ok base) (available : Bool) (secret : Option String)
    (hw : (updates lib available base secret).Reachable w) :
    AtomicPatches lib w.service ∧
      (∀ a, (w.act lib available a).service.store.revision = w.service.store.revision ∨
        (w.act lib available a).service.store.revision = w.service.store.revision + 1) ∧
      (∃ stored resolved, w.service.store.overrides lib = .ok stored ∧
        (∀ order, resolveOverrides lib order base stored = .ok resolved) ∧
        ∀ k ∈ editable, w.service.current.get k = resolved.get k) ∧
      w.service.store.Audited ∧
      (∀ order, w.service.snapshot lib order = .ok w.service.store.revision) ∧
      ∀ order, ∃ s', (newService w.service.store base).initializeService lib order = .ok s' := by
  have hinv : Coherent lib w.service ∧ w.service.base = base := by
    refine hw.invariant (fun w => Coherent lib w.service ∧ w.service.base = base)
      ⟨coherent_new (load_get hbase).1, rfl⟩ ?_
    rintro w a w' ⟨hcoherent, hbase⟩ ⟨-, rfl⟩
    have hact : Coherent lib (w.act lib available a).service ∧ _ := hcoherent.act a
    exact ⟨hact.1, hact.2.trans hbase⟩
  obtain ⟨hcoherent, rfl⟩ := hinv
  refine ⟨atomicPatches lib w.service, act_revision hcoherent, hcoherent.resolves,
    hcoherent.audited, fun order => ?_, fun order => ?_⟩
  · obtain ⟨stored, resolved, hoverrides, hresolved, -⟩ := hcoherent.resolves
    exact bind_ok.mpr ⟨stored, hoverrides, bind_ok.mpr
      ⟨resolved, mapError_ok.mpr (hresolved order), rfl⟩⟩
  · obtain ⟨s', hs', -⟩ := hcoherent.restart order
    exact ⟨s', hs'⟩

/-- The raw tier is patched, the Coolify connection is configured, and while one caller sets a
preset the raw tier is patched again: its revision is stale, and it will read the new one. -/
theorem settings_linearizable_patched :
    ∃ w, (updates plainLibrary true plainBase none).Reachable w ∧ w.service.store.revision = 2 ∧
      w.callers 0 = .reading "minimal" "admin" 2 ∧ w.secret.isSome = true ∧
      AtomicPatches plainLibrary w.service ∧
      ∃ s', (newService w.service.store plainBase).initializeService plainLibrary RowOrder.stored =
        .ok s' := by
  let calls : List Action :=
    [.patch RowOrder.stored (fun _ => false) 0 0 (single "retention.raw" "1h") "admin",
      .configure (fun _ => false) 0 "https://coolify.example" "token",
      .beginPreset 0 "minimal" "admin",
      .readPreset 0 RowOrder.stored false,
      .patch RowOrder.stored (fun _ => false) 0 1 (single "retention.raw" "48h") "admin",
      .patchPreset 0 RowOrder.stored (fun _ => false) 0]
  have hw : (updates plainLibrary true plainBase none).Reachable
      (calls.foldl (World.act plainLibrary true) (World.start plainBase none)) :=
    Along.reachable (.of_mem (fun _ _ _ => trivial) _) System.Reachable.init
  obtain ⟨hatomic, -, -, -, -, hrestart⟩ := settings_linearizable load_plain true none hw
  exact ⟨_, hw, by decide +kernel, by decide +kernel, by decide +kernel, hatomic,
    hrestart RowOrder.stored⟩

end Updates

end Binnacle.Settings
