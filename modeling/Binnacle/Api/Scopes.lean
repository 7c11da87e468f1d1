import Binnacle.Auth.Sessions
import Binnacle.Auth.Tokens

/-!
# Scoped authorization

Model of `internal/api/scoped_auth.go`, of the routes that `Enable…` registers under
its authorizers, and of the wiring in `cmd/binnacle/main.go`.

- `ScopedAuthorizer.decision`: a bearer token, or else a browser session.
- `token_scopes_iff`: which requests a token opens as documented, the notification
  endpoints included, which it must not open.

Left out are the routes that take a browser session only, since no scoped authorizer is
passed to them, and percent escapes in paths. `strings.Fields` and `strings.EqualFold`
are parameters.
-/

namespace Binnacle.Api

open Relational Auth

/-! ## Decisions -/

/-- `AuthorizationDecision` (scoped_auth.go:12-16). -/
structure AuthorizationDecision where
  allowed : Bool
  status : Nat
  code : String
  message : String

inductive Method where
  | get
  | connect
  | other (name : String)
  deriving DecidableEq

structure Request where
  method : Method
  path : String
  authorization : String
  sessionCookie : String

structure Library where
  fields : String → List String
  equalFold : String → String → Bool
  sessionHash : String → String
  tokenHash : String → String

structure Stores where
  sessions : Sessions
  tokens : APITokens

/-- `ScopedAuthorizer` (scoped_auth.go:20-25), over the stores of `main`. -/
structure ScopedAuthorizer where
  scope : APIScope
  tokenPathPrefixes : List String
  deriving DecidableEq

/-- The `Authorizer` values that `main` passes. -/
inductive Authorizer where
  | sessions
  | scoped (a : ScopedAuthorizer)
  deriving DecidableEq

/-- The decision that lets a request pass (scoped_auth.go:49, 52). -/
def allow : AuthorizationDecision := ⟨true, 0, "", ""⟩

/-- The answer to a request without credentials (scoped_auth.go:54, 74). -/
def unauthorized : AuthorizationDecision :=
  ⟨false, 401, "unauthorized", "Authentication is required."⟩

/-- `unauthorizedToken` (scoped_auth.go:56-58). -/
def unauthorizedToken : AuthorizationDecision :=
  ⟨false, 401, "invalid_token", "A valid API token is required."⟩

/-- The answer to a token without the scope (scoped_auth.go:44). -/
def insufficientScope : AuthorizationDecision :=
  ⟨false, 403, "insufficient_scope", "The API token does not grant the required scope."⟩

section Decision

variable (lib : Library) (now usedAt : Time) (stores : Stores)

/-- `TokenFromRequest` (sessions.go:231-241): a caller with an `Authorization` header has no
session. -/
def tokenFromRequest (r : Request) : String := if r.authorization ≠ "" then "" else r.sessionCookie

/-- `Sessions.Authorize` (sessions.go:103-106). -/
def authorizeSession (r : Request) : AuthorizationDecision × Stores :=
  let (session, sessions) :=
    stores.sessions.authenticate lib.sessionHash now (tokenFromRequest r)
  (if session.isSome then allow else unauthorized, { stores with sessions })

/-- `ScopedAuthorizer.Decision` (scoped_auth.go:28-55). -/
def ScopedAuthorizer.decision (a : ScopedAuthorizer) (r : Request) :
    AuthorizationDecision × Stores :=
  if r.authorization ≠ "" then
    match lib.fields r.authorization with
    | [scheme, token] =>
      if !lib.equalFold scheme "Bearer" then (unauthorizedToken, stores)
      else if !(a.tokenPathPrefixes.isEmpty ||
          a.tokenPathPrefixes.any fun start => hasPrefix r.path start) then
        (unauthorizedToken, stores)
      else
        let (result, tokens) := stores.tokens.authenticate lib.tokenHash now usedAt token a.scope
        match result with
        | .ok () => (allow, { stores with tokens })
        | .error .scopeInsufficient => (insufficientScope, { stores with tokens })
        | .error _ => (unauthorizedToken, { stores with tokens })
    | _ => (unauthorizedToken, stores)
  else authorizeSession lib now stores r

/-- `requireAuth` (scoped_auth.go:60-78), the decision it writes or passes on. -/
def requireAuth (r : Request) : Authorizer → AuthorizationDecision × Stores
  | .sessions => authorizeSession lib now stores r
  | .scoped a => a.decision lib now usedAt stores r

end Decision

/-! ## Routes -/

/-- A registered pattern. A pattern that ends in a slash matches every path it begins;
`getFirst` handlers refuse other methods before they authorize. -/
structure Route where
  pattern : String
  subtree : Bool
  getFirst : Bool
  authorizer : Authorizer
  deriving DecidableEq

/-- `EnableCurrent` (current.go:9-31), with the guard both handlers share. -/
def enableCurrent (auth : Authorizer) : List Route :=
  [⟨"/api/v1/server", false, true, auth⟩, ⟨"/api/v1/collector-health", false, true, auth⟩]

/-- `EnableResources` (resources.go:19-59). -/
def enableResources (auth : Authorizer) : List Route := [⟨"/api/v1/resources", false, false, auth⟩]

/-- `EnableMetrics` (metrics.go:14-52). -/
def enableMetrics (auth : Authorizer) : List Route := [⟨"/api/v1/metrics", false, true, auth⟩]

/-- `EnableEvents` (events.go:15-58). -/
def enableEvents (auth : Authorizer) : List Route := [⟨"/api/v1/events", false, true, auth⟩]

/-- `EnableIncidentsNotifications` (incidents_notifications.go:72-301). -/
def enableIncidentsNotifications (auth : Authorizer) : List Route :=
  [⟨"/api/v1/incidents", false, false, auth⟩,
   ⟨"/api/v1/incidents/", true, false, auth⟩,
   ⟨"/api/v1/notification-channels", false, false, auth⟩,
   ⟨"/api/v1/notification-channels/", true, false, auth⟩,
   ⟨"/api/v1/notification-deliveries", false, false, auth⟩,
   ⟨"/api/v1/notification-deliveries/", true, false, auth⟩]

/-- `EnableExports` (exports.go:45-160). -/
def enableExports (metricsAuth eventsAuth incidentsAuth resourcesAuth : Authorizer) : List Route :=
  [⟨"/api/v1/exports/metrics.csv", false, true, metricsAuth⟩,
   ⟨"/api/v1/exports/events.json", false, true, eventsAuth⟩,
   ⟨"/api/v1/exports/incidents.json", false, true, incidentsAuth⟩,
   ⟨"/api/v1/exports/resources.json", false, true, resourcesAuth⟩]

/-- An authorizer of `main` (main.go:227-238): a browser session, and with portability
also a token. -/
def wired (portability : Bool) (scope : APIScope) (tokenPathPrefixes : List String) : Authorizer :=
  if portability then .scoped ⟨scope, tokenPathPrefixes⟩ else .sessions

/-- The five authorizers (main.go:227-238). -/
def serverAuthorizer (portability : Bool) : Authorizer := wired portability .serverRead []

@[inherit_doc serverAuthorizer]
def resourceAuthorizer (portability : Bool) : Authorizer := wired portability .resourcesRead []

@[inherit_doc serverAuthorizer]
def metricsAuthorizer (portability : Bool) : Authorizer := wired portability .metricsRead []

@[inherit_doc serverAuthorizer]
def eventsAuthorizer (portability : Bool) : Authorizer := wired portability .eventsRead []

@[inherit_doc serverAuthorizer]
def incidentsAuthorizer (portability : Bool) : Authorizer :=
  wired portability .incidentsRead ["/api/v1/incidents"]

/-- The routes of `main` (main.go:240-300) that a scoped authorizer is passed to. -/
def routes (portability : Bool) : List Route :=
  enableCurrent (serverAuthorizer portability) ++
  enableResources (resourceAuthorizer portability) ++
  enableMetrics (metricsAuthorizer portability) ++
  enableEvents (eventsAuthorizer portability) ++
  enableIncidentsNotifications (incidentsAuthorizer portability) ++
  if portability then
    enableExports (metricsAuthorizer portability) (eventsAuthorizer portability)
      (incidentsAuthorizer portability) (resourceAuthorizer portability)
  else []

/-- `cleanPath` of `net/http`: the path without empty, `.` and `..` segments, with its
final slash. -/
def cleanPath (path : String) : String :=
  let kept := (path.toList.splitOn '/').foldl (fun kept segment =>
    if segment = [] ∨ segment = ['.'] then kept
    else if segment = ['.', '.'] then kept.dropLast
    else kept ++ [segment]) []
  let clean := '/' :: ['/'].intercalate kept
  String.ofList (if path.toList.getLast? = some '/' ∧ clean ≠ ['/'] then clean ++ ['/'] else clean)

/-- The route the mux takes: the pattern itself, or a subtree that holds the path, where no
subtree here lies in another. A path that is not clean is redirected. -/
def route (table : List Route) (r : Request) : Option Route :=
  if r.method ≠ .connect ∧ cleanPath r.path ≠ r.path then none
  else
    (table.find? fun route => !route.subtree && route.pattern = r.path).or
      (table.find? fun route => route.subtree && hasPrefix r.path route.pattern)

def passes (lib : Library) (now usedAt : Time) (stores : Stores) (table : List Route)
    (r : Request) : Bool :=
  match route table r with
  | none => false
  | some route =>
    if route.getFirst ∧ r.method ≠ .get then false
    else (requireAuth lib now usedAt stores r route.authorizer).1.allowed

/-! ## What is documented -/

def documentedPaths : List (String × APIScope) :=
  [("/api/v1/server", .serverRead),
   ("/api/v1/resources", .resourcesRead),
   ("/api/v1/metrics", .metricsRead),
   ("/api/v1/events", .eventsRead),
   ("/api/v1/incidents", .incidentsRead),
   ("/api/v1/exports/metrics.csv", .metricsRead),
   ("/api/v1/exports/events.json", .eventsRead),
   ("/api/v1/exports/incidents.json", .incidentsRead),
   ("/api/v1/exports/resources.json", .resourcesRead)]

def documentedScope (path : String) : Option APIScope :=
  (documentedPaths.lookup path).or
    (if hasPrefix path "/api/v1/incidents/" ∧ cleanPath path = path then some .incidentsRead
    else none)

def UnderNotifications (path : String) : Prop :=
  path = "/api/v1/notification-channels" ∨ hasPrefix path "/api/v1/notification-channels/" = true ∨
    path = "/api/v1/notification-deliveries" ∨
    hasPrefix path "/api/v1/notification-deliveries/" = true

def Carries (lib : Library) (r : Request) (token : String) : Prop :=
  r.authorization ≠ "" ∧ ∃ scheme, lib.fields r.authorization = [scheme, token] ∧
    lib.equalFold scheme "Bearer" = true

structure OpensDocumented (lib : Library) (now usedAt : Time) (stores : Stores) (r : Request)
    (token : String) : Prop where
  documented : ∀ scope, r.method = .get → documentedScope r.path = some scope →
    (passes lib now usedAt stores (routes true) r = true ↔
      Qualifies lib.tokenHash stores.tokens now token scope)
  notifications : UnderNotifications r.path → passes lib now usedAt stores (routes true) r = false

/-! ## Decisions on a token -/

section Token

variable {lib : Library} {now usedAt : Time} {stores : Stores} {r : Request} {token : String}

theorem hasPrefix_iff {text start : String} :
    hasPrefix text start = true ↔ start.toList <+: text.toList := List.isPrefixOf_iff_prefix

def ScopedAuthorizer.Covers (a : ScopedAuthorizer) (path : String) : Prop :=
  a.tokenPathPrefixes = [] ∨ ∃ start ∈ a.tokenPathPrefixes, hasPrefix path start = true

instance (a : ScopedAuthorizer) (path : String) : Decidable (a.Covers path) :=
  inferInstanceAs (Decidable (_ ∨ _))

theorem ScopedAuthorizer.decision_allowed_iff (a : ScopedAuthorizer) (htoken : Personal token)
    (hc : Carries lib r token) :
    (a.decision lib now usedAt stores r).1.allowed = true ↔
      a.Covers r.path ∧ Qualifies lib.tokenHash stores.tokens now token a.scope := by
  obtain ⟨hheader, scheme, hfields, hbearer⟩ := hc
  have hcovers : (a.tokenPathPrefixes.isEmpty ||
      a.tokenPathPrefixes.any fun start => hasPrefix r.path start) = true ↔ a.Covers r.path := by
    rw [Bool.or_eq_true_iff, List.isEmpty_iff, List.any_eq_true]
    rfl
  have hqualifies :
      (stores.tokens.authenticate lib.tokenHash now usedAt token a.scope).1.isOk = true ↔
      Qualifies lib.tokenHash stores.tokens now token a.scope := authenticate_isOk_iff htoken
  unfold ScopedAuthorizer.decision
  rw [if_pos hheader, hfields]
  dsimp only
  rw [hbearer, Bool.not_true, if_neg Bool.false_ne_true]
  by_cases hpath : a.Covers r.path
  · rw [hcovers.mpr hpath, Bool.not_true, if_neg Bool.false_ne_true, and_iff_right hpath,
      ← hqualifies]
    obtain ⟨result, tokens⟩ := stores.tokens.authenticate lib.tokenHash now usedAt token a.scope
    cases result with
    | ok _ => exact iff_of_true rfl rfl
    | error e => cases e <;> exact iff_of_false Bool.false_ne_true Bool.false_ne_true
  · rw [Bool.eq_false_iff.mpr fun h => hpath (hcovers.mp h), Bool.not_false, if_pos rfl]
    exact iff_of_false Bool.false_ne_true fun h => hpath h.1

/-! ## Routing -/

/-- Two texts that begin one path begin each other. -/
def Comparable (start pattern : String) : Bool := hasPrefix start pattern || hasPrefix pattern start

theorem comparable_of_hasPrefix {path start pattern : String} (h : hasPrefix path start = true)
    (h' : hasPrefix path pattern = true) : Comparable start pattern = true := by
  rw [hasPrefix_iff] at h h'
  unfold Comparable
  rw [Bool.or_eq_true_iff, hasPrefix_iff, hasPrefix_iff]
  exact (List.prefix_or_prefix_of_prefix h h').symm

theorem route_spec {table : List Route} {taken : Route} (h : route table r = some taken) :
    taken ∈ table ∧ hasPrefix r.path taken.pattern = true := by
  unfold route at h
  split_ifs at h
  rcases Option.or_eq_some_iff.mp h with hexact | ⟨-, hsubtree⟩
  · have hpattern := List.find?_some hexact
    rw [Bool.and_eq_true_iff, decide_eq_true_iff] at hpattern
    rw [hpattern.2]
    exact ⟨List.mem_of_find?_eq_some hexact, hasPrefix_iff.mpr (List.prefix_refl _)⟩
  · have hpattern := List.find?_some hsubtree
    rw [Bool.and_eq_true_iff] at hpattern
    exact ⟨List.mem_of_find?_eq_some hsubtree, hpattern.2⟩

/-- Where every route near a prefix of the path has one authorizer and authorizes first,
only that authorizer is asked. -/
theorem passes_near {table : List Route} {start : String} {a : ScopedAuthorizer}
    (hnear : ∀ taken ∈ table, Comparable start taken.pattern = true →
      taken.getFirst = false ∧ taken.authorizer = .scoped a)
    (hpath : hasPrefix r.path start = true) :
    passes lib now usedAt stores table r = true ↔
      (route table r).isSome = true ∧ (a.decision lib now usedAt stores r).1.allowed = true := by
  unfold passes
  cases h : route table r with
  | none => exact iff_of_false Bool.false_ne_true fun h => Bool.false_ne_true h.1
  | some taken =>
    obtain ⟨hin, hpattern⟩ := route_spec h
    obtain ⟨hfirst, hauthorizer⟩ := hnear taken hin (comparable_of_hasPrefix hpath hpattern)
    dsimp only
    rw [hfirst, hauthorizer, if_neg fun h => Bool.false_ne_true h.1]
    exact ⟨fun h => ⟨rfl, h⟩, fun h => h.2⟩

/-- The incidents authorizer with portability, as `main` builds it. -/
def scopedIncidents : ScopedAuthorizer := ⟨.incidentsRead, ["/api/v1/incidents"]⟩

theorem UnderNotifications.hasPrefix {path : String} (h : UnderNotifications path) :
    hasPrefix path "/api/v1/notification-" = true := by
  have hends : Auth.hasPrefix "/api/v1/notification-channels" "/api/v1/notification-" = true ∧
      Auth.hasPrefix "/api/v1/notification-deliveries" "/api/v1/notification-" = true ∧
      Auth.hasPrefix "/api/v1/notification-channels/" "/api/v1/notification-" = true ∧
      Auth.hasPrefix "/api/v1/notification-deliveries/" "/api/v1/notification-" = true := by
    decide +kernel
  obtain ⟨hchannels, hdeliveries, hchannel, hdelivery⟩ := hends
  rcases h with rfl | h | rfl | h
  · exact hchannels
  · exact hasPrefix_iff.mpr ((hasPrefix_iff.mp hchannel).trans (hasPrefix_iff.mp h))
  · exact hdeliveries
  · exact hasPrefix_iff.mpr ((hasPrefix_iff.mp hdelivery).trans (hasPrefix_iff.mp h))

/-- The notification endpoints refuse every token: no path under them is one that their
authorizer looks at tokens on. -/
theorem passes_notifications (htoken : Personal token) (hc : Carries lib r token)
    (h : UnderNotifications r.path) : passes lib now usedAt stores (routes true) r = false := by
  have hnear : ∀ taken ∈ routes true, Comparable "/api/v1/notification-" taken.pattern = true →
      taken.getFirst = false ∧ taken.authorizer = .scoped scopedIncidents := by decide +kernel
  have hcovers : ¬ scopedIncidents.Covers r.path := by
    rintro (hnil | ⟨start, hin, hcovered⟩)
    · cases hnil
    · cases List.mem_singleton.mp hin
      exact absurd (comparable_of_hasPrefix h.hasPrefix hcovered) (by decide +kernel)
  refine Bool.eq_false_iff.mpr fun hpass => hcovers ?_
  have hallowed := ((passes_near hnear h.hasPrefix).mp hpass).2
  exact ((scopedIncidents.decision_allowed_iff htoken hc).mp hallowed).1

theorem passes_incident (htoken : Personal token) (hc : Carries lib r token)
    (hpath : hasPrefix r.path "/api/v1/incidents/" = true) (hclean : cleanPath r.path = r.path) :
    passes lib now usedAt stores (routes true) r = true ↔
      Qualifies lib.tokenHash stores.tokens now token .incidentsRead := by
  have hnear : ∀ taken ∈ routes true, Comparable "/api/v1/incidents/" taken.pattern = true →
      taken.getFirst = false ∧ taken.authorizer = .scoped scopedIncidents := by decide +kernel
  have hrouted : (route (routes true) r).isSome = true := by
    unfold route
    rw [if_neg fun h => h.2 hclean, Option.isSome_or, Bool.or_eq_true_iff]
    refine .inr (List.find?_isSome.mpr ⟨⟨"/api/v1/incidents/", true, false,
      .scoped scopedIncidents⟩, by decide +kernel, ?_⟩)
    exact Bool.and_eq_true_iff.mpr ⟨rfl, hpath⟩
  have hcovers : scopedIncidents.Covers r.path :=
    .inr ⟨"/api/v1/incidents", List.mem_singleton_self _,
      hasPrefix_iff.mpr (List.IsPrefix.trans (by decide +kernel) (hasPrefix_iff.mp hpath))⟩
  rw [passes_near hnear hpath, scopedIncidents.decision_allowed_iff htoken hc,
    and_iff_right hrouted, and_iff_right hcovers]
  rfl

theorem passes_exact (htoken : Personal token) (hc : Carries lib r token) (hget : r.method = .get)
    (hclean : cleanPath r.path = r.path) {taken : Route} {a : ScopedAuthorizer}
    (htaken :
      ((routes true).find? fun route => !route.subtree && route.pattern = r.path) = some taken)
    (hauthorizer : taken.authorizer = .scoped a) :
    passes lib now usedAt stores (routes true) r = true ↔
      a.Covers r.path ∧ Qualifies lib.tokenHash stores.tokens now token a.scope := by
  unfold passes route
  rw [if_neg fun hredirect => hredirect.2 hclean, htaken, Option.some_or]
  dsimp only
  rw [if_neg fun hmethod => hmethod.2 hget, hauthorizer]
  exact a.decision_allowed_iff htoken hc

/-- Each documented path has a route of its own whose authorizer asks for the documented
scope. The authorizer of one export does not look at tokens on its path. -/
theorem routes_documented : ∀ entry ∈ documentedPaths, cleanPath entry.1 = entry.1 ∧
    ∃ taken ∈ routes true, ∃ starts ∈ [[], ["/api/v1/incidents"]],
      ((routes true).find? fun route => !route.subtree && route.pattern = entry.1) = some taken ∧
        taken.authorizer = .scoped ⟨entry.2, starts⟩ ∧
        (ScopedAuthorizer.Covers ⟨entry.2, starts⟩ entry.1 ↔
          entry.1 ≠ "/api/v1/exports/incidents.json") := by
  decide +kernel

/-! ## Tokens and documented scopes -/

/-- A token opens a documented path exactly if it qualifies, but for the export of
incidents, which it never opens. -/
theorem passes_documented (htoken : Personal token) (hc : Carries lib r token)
    (hget : r.method = .get) {scope : APIScope} (h : documentedScope r.path = some scope) :
    passes lib now usedAt stores (routes true) r = true ↔
      r.path ≠ "/api/v1/exports/incidents.json" ∧
        Qualifies lib.tokenHash stores.tokens now token scope := by
  rcases Option.or_eq_some_iff.mp h with hlisted | ⟨-, hincident⟩
  · obtain ⟨before, after, hsplit, -⟩ := List.lookup_eq_some_iff.mp hlisted
    have hin : (r.path, scope) ∈ documentedPaths := by
      rw [hsplit]
      exact List.mem_append_right _ List.mem_cons_self
    obtain ⟨hclean, taken, -, starts, -, htaken, hauthorizer, hcovers⟩ := routes_documented _ hin
    rw [passes_exact htoken hc hget hclean htaken hauthorizer, hcovers]
  · split at hincident
    · next hunder =>
      cases hincident
      have hother : r.path ≠ "/api/v1/exports/incidents.json" := by
        intro hpath
        rw [hpath] at hunder
        exact absurd hunder.1 (by decide +kernel)
      rw [passes_incident htoken hc hunder.1 hunder.2, and_iff_right hother]
    · cases hincident

/-- A token opens what is documented, except where it qualifies for the export of incidents:
the authorizer passed to that handler looks at tokens only under `/api/v1/incidents`. -/
theorem token_scopes_iff (htoken : Personal token) (hc : Carries lib r token) :
    OpensDocumented lib now usedAt stores r token ↔
      ¬ (r.method = .get ∧ r.path = "/api/v1/exports/incidents.json" ∧
        Qualifies lib.tokenHash stores.tokens now token .incidentsRead) := by
  have hexport : documentedScope "/api/v1/exports/incidents.json" = some .incidentsRead := by
    decide +kernel
  constructor
  · rintro ⟨hdocumented, -⟩ ⟨hget, hpath, hqualifies⟩
    have hscope : documentedScope r.path = some .incidentsRead := by rw [hpath, hexport]
    have hpass := (hdocumented _ hget hscope).mpr hqualifies
    exact ((passes_documented htoken hc hget hscope).mp hpass).1 hpath
  · intro hother
    refine ⟨fun scope hget hscope => ?_, passes_notifications htoken hc⟩
    rw [passes_documented htoken hc hget hscope]
    refine ⟨fun h => h.2, fun hqualifies => ⟨fun hpath => ?_, hqualifies⟩⟩
    -- the documented scope of the export is `incidents:read`
    rw [hpath, hexport] at hscope
    cases hscope
    exact hother ⟨hget, hpath, hqualifies⟩

end Token

/-! ## The export of incidents -/

def plainLibrary : Library where
  fields text := (text.toList.splitOn ' ').map String.ofList
  equalFold a b := a = b
  sessionHash text := text
  tokenHash text := text

def someDraw : TokenDraw where
  idHex := "0123456789abcdef"
  secret := "AAAAAAAAAAAAAAAAAAAAAAAAAAAAAAAAAAAAAAAAAAA"
  idSize := by decide +kernel
  secretSize := by decide +kernel

/-- No sessions, and one token with `incidents:read`. -/
def oneToken : Stores where
  sessions := ⟨Table.empty, ⟨hour, 24 * hour⟩⟩
  tokens :=
    match APITokens.create plainLibrary.tokenHash someDraw 0 "admin" "reader"
      [.incidentsRead] none Table.empty with
    | .ok (_, tokens) => tokens
    | .error _ => Table.empty

/-- A GET with the token of `someDraw`. -/
def getWithToken (path : String) : Request := ⟨.get, path, "Bearer " ++ someDraw.plaintext, ""⟩

theorem carries_getWithToken (path : String) :
    Carries plainLibrary (getWithToken path) someDraw.plaintext := by
  have hheader : "Bearer " ++ someDraw.plaintext ≠ "" ∧
      plainLibrary.fields ("Bearer " ++ someDraw.plaintext) = ["Bearer", someDraw.plaintext] := by
    decide +kernel
  exact ⟨hheader.1, "Bearer", hheader.2, rfl⟩

theorem oneToken_qualifies : Qualifies plainLibrary.tokenHash oneToken.tokens hour
    someDraw.plaintext .incidentsRead := by
  have hok : (oneToken.tokens.authenticate plainLibrary.tokenHash hour hour someDraw.plaintext
      .incidentsRead).1.isOk = true := by decide +kernel
  exact (authenticate_isOk_iff ⟨someDraw, rfl⟩).mp hok

/-- The token is created with `incidents:read` and reads the incidents, but the export of
incidents refuses it. -/
theorem export_refuses_token :
    documentedScope "/api/v1/exports/incidents.json" = some .incidentsRead ∧
      Personal someDraw.plaintext ∧
      Carries plainLibrary (getWithToken "/api/v1/exports/incidents.json") someDraw.plaintext ∧
      Qualifies plainLibrary.tokenHash oneToken.tokens hour someDraw.plaintext .incidentsRead ∧
      passes plainLibrary hour hour oneToken (routes true)
        (getWithToken "/api/v1/incidents") = true ∧
      passes plainLibrary hour hour oneToken (routes true)
        (getWithToken "/api/v1/exports/incidents.json") = false ∧
      ¬ OpensDocumented plainLibrary hour hour oneToken
        (getWithToken "/api/v1/exports/incidents.json") someDraw.plaintext := by
  have hdocumented : documentedScope "/api/v1/exports/incidents.json" = some .incidentsRead := by
    decide +kernel
  have hopen : passes plainLibrary hour hour oneToken (routes true)
      (getWithToken "/api/v1/incidents") = true := by decide +kernel
  have hclosed : passes plainLibrary hour hour oneToken (routes true)
      (getWithToken "/api/v1/exports/incidents.json") = false := by decide +kernel
  refine ⟨hdocumented, ⟨someDraw, rfl⟩, carries_getWithToken _, oneToken_qualifies, hopen, hclosed,
    fun h => ?_⟩
  have hpass := (h.documented _ rfl hdocumented).mpr oneToken_qualifies
  exact Bool.false_ne_true (hclosed.symm.trans hpass)

/-- The other documented paths and the notification endpoints are as documented. -/
theorem token_scopes_iff_incidents :
    OpensDocumented plainLibrary hour hour oneToken (getWithToken "/api/v1/incidents")
      someDraw.plaintext := by
  refine (token_scopes_iff ⟨someDraw, rfl⟩ (carries_getWithToken _)).mpr ?_
  rintro ⟨-, hpath, -⟩
  exact absurd hpath (by decide +kernel)

end Binnacle.Api
