import Binnacle.Api.Scopes
import Binnacle.Notifications.Incidents
import Binnacle.Relational.Cursor
import Binnacle.Storage.History

/-!
# Exports

Model of `internal/api/exports.go`: the exports of events, incidents and metrics, over the
queries of `ExportEvents`, `ExportIncidents` and `QueryMetrics` under any pattern of storage
faults.

- `answer`: what the three handlers share, from the method to the limits on rows and bytes;
- `exports_whole_iff`: the export of incidents loses member alerts when the cursor over them
  stops early, which nobody asks it about. Apart from that, an export is whole unless the
  start of the range is cut to the unit of a column with a row right before the start.

Left out are the export of resources, which has no range, and the gaps that `QueryMetrics`
classifies, which the file does not have. The sizes of the encoded files are parameters.
-/

namespace Binnacle.Api

open Relational Storage Notifications

/-! ## Requests and responses -/

/-- `maxExportRows` (exports.go:20). -/
def maxExportRows : Nat := 10000

/-- `maxExportBytes` (exports.go:21). -/
def maxExportBytes : Nat := 16 * 2 ^ 20

/-- `maxExportRange` (exports.go:23). -/
def maxExportRange : Duration := 30 * 24 * hour

inductive Response (ρ : Type) where
  | ok (rows : List ρ) (bytes : Nat)
  | error (status : Nat)
  deriving DecidableEq

def Response.Whole {ρ : Type} (right : List ρ → Prop) : Response ρ → Prop
  | .ok rows bytes => right rows ∧ rows.length ≤ maxExportRows ∧ bytes ≤ maxExportBytes
  | .error status => 400 ≤ status

/-- A request for an export, with what its authorizer reads. The ends of the range are `none`
where they are not RFC 3339. -/
structure Call where
  lib : Library
  now : Time
  usedAt : Time
  stores : Stores
  authorizer : Authorizer
  request : Request
  from_ : Option Time
  to_ : Option Time
  scope : String := ""
  id : String := ""
  metrics : List Metric := []

namespace Call

/-- The decision of `requireAuth`. -/
def decision (c : Call) : AuthorizationDecision :=
  (requireAuth c.lib c.now c.usedAt c.stores c.request c.authorizer).1

/-- `exportRange` (exports.go:161-173). -/
def exportRange (c : Call) : Option (Time × Time) :=
  match c.from_, c.to_ with
  | some from_, some to_ =>
    if ¬ from_ < to_ ∨ to_ - from_ > maxExportRange then none else some (from_, to_)
  | _, _ => none

structure Accepted (c : Call) (from_ to_ : Time) : Prop where
  get : c.request.method = .get
  allowed : c.decision.allowed = true
  range : c.exportRange = some (from_, to_)

/-- The query of a metrics export (exports.go:58-65). -/
def query (c : Call) (from_ to_ : Time) : MetricQuery where
  scope := c.scope
  id := c.id
  metrics := c.metrics
  from_
  to_

end Call

/-- The rows are written unless they are too many, cannot be encoded or take too many bytes:
`writeJSONExport` and `writeAttachment` (exports.go:180-217). The loop of the metrics export
counts its rows to the same end (exports.go:74-90). -/
def writeExport {ρ : Type} (encode : List ρ → Option Nat) (rows : List ρ) : Response ρ :=
  if rows.length > maxExportRows then .error 413
  else
    match encode rows with
    | none => .error 500
    | some bytes => if bytes > maxExportBytes then .error 413 else .ok rows bytes

/-- What the handlers share (exports.go:46-129). They differ in how they fetch their rows and
in the status if that fails. -/
def answer {ρ : Type} (c : Call) (failure : Nat) (fetched : Time → Time → Option (List ρ))
    (encode : List ρ → Option Nat) : Response ρ :=
  if c.request.method ≠ .get then .error 405
  else if !c.decision.allowed then .error c.decision.status
  else
    match c.exportRange with
    | none => .error 400
    | some (from_, to_) =>
      match fetched from_ to_ with
      | none => .error failure
      | some rows => writeExport encode rows

structure Fits {ρ : Type} (encode : List ρ → Option Nat) (rows : List ρ) : Prop where
  count : rows.length ≤ maxExportRows
  size : ∃ bytes, encode rows = some bytes ∧ bytes ≤ maxExportBytes

/-! ## The queries -/

/-- `HistoricalEvent` (events.go:10-21). -/
structure HistoricalEvent where
  id : String
  at_ : Time
  type : String
  severity : String
  summary : String
  details : Option String
  correlationKey : Option String
  containerInstance : Option String
  resourceID : Option String
  source : String

/-- The event of a row (events.go:80-98). -/
def historicalEvent (e : EventRow) : HistoricalEvent where
  id := e.id
  at_ := ofUnixMilli e.ts
  type := e.type
  severity := e.severity
  summary := e.summary
  details := e.detailsJson
  correlationKey := e.correlationKey
  containerInstance := e.containerInstanceId
  resourceID := e.resourceId
  source := e.source

/-- The member of a row (repository.go:440-451). -/
def memberAlert (a : AlertRow) : MemberAlert where
  id := a.id
  family := a.family
  severity := a.severity
  status := a.status
  message := a.message
  startedAt := a.startedAt
  resolvedAt := a.resolvedAt

/-- An incident with the two counts of its row (`scanIncident`, repository.go:366-378) and the
members read for it. -/
def incident (db : Database) (i : IncidentRow) (alerts : List MemberAlert) : Incident where
  id := i.id
  groupKey := i.groupKey
  status := i.status
  severity := i.severity
  targetType := i.targetType
  targetId := i.targetId
  title := i.title
  alertCount := (db.incidentAlerts.rows.filter fun m => m.incidentId = i.id).length
  firingCount := (firingMembers db i.id).length
  openedAt := i.openedAt
  updatedAt := i.updatedAt
  resolvedAt := i.resolvedAt
  version := i.version
  alerts

structure MetricLine where
  scope : String
  id : String
  resolution : Resolution
  metric : Metric
  unit : MetricUnit
  point : Point

/-- The line of a point (exports.go:82). -/
def metricLine (q : MetricQuery) (metric : Metric) (point : Point) : MetricLine where
  scope := q.scope
  id := q.id
  resolution := selectResolution (q.to_ - q.from_)
  metric
  unit := metricUnit metric
  point

/-- `ts>=? AND ts<=?` with `UnixMilli` (events.go:73, history.go:208-222). -/
def inMillis (from_ to_ : Time) (ms : Int) : Bool := unixMilli from_ ≤ ms && ms ≤ unixMilli to_

/-- `i.opened_at>=? AND i.opened_at<=?` with `Unix` (repository.go:415). -/
def inSeconds (from_ to_ : Time) (s : Int) : Bool := unix from_ ≤ s && s ≤ unix to_

/-- What a call meets: the database, the order of rows where a query leaves it open, a fault
of each query, and the sizes of the files. -/
structure Site where
  db : Database
  order : RowOrder
  eventsFault : Option Fault := none
  incidentsFault : Option Fault := none
  membersFault : String → Option Fault := fun _ => none
  metricFault : Metric → Option Fault := fun _ => none
  encodeEvents : List HistoricalEvent → Option Nat
  encodeIncidents : List Incident → Option Nat
  encodeMetrics : List MetricLine → Option Nat

namespace Site

variable (s : Site)

/-- `… FROM events WHERE ts>=? AND ts<=? ORDER BY ts,id` (events.go:73). -/
def eventRows (from_ to_ : Time) : List EventRow :=
  ((s.order.arrange s.db.events.rows).filter fun e => inMillis from_ to_ e.ts).insertionSort
    fun e e' => e.ts < e'.ts ∨ e.ts = e'.ts ∧ e.id ≤ e'.id

/-- `ExportEvents` (events.go:69-102) with the limit of its caller. -/
def exportEvents (from_ to_ : Time) : Option (List HistoricalEvent) :=
  (fetch s.eventsFault ((s.eventRows from_ to_).take (maxExportRows + 1))).map
    (List.map historicalEvent)

/-- `… WHERE i.opened_at>=? AND i.opened_at<=? … ORDER BY i.opened_at,i.id` (repository.go:415). -/
def incidentRows (from_ to_ : Time) : List IncidentRow :=
  ((s.order.arrange s.db.incidents.rows).filter fun i =>
    inSeconds from_ to_ i.openedAt).insertionSort
      fun i i' => i.openedAt < i'.openedAt ∨ i.openedAt = i'.openedAt ∧ i.id ≤ i'.id

/-- `… WHERE ia.incident_id=? ORDER BY a.started_at` (repository.go:435). -/
def memberRows (incidentID : String) : List MemberAlert :=
  ((s.order.arrange (members s.db incidentID)).insertionSort
    fun a b => a.startedAt ≤ b.startedAt).map memberAlert

/-- The second loop of `ExportIncidents` for one incident (repository.go:434-454). It does not
ask the cursor for its error. -/
def withMembers (i : IncidentRow) : Option Incident :=
  (fetchUnchecked (s.membersFault i.id) (s.memberRows i.id)).map (incident s.db i)

/-- `ExportIncidents` (repository.go:411-457) with the limit of its caller. -/
def exportIncidents (from_ to_ : Time) : Option (List Incident) :=
  (fetch s.incidentsFault ((s.incidentRows from_ to_).take (maxExportRows + 1))).bind
    (List.mapM s.withMembers)

/-- One metric of `QueryMetrics` (history.go:154-159): `metricPoints` asks the cursor. -/
def metricLines (q : MetricQuery) (metric : Metric) : Option (List MetricLine) :=
  match metricPoints s.order s.db q metric (selectResolution (q.to_ - q.from_)) with
  | .error _ => none
  | .ok points => (fetch (s.metricFault metric) points).map (List.map (metricLine q metric))

/-- `QueryMetrics` (history.go:149-169), its points as the lines of the file. -/
def exportMetrics (q : MetricQuery) : Option (List MetricLine) :=
  match q.validate with
  | .error _ => none
  | .ok () => (q.metrics.mapM (s.metricLines q)).map List.flatten

/-- The handler of `events.json` (exports.go:92-110). -/
def eventsExport (c : Call) : Response HistoricalEvent :=
  answer c 500 s.exportEvents s.encodeEvents

/-- The handler of `incidents.json` (exports.go:111-129). -/
def incidentsExport (c : Call) : Response Incident :=
  answer c 500 s.exportIncidents s.encodeIncidents

/-- The handler of `metrics.csv` (exports.go:46-91). -/
def metricsExport (c : Call) : Response MetricLine :=
  answer c 400 (fun from_ to_ => s.exportMetrics (c.query from_ to_)) s.encodeMetrics

end Site

/-! ## What the files should say -/

def inRange (from_ to_ t : Time) : Bool := from_ ≤ t && t ≤ to_

def RightEvents (db : Database) (c : Call) (rows : List HistoricalEvent) : Prop :=
  ∃ from_ to_, c.from_ = some from_ ∧ c.to_ = some to_ ∧
    rows.Perm ((db.events.rows.map historicalEvent).filter fun e => inRange from_ to_ e.at_)

def Describes (db : Database) (r : IncidentRow) (i : Incident) : Prop :=
  i = incident db r i.alerts ∧ i.alerts.Perm ((members db r.id).map memberAlert)

structure RightIncidentsIn (db : Database) (from_ to_ : Time) (rows : List Incident) : Prop where
  each : ∀ i ∈ rows, ∃ r ∈ db.incidents.rows,
    inRange from_ to_ (ofUnix r.openedAt) = true ∧ Describes db r i
  all : (rows.map Incident.id).Perm
    ((db.incidents.rows.filter fun r => inRange from_ to_ (ofUnix r.openedAt)).map IncidentRow.id)

def RightIncidents (db : Database) (c : Call) (rows : List Incident) : Prop :=
  ∃ from_ to_, c.from_ = some from_ ∧ c.to_ = some to_ ∧ RightIncidentsIn db from_ to_ rows

/-- All points of a metric at a resolution, whatever their time. -/
def history (db : Database) (q : MetricQuery) (metric : Metric) (res : Resolution) : List Point :=
  if q.scope = "host" then
    match metric.host, res with
    | none, _ => []
    | some metric, .raw => db.hostSamples.rows.map fun s => rawPoint s.ts (hostValue metric s)
    | some metric, .rolled tier =>
      (db.hostRollups tier).rows.map fun r => rolledPoint r.ts (r.stats metric)
  else
    match metric.resource, res with
    | none, _ => []
    | some metric, .raw => (db.resourceSamples.rows.filter fun s => s.resourceId = q.id).map
        fun s => rawPoint s.ts (resourceValue metric s)
    | some metric, .rolled tier =>
      ((db.resourceRollups tier).rows.filter fun r => r.resourceId = q.id).map
        fun r => rolledPoint r.ts (r.stats metric)

/-- The points of the requested metrics in the requested range, at the resolution that suits
the range. -/
def RightMetrics (db : Database) (c : Call) (rows : List MetricLine) : Prop :=
  ∃ from_ to_, c.from_ = some from_ ∧ c.to_ = some to_ ∧
    rows.Perm (c.metrics.flatMap fun metric =>
      ((history db (c.query from_ to_) metric (selectResolution (to_ - from_))).filter fun p =>
        inRange from_ to_ p.at_).map (metricLine (c.query from_ to_) metric))

/-! ## When a file is written -/

theorem requireAuth_mem (lib : Library) (now usedAt : Time) (stores : Stores) (r : Request)
    (authorizer : Authorizer) :
    (requireAuth lib now usedAt stores r authorizer).1 ∈
      [allow, unauthorized, unauthorizedToken, insufficientScope] := by
  have hsession : (authorizeSession lib now stores r).1 ∈
      [allow, unauthorized, unauthorizedToken, insufficientScope] := by
    simp only [authorizeSession]
    split <;> simp
  match authorizer with
  | .sessions => exact hsession
  | .scoped a =>
    simp only [requireAuth, ScopedAuthorizer.decision]
    split
    · split
      · split
        · simp
        · split
          · simp
          · split <;> simp
      · simp
    · exact hsession

theorem Call.status_of_refused {c : Call} (h : c.decision.allowed = false) :
    400 ≤ c.decision.status := by
  have hmem : c.decision ∈ [allow, unauthorized, unauthorizedToken, insufficientScope] :=
    requireAuth_mem c.lib c.now c.usedAt c.stores c.request c.authorizer
  have hall : ∀ d ∈ [allow, unauthorized, unauthorizedToken, insufficientScope],
      d.allowed = false → 400 ≤ d.status := by decide
  exact hall _ hmem h

theorem Response.whole_error {ρ : Type} {right : List ρ → Prop} {status : Nat}
    (h : 400 ≤ status) : (Response.error status : Response ρ).Whole right := h

variable {from_ to_ : Time}

theorem Call.exportRange_eq_some {c : Call} (h : c.exportRange = some (from_, to_)) :
    c.from_ = some from_ ∧ c.to_ = some to_ ∧ from_ < to_ := by
  simp only [exportRange] at h
  split at h
  · next f t hf ht =>
    split_ifs at h with hbad
    cases h
    exact ⟨hf, ht, by_contra fun hlt => hbad (.inl hlt)⟩
  · cases h

theorem Call.requested_iff {c : Call} {P : Time → Time → Prop}
    (h : c.exportRange = some (from_, to_)) :
    (∃ f t, c.from_ = some f ∧ c.to_ = some t ∧ P f t) ↔ P from_ to_ := by
  obtain ⟨hfrom, hto, -⟩ := Call.exportRange_eq_some h
  constructor
  · rintro ⟨f, t, hf, ht, hP⟩
    rw [hfrom] at hf
    rw [hto] at ht
    cases hf
    cases ht
    exact hP
  · exact fun hP => ⟨from_, to_, hfrom, hto, hP⟩

theorem writeExport_whole_iff {ρ : Type} {encode : List ρ → Option Nat} {rows : List ρ}
    {right : List ρ → Prop} :
    (writeExport encode rows).Whole right ↔ (Fits encode rows → right rows) := by
  unfold writeExport
  split_ifs with hcount
  · refine iff_of_true (Response.whole_error (by decide)) fun hfits => ?_
    exact absurd hfits.count (Nat.not_le.mpr hcount)
  · have hrows : rows.length ≤ maxExportRows := Nat.le_of_not_lt hcount
    cases hencode : encode rows with
    | none =>
      refine iff_of_true (Response.whole_error (by decide)) fun hfits => ?_
      obtain ⟨bytes, hbytes, -⟩ := hfits.size
      rw [hencode] at hbytes
      cases hbytes
    | some bytes =>
      by_cases hsize : bytes > maxExportBytes
      · simp only [if_pos hsize]
        refine iff_of_true (Response.whole_error (by decide)) fun hfits => ?_
        obtain ⟨bytes', hbytes, hle⟩ := hfits.size
        rw [hencode] at hbytes
        cases hbytes
        exact absurd hle (Nat.not_le.mpr hsize)
      · have hle : bytes ≤ maxExportBytes := Nat.le_of_not_lt hsize
        simp only [if_neg hsize]
        exact ⟨fun h _ => h.1, fun h => ⟨h ⟨hrows, bytes, hencode, hle⟩, hrows, hle⟩⟩

/-- A handler answers as it should exactly if the rows it fetches are right whenever it can
write them. -/
theorem answer_whole_iff {ρ : Type} {c : Call} {failure : Nat}
    {fetched : Time → Time → Option (List ρ)} {encode : List ρ → Option Nat}
    {right : List ρ → Prop} (hfailure : 400 ≤ failure) :
    (answer c failure fetched encode).Whole right ↔
      ∀ from_ to_ rows, c.Accepted from_ to_ → fetched from_ to_ = some rows →
        Fits encode rows → right rows := by
  unfold answer
  by_cases hget : c.request.method = .get
  · rw [if_neg (not_not.mpr hget)]
    cases hallowed : c.decision.allowed with
    | false =>
      refine iff_of_true (Call.status_of_refused hallowed) fun _ _ _ h => ?_
      rw [h.allowed] at hallowed
      cases hallowed
    | true =>
      cases hrange : c.exportRange with
      | none =>
        refine iff_of_true (Response.whole_error (by decide)) fun _ _ _ h => ?_
        rw [h.range] at hrange
        cases hrange
      | some range =>
        obtain ⟨f, t⟩ := range
        have honly : ∀ {f' t'}, c.Accepted f' t' → f' = f ∧ t' = t := by
          intro f' t' h
          have heq := h.range.symm.trans hrange
          exact ⟨congrArg Prod.fst (Option.some.inj heq), congrArg Prod.snd (Option.some.inj heq)⟩
        cases hfetched : fetched f t with
        | none =>
          simp only [hfetched]
          refine iff_of_true hfailure fun f' t' rows h hrows => ?_
          obtain ⟨rfl, rfl⟩ := honly h
          rw [hfetched] at hrows
          cases hrows
        | some rows =>
          simp only [hfetched]
          refine writeExport_whole_iff.trans ⟨fun h f' t' rows' hacc hrows => ?_, fun h => ?_⟩
          · obtain ⟨rfl, rfl⟩ := honly hacc
            rw [hfetched] at hrows
            cases hrows
            exact h
          · exact h f t rows ⟨hget, hallowed, hrange⟩ hfetched
  · rw [if_pos hget]
    exact iff_of_true (Response.whole_error (by decide)) fun _ _ _ h => absurd h.get hget

/-- Where it is known what is fetched of a request that is let through, and when it can be
written, the rows have to be right whenever the request is served. -/
theorem answer_serves_iff {ρ : Type} {c : Call} {failure : Nat}
    {fetched : Time → Time → Option (List ρ)} {encode : List ρ → Option Nat}
    {right : List ρ → Prop} {Serves : Time → Time → Prop} {read : Time → Time → List ρ}
    (hfailure : 400 ≤ failure) (hserves : ∀ f t, Serves f t → c.Accepted f t)
    (hread : ∀ {f t rows}, c.Accepted f t →
      (fetched f t = some rows ∧ Fits encode rows ↔ Serves f t ∧ rows = read f t)) :
    (answer c failure fetched encode).Whole right ↔ ∀ f t, Serves f t → right (read f t) := by
  refine (answer_whole_iff hfailure).trans
    ⟨fun h f t hs => ?_, fun h f t rows hacc hrows hfits => ?_⟩
  · obtain ⟨hrows, hfits⟩ := (hread (hserves f t hs)).mpr ⟨hs, rfl⟩
    exact h f t _ (hserves f t hs) hrows hfits
  · obtain ⟨hs, rfl⟩ := (hread hacc).mp ⟨hrows, hfits⟩
    exact h f t hs

/-! ## The ends of a range -/

/-- A query that selects all rows of the range and none after it selects the range if it
selects none before it. -/
theorem selected_eq_inRange {ρ : Type} {at_ : ρ → Time} {selected : ρ → Bool} {rows : List ρ}
    (hsub : ∀ r ∈ rows, inRange from_ to_ (at_ r) = true → selected r = true)
    (hto : ∀ r ∈ rows, selected r = true → at_ r ≤ to_)
    (hearly : ¬ ∃ r ∈ rows, selected r = true ∧ at_ r < from_) :
    ∀ r ∈ rows, selected r = inRange from_ to_ (at_ r) := by
  intro r hr
  refine Bool.eq_iff_iff.mpr ⟨fun hsel => ?_, hsub r hr⟩
  have hge : from_ ≤ at_ r := Int.not_lt.mp fun hlt => hearly ⟨r, hr, hsel, hlt⟩
  simp only [inRange, Bool.and_eq_true, decide_eq_true_eq]
  exact ⟨hge, hto r hr hsel⟩

theorem not_lt_of_inRange {t : Time} (h : inRange from_ to_ t = true) : ¬ t < from_ := by
  simp only [inRange, Bool.and_eq_true, decide_eq_true_eq] at h
  exact Int.not_lt.mpr h.1

theorem inMillis_of_inRange {ms : Int} (h : inRange from_ to_ (ofUnixMilli ms) = true) :
    inMillis from_ to_ ms = true := by
  simp only [inRange, inMillis, Bool.and_eq_true, decide_eq_true_eq] at h ⊢
  refine ⟨?_, le_unixMilli.mpr h.2⟩
  rw [← unixMilli_ofUnixMilli ms]
  exact unixMilli_mono h.1

theorem le_of_inMillis {ms : Int} (h : inMillis from_ to_ ms = true) : ofUnixMilli ms ≤ to_ := by
  simp only [inMillis, Bool.and_eq_true, decide_eq_true_eq] at h
  exact le_unixMilli.mp h.2

theorem inSeconds_of_inRange {s : Int} (h : inRange from_ to_ (ofUnix s) = true) :
    inSeconds from_ to_ s = true := by
  simp only [inRange, inSeconds, Bool.and_eq_true, decide_eq_true_eq] at h ⊢
  refine ⟨?_, le_unix.mpr h.2⟩
  rw [← unix_ofUnix s]
  exact unix_mono h.1

theorem le_of_inSeconds {s : Int} (h : inSeconds from_ to_ s = true) : ofUnix s ≤ to_ := by
  simp only [inSeconds, Bool.and_eq_true, decide_eq_true_eq] at h
  exact le_unix.mp h.2

theorem fetch_limited {ρ : Type} {fault : Option Fault} {rows read : List ρ} {n : Nat} :
    fetch fault (rows.take (n + 1)) = some read ∧ read.length ≤ n ↔
      ((Readable fault rows ∧ ¬ Broken fault) ∧ rows.length ≤ n) ∧ read = rows := by
  have htake : rows.length ≤ n → rows.take (n + 1) = rows := fun h =>
    List.take_of_length_le (Nat.le_succ_of_le h)
  rw [fetch_eq_some]
  constructor
  · rintro ⟨⟨hclear, rfl⟩, hlen⟩
    have hall : rows.length ≤ n := by
      rw [List.length_take] at hlen
      omega
    rw [htake hall] at hclear ⊢
    exact ⟨⟨hclear, hall⟩, rfl⟩
  · rintro ⟨⟨hclear, hall⟩, rfl⟩
    rw [htake hall]
    exact ⟨⟨hclear, rfl⟩, hall⟩

/-! ## Events -/

namespace Site

variable (s : Site) (c : Call) {from_ to_ : Time} {q : MetricQuery}

theorem eventRows_perm (from_ to_ : Time) :
    (s.eventRows from_ to_).Perm (s.db.events.rows.filter fun e => inMillis from_ to_ e.ts) :=
  (List.perm_insertionSort ..).trans ((s.order.perm _).filter _)

/-- The request is let through, no fault is noticed and the file can be written. -/
structure ServesEvents (from_ to_ : Time) : Prop where
  accepted : c.Accepted from_ to_
  readable : Readable s.eventsFault (s.eventRows from_ to_)
  unbroken : ¬ Broken s.eventsFault
  fits : Fits s.encodeEvents ((s.eventRows from_ to_).map historicalEvent)

/-- An event that the query selects lies before the start of the range: in the same
millisecond. -/
def EarlyEvent (from_ to_ : Time) : Prop :=
  ∃ e ∈ s.db.events.rows, inMillis from_ to_ e.ts = true ∧ ofUnixMilli e.ts < from_

theorem servesEvents_iff {c : Call} {rows : List HistoricalEvent} (hacc : c.Accepted from_ to_) :
    s.exportEvents from_ to_ = some rows ∧ Fits s.encodeEvents rows ↔
      s.ServesEvents c from_ to_ ∧ rows = (s.eventRows from_ to_).map historicalEvent := by
  simp only [exportEvents, Option.map_eq_some_iff]
  constructor
  · rintro ⟨⟨read, hfetch, rfl⟩, hfits⟩
    have hlen := hfits.count
    rw [List.length_map] at hlen
    obtain ⟨⟨⟨hreadable, hunbroken⟩, -⟩, rfl⟩ := fetch_limited.mp ⟨hfetch, hlen⟩
    exact ⟨⟨hacc, hreadable, hunbroken, hfits⟩, rfl⟩
  · rintro ⟨h, rfl⟩
    have hlen := h.fits.count
    rw [List.length_map] at hlen
    have hfetch := fetch_limited.mpr ⟨⟨⟨h.readable, h.unbroken⟩, hlen⟩, rfl⟩
    exact ⟨⟨_, hfetch.1, rfl⟩, h.fits⟩

/-- The events are those of the range unless one lies right before its start. -/
theorem rightEvents_iff {c : Call} (hrange : c.exportRange = some (from_, to_)) :
    RightEvents s.db c ((s.eventRows from_ to_).map historicalEvent) ↔
      ¬ s.EarlyEvent from_ to_ := by
  refine (Call.requested_iff hrange).trans ?_
  rw [((s.eventRows_perm from_ to_).map historicalEvent).congr_left, List.filter_map]
  constructor
  · rintro hperm ⟨e, he, hsel, hlt⟩
    have hmem := hperm.mem_iff.mp (List.mem_map_of_mem (List.mem_filter.mpr ⟨he, hsel⟩))
    obtain ⟨e', he', hsame⟩ := List.mem_map.mp hmem
    have hat : ofUnixMilli e'.ts = ofUnixMilli e.ts := congrArg HistoricalEvent.at_ hsame
    have hin : inRange from_ to_ (ofUnixMilli e'.ts) = true := (List.mem_filter.mp he').2
    exact not_lt_of_inRange (hat ▸ hin) hlt
  · intro hearly
    refine List.Perm.of_eq (congrArg (List.map historicalEvent) (List.filter_congr ?_))
    exact selected_eq_inRange (fun _ _ => inMillis_of_inRange) (fun _ _ => le_of_inMillis) hearly

theorem eventsExport_whole_iff :
    (s.eventsExport c).Whole (RightEvents s.db c) ↔
      ∀ from_ to_, s.ServesEvents c from_ to_ → ¬ s.EarlyEvent from_ to_ := by
  refine (answer_serves_iff (by decide) (fun _ _ h => h.accepted) s.servesEvents_iff).trans ?_
  exact forall₃_congr fun f t h => s.rightEvents_iff h.accepted.range

/-! ## Incidents -/

theorem incidentRows_perm (from_ to_ : Time) :
    (s.incidentRows from_ to_).Perm
      (s.db.incidents.rows.filter fun i => inSeconds from_ to_ i.openedAt) :=
  (List.perm_insertionSort ..).trans ((s.order.perm _).filter _)

theorem memberRows_perm (incidentID : String) :
    (s.memberRows incidentID).Perm ((members s.db incidentID).map memberAlert) :=
  ((List.perm_insertionSort ..).trans (s.order.perm _)).map memberAlert

def Shortened (i : IncidentRow) : Prop := Cut (s.membersFault i.id) (s.memberRows i.id)

def incidentsRead (from_ to_ : Time) : List Incident :=
  (s.incidentRows from_ to_).map fun i =>
    incident s.db i (seen (s.membersFault i.id) (s.memberRows i.id))

/-- The request is let through, no fault is noticed and the file can be written. -/
structure ServesIncidents (from_ to_ : Time) : Prop where
  accepted : c.Accepted from_ to_
  readable : Readable s.incidentsFault (s.incidentRows from_ to_)
  unbroken : ¬ Broken s.incidentsFault
  members : ∀ i ∈ s.incidentRows from_ to_, Readable (s.membersFault i.id) (s.memberRows i.id)
  fits : Fits s.encodeIncidents (s.incidentsRead from_ to_)

/-- An incident that the query selects lies before the start of the range: in the same
second. -/
def EarlyIncident (from_ to_ : Time) : Prop :=
  ∃ i ∈ s.db.incidents.rows, inSeconds from_ to_ i.openedAt = true ∧ ofUnix i.openedAt < from_

theorem withMembers_eq_some {i : IncidentRow} {v : Incident} :
    s.withMembers i = some v ↔ Readable (s.membersFault i.id) (s.memberRows i.id) ∧
      v = incident s.db i (seen (s.membersFault i.id) (s.memberRows i.id)) := by
  simp only [withMembers, Option.map_eq_some_iff, fetchUnchecked_eq_some]
  constructor
  · rintro ⟨alerts, ⟨hreadable, rfl⟩, rfl⟩
    exact ⟨hreadable, rfl⟩
  · rintro ⟨hreadable, rfl⟩
    exact ⟨_, ⟨hreadable, rfl⟩, rfl⟩

theorem servesIncidents_iff {c : Call} {rows : List Incident} (hacc : c.Accepted from_ to_) :
    s.exportIncidents from_ to_ = some rows ∧ Fits s.encodeIncidents rows ↔
      s.ServesIncidents c from_ to_ ∧ rows = s.incidentsRead from_ to_ := by
  simp only [exportIncidents, Option.bind_eq_some_iff,
    mapM_eq_some fun _ _ _ => s.withMembers_eq_some]
  constructor
  · rintro ⟨⟨read, hfetch, hmembers, rfl⟩, hfits⟩
    have hlen := hfits.count
    rw [List.length_map] at hlen
    obtain ⟨⟨⟨hreadable, hunbroken⟩, -⟩, rfl⟩ := fetch_limited.mp ⟨hfetch, hlen⟩
    exact ⟨⟨hacc, hreadable, hunbroken, hmembers, hfits⟩, rfl⟩
  · rintro ⟨h, rfl⟩
    have hlen := h.fits.count
    rw [incidentsRead, List.length_map] at hlen
    have hfetch := fetch_limited.mpr ⟨⟨⟨h.readable, h.unbroken⟩, hlen⟩, rfl⟩
    exact ⟨⟨_, hfetch.1, h.members, rfl⟩, h.fits⟩

theorem right_of_read (h : RightIncidentsIn s.db from_ to_ (s.incidentsRead from_ to_))
    {i : IncidentRow} (hi : i ∈ s.incidentRows from_ to_) :
    inRange from_ to_ (ofUnix i.openedAt) = true ∧ ¬ s.Shortened i := by
  obtain ⟨r, -, hin, hsame, halerts⟩ := h.each _ (List.mem_map_of_mem hi)
  have hid : i.id = r.id := congrArg Incident.id hsame
  have hopened : i.openedAt = r.openedAt := congrArg Incident.openedAt hsame
  rw [← hid] at halerts
  rw [← hopened] at hin
  exact ⟨hin, seen_perm_iff.mp (halerts.trans (s.memberRows_perm i.id).symm)⟩

/-- The incidents are those of the range with all their members, unless one lies right before
its start or has members that are not read to the end. -/
theorem rightIncidents_iff {c : Call} (hrange : c.exportRange = some (from_, to_)) :
    RightIncidents s.db c (s.incidentsRead from_ to_) ↔
      ¬ s.EarlyIncident from_ to_ ∧ ∀ i ∈ s.incidentRows from_ to_, ¬ s.Shortened i := by
  have hrows := s.incidentRows_perm from_ to_
  refine (Call.requested_iff hrange).trans ⟨fun h => ⟨?_, fun i hi => (s.right_of_read h hi).2⟩, ?_⟩
  · rintro ⟨i, hi, hsel, hlt⟩
    have hread := hrows.mem_iff.mpr (List.mem_filter.mpr ⟨hi, hsel⟩)
    exact not_lt_of_inRange (s.right_of_read h hread).1 hlt
  · rintro ⟨hearly, hall⟩
    have hselected : ∀ i ∈ s.db.incidents.rows,
        inSeconds from_ to_ i.openedAt = inRange from_ to_ (ofUnix i.openedAt) :=
      selected_eq_inRange (fun _ _ => inSeconds_of_inRange) (fun _ _ => le_of_inSeconds) hearly
    refine ⟨fun v hv => ?_, ?_⟩
    · obtain ⟨i, hi, rfl⟩ := List.mem_map.mp hv
      obtain ⟨hstored, hsel⟩ := List.mem_filter.mp (hrows.mem_iff.mp hi)
      refine ⟨i, hstored, (hselected i hstored).symm.trans hsel, rfl, ?_⟩
      exact (seen_perm_iff.mpr (hall i hi)).trans (s.memberRows_perm i.id)
    · have hids : (s.incidentsRead from_ to_).map Incident.id =
          (s.incidentRows from_ to_).map IncidentRow.id := List.map_map
      rw [hids, ← List.filter_congr hselected]
      exact hrows.map IncidentRow.id

theorem incidentsExport_whole_iff :
    (s.incidentsExport c).Whole (RightIncidents s.db c) ↔
      ∀ from_ to_, s.ServesIncidents c from_ to_ →
        ¬ s.EarlyIncident from_ to_ ∧ ∀ i ∈ s.incidentRows from_ to_, ¬ s.Shortened i := by
  refine (answer_serves_iff (by decide) (fun _ _ h => h.accepted) s.servesIncidents_iff).trans ?_
  exact forall₃_congr fun f t h => s.rightIncidents_iff h.accepted.range

/-! ## Metrics -/

def points (q : MetricQuery) (metric : Metric) : List Point :=
  match metricPoints s.order s.db q metric (selectResolution (q.to_ - q.from_)) with
  | .error _ => []
  | .ok points => points

def linesRead (q : MetricQuery) : List MetricLine :=
  q.metrics.flatMap fun metric => (s.points q metric).map (metricLine q metric)

/-- The request is let through, no fault is noticed and the file can be written. -/
structure ServesMetrics (from_ to_ : Time) : Prop where
  accepted : c.Accepted from_ to_
  valid : (c.query from_ to_).validate = .ok ()
  readable : ∀ metric ∈ c.metrics,
    Readable (s.metricFault metric) (s.points (c.query from_ to_) metric)
  unbroken : ∀ metric ∈ c.metrics, ¬ Broken (s.metricFault metric)
  fits : Fits s.encodeMetrics (s.linesRead (c.query from_ to_))

/-- A point of a requested metric that its query selects lies before the start of the range:
in the same millisecond. -/
def EarlyPoint (from_ to_ : Time) : Prop :=
  ∃ metric ∈ c.metrics,
    ∃ p ∈ history s.db (c.query from_ to_) metric (selectResolution (to_ - from_)),
      inMillis from_ to_ (unixMilli p.at_) = true ∧ p.at_ < from_

theorem between_perm {ρ : Type} {ts : ρ → Int} {g : ρ → Point} (q : MetricQuery) (rows : List ρ)
    (hg : ∀ r, (g r).at_ = ofUnixMilli (ts r)) :
    ((between s.order ts q rows).map g).Perm
      ((rows.map g).filter fun p => inMillis q.from_ q.to_ (unixMilli p.at_)) := by
  have hsame : (fun p : Point => inMillis q.from_ q.to_ (unixMilli p.at_)) ∘ g =
      fun r => inMillis q.from_ q.to_ (ts r) := by
    funext r
    rw [Function.comp_apply, hg, unixMilli_ofUnixMilli]
  rw [List.filter_map, hsame]
  exact ((List.perm_insertionSort ..).trans ((s.order.perm _).filter _)).map g

theorem points_perm (q : MetricQuery) (metric : Metric) :
    (s.points q metric).Perm
      ((history s.db q metric (selectResolution (q.to_ - q.from_))).filter fun p =>
        inMillis q.from_ q.to_ (unixMilli p.at_)) := by
  simp only [points, metricPoints, history]
  by_cases hhost : q.scope = "host"
  · simp only [if_pos hhost]
    cases metric.host with
    | none => exact .nil
    | some metric =>
      cases selectResolution (q.to_ - q.from_) with
      | raw | rolled tier => exact s.between_perm q _ fun _ => rfl
  · simp only [if_neg hhost]
    cases metric.resource with
    | none => exact .nil
    | some metric =>
      cases selectResolution (q.to_ - q.from_) with
      | raw | rolled tier => exact s.between_perm q _ fun _ => rfl

theorem history_at {db : Database} {metric : Metric} {res : Resolution} {p : Point}
    (h : p ∈ history db q metric res) : ∃ ms, p.at_ = ofUnixMilli ms := by
  unfold history at h
  split at h <;> split at h
  case h_1 | h_1 => cases h
  all_goals
    obtain ⟨r, -, rfl⟩ := List.mem_map.mp h
    exact ⟨_, rfl⟩

theorem metricPoints_eq_points {metric : Metric} (h : metricAllowed q.scope metric = true) :
    metricPoints s.order s.db q metric (selectResolution (q.to_ - q.from_)) =
      .ok (s.points q metric) := by
  obtain ⟨found, hfound, -⟩ := metricPoints_ok s.order s.db h
  rw [points, hfound]

theorem metricLines_eq_some {metric : Metric} (h : metricAllowed q.scope metric = true)
    {lines : List MetricLine} :
    s.metricLines q metric = some lines ↔
      (Readable (s.metricFault metric) (s.points q metric) ∧ ¬ Broken (s.metricFault metric)) ∧
        lines = (s.points q metric).map (metricLine q metric) := by
  simp only [metricLines, s.metricPoints_eq_points h, Option.map_eq_some_iff, fetch_eq_some]
  constructor
  · rintro ⟨read, ⟨hclear, rfl⟩, rfl⟩
    exact ⟨hclear, rfl⟩
  · rintro ⟨hclear, rfl⟩
    exact ⟨_, ⟨hclear, rfl⟩, rfl⟩

theorem servesMetrics_iff {c : Call} {lines : List MetricLine} (hacc : c.Accepted from_ to_) :
    s.exportMetrics (c.query from_ to_) = some lines ∧ Fits s.encodeMetrics lines ↔
      s.ServesMetrics c from_ to_ ∧ lines = s.linesRead (c.query from_ to_) := by
  unfold exportMetrics
  cases hvalid : (c.query from_ to_).validate with
  | error e =>
    refine iff_of_false (by simp) fun h => ?_
    rw [h.1.valid] at hvalid
    cases hvalid
  | ok u =>
    have hallowed := (MetricQuery.metrics_of_validate hvalid).2
    simp only [Option.map_eq_some_iff,
      mapM_eq_some fun metric hmetric _ => s.metricLines_eq_some (hallowed metric hmetric)]
    constructor
    · rintro ⟨⟨read, ⟨hclear, rfl⟩, rfl⟩, hfits⟩
      exact ⟨⟨hacc, hvalid, fun metric hm => (hclear metric hm).1,
        fun metric hm => (hclear metric hm).2, hfits⟩, List.flatMap_def.symm⟩
    · rintro ⟨h, rfl⟩
      exact ⟨⟨_, ⟨fun metric hm => ⟨h.readable metric hm, h.unbroken metric hm⟩, rfl⟩,
        List.flatMap_def.symm⟩, h.fits⟩

/-- The points are those of the range unless one lies right before its start. -/
theorem rightMetrics_iff {c : Call} (hrange : c.exportRange = some (from_, to_)) :
    RightMetrics s.db c (s.linesRead (c.query from_ to_)) ↔ ¬ s.EarlyPoint c from_ to_ := by
  refine (Call.requested_iff hrange).trans ?_
  have hlines : (s.linesRead (c.query from_ to_)).Perm (c.metrics.flatMap fun metric =>
      ((history s.db (c.query from_ to_) metric (selectResolution (to_ - from_))).filter fun p =>
        inMillis from_ to_ (unixMilli p.at_)).map (metricLine (c.query from_ to_) metric)) :=
    List.Perm.flatMap_left _ fun metric _ => (s.points_perm _ metric).map _
  rw [hlines.congr_left]
  constructor
  · rintro hperm ⟨metric, hmetric, p, hp, hsel, hlt⟩
    have hmem := hperm.mem_iff.mp (List.mem_flatMap.mpr
      ⟨metric, hmetric, List.mem_map_of_mem (List.mem_filter.mpr ⟨hp, hsel⟩)⟩)
    obtain ⟨metric', -, hline⟩ := List.mem_flatMap.mp hmem
    obtain ⟨p', hp', hsame⟩ := List.mem_map.mp hline
    have hpoint : p' = p := congrArg MetricLine.point hsame
    have hin := (List.mem_filter.mp hp').2
    exact not_lt_of_inRange (hpoint ▸ hin) hlt
  · intro hearly
    refine List.Perm.flatMap_left _ fun metric hmetric => List.Perm.of_eq ?_
    refine congrArg (List.map _) (List.filter_congr (selected_eq_inRange ?_ ?_ ?_))
    · intro p hp hin
      obtain ⟨ms, hms⟩ := history_at hp
      rw [hms] at hin ⊢
      rw [unixMilli_ofUnixMilli]
      exact inMillis_of_inRange hin
    · intro p hp hsel
      obtain ⟨ms, hms⟩ := history_at hp
      rw [hms] at hsel ⊢
      rw [unixMilli_ofUnixMilli] at hsel
      exact le_of_inMillis hsel
    · rintro ⟨p, hp, hsel, hlt⟩
      exact hearly ⟨metric, hmetric, p, hp, hsel, hlt⟩

theorem metricsExport_whole_iff :
    (s.metricsExport c).Whole (RightMetrics s.db c) ↔
      ∀ from_ to_, s.ServesMetrics c from_ to_ → ¬ s.EarlyPoint c from_ to_ := by
  refine (answer_serves_iff (by decide) (fun _ _ h => h.accepted) s.servesMetrics_iff).trans ?_
  exact forall₃_congr fun f t h => s.rightMetrics_iff h.accepted.range

end Site

/-! ## The exports -/

/-- The exports of events and metrics are whole unless a row lies right before the start of the
range, in the unit of its column. The export of incidents is whole unless this happens or the
cursor over the members of an incident stops before the end. -/
theorem exports_whole_iff (s : Site) (c : Call) :
    ((s.eventsExport c).Whole (RightEvents s.db c) ↔
      ∀ from_ to_, s.ServesEvents c from_ to_ → ¬ s.EarlyEvent from_ to_) ∧
    ((s.incidentsExport c).Whole (RightIncidents s.db c) ↔
      ∀ from_ to_, s.ServesIncidents c from_ to_ →
        ¬ s.EarlyIncident from_ to_ ∧ ∀ i ∈ s.incidentRows from_ to_, ¬ s.Shortened i) ∧
    ((s.metricsExport c).Whole (RightMetrics s.db c) ↔
      ∀ from_ to_, s.ServesMetrics c from_ to_ → ¬ s.EarlyPoint c from_ to_) :=
  ⟨s.eventsExport_whole_iff c, s.incidentsExport_whole_iff c, s.metricsExport_whole_iff c⟩

def someSession : Auth.SessionRow where
  idHash := "cookie"
  userID := "admin"
  createdAt := 0
  lastSeenAt := 0
  expiresAt := unixMilli (24 * hour)
  absoluteExpiresAt := unixMilli (24 * hour)
  revokedAt := none
  authMethod := "password"
  authSubject := none

def firstHour : Call where
  lib := plainLibrary
  now := hour
  usedAt := hour
  stores := ⟨⟨⟨[someSession], by decide⟩, ⟨hour, 24 * hour⟩⟩, Table.empty⟩
  authorizer := .sessions
  request := ⟨.get, "/api/v1/exports/incidents.json", "", "cookie"⟩
  from_ := some 0
  to_ := some hour

def hostAlert (id : String) (startedAt : Int) : AlertRow where
  id
  dedupKey := id
  ruleId := "rule"
  family := Alerts.familyHostCPU
  severity := .warning
  targetType := "host"
  targetId := "server"
  status := .firing
  startedAt
  resolvedAt := none
  lastObservedAt := startedAt
  observedValue := 95
  message := ""

def cutShort : Site where
  db :=
    { Database.empty with
      alerts := ⟨[hostAlert "cpu" 10, hostAlert "memory" 20], by decide⟩
      incidents := ⟨[{
        id := "inc", groupKey := "host:server", status := .opened, severity := .warning
        targetType := "host", targetId := "server", title := "", openedAt := 10, updatedAt := 20
        resolvedAt := none, version := 1, nextReminderAt := none }], by decide⟩
      incidentAlerts := ⟨[⟨"inc", "cpu", 10, none⟩, ⟨"inc", "memory", 20, none⟩], by decide⟩ }
  order := .stored
  membersFault := fun _ => some (.broken 1)
  encodeEvents := fun _ => some 512
  encodeIncidents := fun _ => some 512
  encodeMetrics := fun _ => some 512

/-- The incident has two alerts, and the export that is answered with success shows one. -/
theorem incident_export_cut_short :
    (∃ i, cutShort.incidentsExport firstHour = .ok [i] 512 ∧ i.alertCount = 2 ∧
      i.alerts.map MemberAlert.id = ["cpu"]) ∧
    ¬ (cutShort.incidentsExport firstHour).Whole (RightIncidents cutShort.db firstHour) := by
  have hresponse :
      cutShort.incidentsExport firstHour = .ok (cutShort.incidentsRead 0 hour) 512 := by
    decide +kernel
  have hread : ∃ i, cutShort.incidentsRead 0 hour = [i] ∧ i.alertCount = 2 ∧
      i.alerts.map MemberAlert.id = ["cpu"] := ⟨_, rfl, by decide +kernel, by decide +kernel⟩
  have hcut : ∃ i ∈ cutShort.incidentRows 0 hour, cutShort.Shortened i :=
    ⟨_, .head _, 1, rfl, by decide +kernel⟩
  refine ⟨?_, fun h => ?_⟩
  · obtain ⟨i, hi, hcount, halerts⟩ := hread
    exact ⟨i, hresponse.trans (congrArg (Response.ok · 512) hi), hcount, halerts⟩
  · rw [hresponse] at h
    obtain ⟨i, hi, hshort⟩ := hcut
    have hrange : firstHour.exportRange = some (0, hour) := by decide +kernel
    exact ((cutShort.rightIncidents_iff hrange).mp h.1).2 i hi hshort

end Binnacle.Api
