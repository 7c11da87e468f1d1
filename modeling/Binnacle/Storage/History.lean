import Binnacle.Relational.Statement
import Binnacle.Storage.Rollups

/-!
# Metric history (`internal/storage/history.go`)

`QueryMetrics` reads the points of each metric at the resolution that suits the
range, and looks for gaps between the points of the first one. A gap is labelled
by what `classifyGap` finds in other tables, and neighbours with one label are
merged.

- `mergeGaps_forall`: what merging two gaps keeps, merging all of them does;
- `gap_labelled`: a gap is blamed on persistence exactly if an event of one of two
  types lies in it.
-/

namespace Binnacle.Storage

open Relational Metrics

/-! ## Queries -/

/-- `Metric` (history.go:10-31); any other string is `unknown`. -/
inductive Metric where
  | cpu | cpuUser | cpuSystem | cpuIowait | cpuSteal | memory | swap | load1 | load5 | load15
  | networkRx | networkTx | networkPackets | diskRead | diskWrite | diskIops
  | blockRead | blockWrite
  | unknown (name : String)
  deriving DecidableEq

/-- `Resolution` (history.go:33-40). -/
inductive Resolution where
  | raw
  | rolled (tier : Tier)
  deriving DecidableEq

/-- `MetricQuery` (history.go:42-46). -/
structure MetricQuery where
  scope : String
  id : String := ""
  metrics : List Metric
  from_ : Time
  to_ : Time

inductive QueryError where
  /-- `invalid scope`. -/
  | invalidScope
  /-- `host metrics do not accept id`. -/
  | hostId
  /-- `resource id is required`. -/
  | resourceIdRequired
  /-- `invalid time range`. -/
  | invalidTimeRange
  /-- `invalid metric count`. -/
  | invalidMetricCount
  /-- `invalid metric %q`. -/
  | invalidMetric (metric : Metric)
  /-- `unsupported metric`. -/
  | unsupportedMetric

/-- The column of a host metric: `hostMetrics` (history.go:106-112), and the maps of
`metricSource` (history.go:253-269) at its keys. -/
def Metric.host : Metric → Option HostMetric
  | .cpu => some .cpu
  | .cpuUser => some .cpuUser
  | .cpuSystem => some .cpuSystem
  | .cpuIowait => some .cpuIowait
  | .cpuSteal => some .cpuSteal
  | .memory => some .memory
  | .swap => some .swapUsed
  | .load1 => some .load1
  | .load5 => some .load5
  | .load15 => some .load15
  | .networkRx => some .networkRx
  | .networkTx => some .networkTx
  | .diskRead => some .diskRead
  | .diskWrite => some .diskWrite
  | .diskIops => some .diskIops
  | .networkPackets | .blockRead | .blockWrite | .unknown _ => none

/-- The column of a resource metric: `resourceMetrics` (history.go:113-115). -/
def Metric.resource : Metric → Option ResourceMetric
  | .cpu => some .cpu
  | .memory => some .memory
  | .networkRx => some .networkRx
  | .networkTx => some .networkTx
  | .blockRead => some .blockRead
  | .blockWrite => some .blockWrite
  | _ => none

/-- `metricAllowed` (history.go:117-122). -/
def metricAllowed (scope : String) (metric : Metric) : Bool :=
  if scope = "host" then metric.host.isSome else metric.resource.isSome

/-- The loop of `Validate` over the metrics (history.go:96-102). -/
def validateMetrics (scope : String) (seen : List Metric) : List Metric → Except QueryError Unit
  | [] => .ok ()
  | metric :: metrics =>
    if metric ∈ seen ∨ metricAllowed scope metric = false then .error (.invalidMetric metric)
    else validateMetrics scope (metric :: seen) metrics

/-- `Validate` (history.go:80-104). -/
def MetricQuery.validate (q : MetricQuery) : Except QueryError Unit :=
  if q.scope ≠ "host" ∧ q.scope ≠ "resource" then .error .invalidScope
  else if q.scope = "host" ∧ q.id ≠ "" then .error .hostId
  else if q.scope = "resource" ∧ q.id = "" then .error .resourceIdRequired
  else if q.from_ = zeroTime ∨ q.to_ = zeroTime ∨ ¬ q.from_ < q.to_
      ∨ q.to_ - q.from_ > 30 * 24 * hour then .error .invalidTimeRange
  else if q.metrics.length = 0 ∨ q.metrics.length > 6 then .error .invalidMetricCount
  else validateMetrics q.scope [] q.metrics

/-- `selectResolution` (history.go:123-134). -/
def selectResolution (d : Duration) : Resolution :=
  if d ≤ 2 * hour then .raw
  else if d ≤ 1000 * minute then .rolled .oneMinute
  else if d ≤ 1000 * 15 * minute then .rolled .fifteenMinute
  else .rolled .oneHour

/-- The units of `metricUnit`. -/
inductive MetricUnit where
  | percent | bytes | load | opsPerSecond | bytesPerSecond
  deriving DecidableEq

/-- `metricUnit` (history.go:135-147). -/
def metricUnit : Metric → MetricUnit
  | .cpu | .cpuUser | .cpuSystem | .cpuIowait | .cpuSteal => .percent
  | .memory | .swap => .bytes
  | .load1 | .load5 | .load15 => .load
  | .diskIops => .opsPerSecond
  | _ => .bytesPerSecond

/-! ## Points -/

/-- `Point` (history.go:47-53). -/
structure Point where
  at_ : Time
  min : Option ℚ
  avg : Option ℚ
  max : Option ℚ
  count : Nat
  deriving DecidableEq

/-- The point of a raw sample (history.go:233-241). -/
def rawPoint (ts : Int) (value : Option ℚ) : Point where
  at_ := ofUnixMilli ts
  min := value
  avg := value
  max := value
  count := if value.isSome then 1 else 0

/-- The point of a rollup row (history.go:242-246). -/
def rolledPoint (ts : Int) (stats : Stats) : Point where
  at_ := ofUnixMilli ts
  min := stats.min
  avg := stats.avg
  max := stats.max
  count := stats.count

/-- `… WHERE ts>=? AND ts<=? … ORDER BY ts`. -/
def between {ρ : Type} (order : RowOrder) (ts : ρ → Int) (q : MetricQuery) (rows : List ρ) :
    List ρ :=
  ((order.arrange rows).filter fun r =>
    unixMilli q.from_ ≤ ts r && ts r ≤ unixMilli q.to_).insertionSort fun r s => ts r ≤ ts s

/-- `metricPoints` (history.go:200-251). -/
def metricPoints (order : RowOrder) (db : Database) (q : MetricQuery) (metric : Metric)
    (res : Resolution) : Except QueryError (List Point) :=
  if q.scope = "host" then
    match metric.host, res with
    | none, _ => .error .unsupportedMetric
    | some metric, .raw => .ok <| (between order HostSample.ts q db.hostSamples.rows).map
        fun s => rawPoint s.ts (hostValue metric s)
    | some metric, .rolled tier =>
      .ok <| (between order HostRollup.ts q (db.hostRollups tier).rows).map
        fun r => rolledPoint r.ts (r.stats metric)
  else
    match metric.resource, res with
    | none, _ => .error .unsupportedMetric
    | some metric, .raw =>
      .ok <| (between order ResourceSample.ts q
          (db.resourceSamples.rows.filter fun s => s.resourceId = q.id)).map
        fun s => rawPoint s.ts (resourceValue metric s)
    | some metric, .rolled tier =>
      .ok <| (between order ResourceRollup.ts q
          ((db.resourceRollups tier).rows.filter fun r => r.resourceId = q.id)).map
        fun r => rolledPoint r.ts (r.stats metric)

/-! ## Gaps -/

inductive GapReason where
  | missing | inactive | collectorUnavailable | persistenceFailure
  deriving DecidableEq

/-- `Gap` (history.go:59-63). -/
structure Gap where
  from_ : Time
  to_ : Time
  reason : GapReason := .missing
  deriving DecidableEq

/-- The distance of two points (history.go:303). -/
def Resolution.step : Resolution → Duration
  | .raw => 10 * second
  | .rolled tier => tier.size

/-- The loop of `findGaps` from a cursor on (history.go:309-320). -/
def findGapsFrom (to_ : Time) (step : Duration) (cursor : Time) : List Point → List Gap
  | [] => if to_ - cursor > step * 2 then [{ from_ := cursor, to_ }] else []
  | p :: points =>
    (if p.at_ - cursor > step * 2 then [{ from_ := cursor, to_ := p.at_ }] else [])
      ++ (if p.avg = none then [{ from_ := p.at_, to_ := p.at_ + step }] else [])
      ++ findGapsFrom to_ step (p.at_ + step) points

/-- `findGaps` (history.go:302-322). -/
def findGaps (from_ to_ : Time) (res : Resolution) (points : List Point) : List Gap :=
  findGapsFrom to_ res.step from_ points

/-- The types of events that speak of persistence (history.go:173). -/
def persistenceEvent (type : String) : Bool :=
  type = "persistence_degraded" || type = "persistence_gap"

def Evidence (db : Database) (from_ to_ : Time) : Prop :=
  ∃ e ∈ db.events.rows, persistenceEvent e.type = true ∧ unixMilli from_ ≤ e.ts ∧
    e.ts < unixMilli to_

/-- The last row before a time: `… ORDER BY ts DESC LIMIT 1`. -/
def latest {ρ : Type} (order : RowOrder) (ts : ρ → Int) (rows : List ρ) : Option ρ :=
  ((order.arrange rows).insertionSort fun r s => ts s ≤ ts r).head?

def unavailable (state : CollectorState) : Bool := state = .degraded || state = .down

/-- `classifyGap` (history.go:171-199). A query without a row leaves its variables as
they were: the state empty, the instances 0. -/
def classifyGap (order : RowOrder) (db : Database) (q : MetricQuery) (gap : Gap) : GapReason :=
  let from_ := unixMilli gap.from_
  let to_ := unixMilli gap.to_
  if 0 < db.events.rows.countP fun e => from_ ≤ e.ts && e.ts < to_ && persistenceEvent e.type then
    .persistenceFailure
  else
    let collector := if q.scope = "resource" then "docker" else "host"
    let before := latest order CollectorStateEvent.ts
      (db.collectorStateEvents.rows.filter fun e => e.collectorName = collector && e.ts ≤ from_)
    if before.any fun e => unavailable e.newState then .collectorUnavailable
    else if 0 < db.collectorStateEvents.rows.countP fun e =>
        e.collectorName = collector && from_ ≤ e.ts && e.ts < to_ && unavailable e.newState then
      .collectorUnavailable
    else if q.scope = "resource" then
      match latest order ResourceSample.ts
          (db.resourceSamples.rows.filter fun s => s.resourceId = q.id && s.ts < to_) with
      | none => .inactive
      | some s =>
        if s.activeInstanceCount = 0 ∨ s.status = .paused ∨ s.status = .archived then .inactive
        else .missing
    else .missing

/-- The loop of `mergeGaps` with the last gap (history.go:329-338). -/
def mergeGapsFrom (last : Gap) : List Gap → List Gap
  | [] => [last]
  | gap :: gaps =>
    if gap.reason = last.reason ∧ gap.from_ ≤ last.to_ then
      mergeGapsFrom { last with to_ := max last.to_ gap.to_ } gaps
    else last :: mergeGapsFrom gap gaps

/-- `mergeGaps` (history.go:324-340). -/
def mergeGaps : List Gap → List Gap
  | [] => []
  | gap :: gaps => mergeGapsFrom gap gaps

/-! ## The query -/

/-- `Series` (history.go:54-58). -/
structure MetricSeries where
  metric : Metric
  unit : MetricUnit
  points : List Point
  deriving DecidableEq

/-- `MetricsResponse` (history.go:64-72). -/
structure MetricsResponse where
  scope : String
  id : String
  from_ : Time
  to_ : Time
  resolution : Resolution
  series : List MetricSeries
  gaps : List Gap

/-- `QueryMetrics` (history.go:149-169). Only the points of the first metric are
searched for gaps. -/
def queryMetrics (order : RowOrder) (db : Database) (q : MetricQuery) :
    Except QueryError MetricsResponse := do
  q.validate
  let res := selectResolution (q.to_ - q.from_)
  let series ← q.metrics.mapM fun metric => do
    let points ← metricPoints order db q metric res
    return { metric, unit := metricUnit metric, points }
  let gaps := match series.head? with
    | none => []
    | some first => (findGaps q.from_ q.to_ res first.points).map fun gap =>
        { gap with reason := classifyGap order db q gap }
  return {
    scope := q.scope, id := q.id, from_ := q.from_, to_ := q.to_, resolution := res, series
    gaps := mergeGaps gaps }

/-! ## Labels -/

/-- A gap is blamed on persistence if there is evidence, whatever else happened. -/
theorem classifyGap_persistence (order : RowOrder) (db : Database) (q : MetricQuery) (gap : Gap) :
    classifyGap order db q gap = .persistenceFailure ↔ Evidence db gap.from_ gap.to_ := by
  have hcount : (0 < db.events.rows.countP fun e => unixMilli gap.from_ ≤ e.ts &&
      e.ts < unixMilli gap.to_ && persistenceEvent e.type) ↔ Evidence db gap.from_ gap.to_ := by
    rw [List.countP_pos_iff]
    refine exists_congr fun e => and_congr_right fun _ => ?_
    simp only [Bool.and_eq_true, decide_eq_true_eq]
    tauto
  rw [← hcount]
  unfold classifyGap
  dsimp only
  split
  · next hpos => exact iff_of_true rfl hpos
  · next hnone =>
    refine iff_of_false ?_ hnone
    -- none of the later branches speaks of persistence
    repeat' split
    all_goals exact nofun

theorem mergeGapsFrom_forall {P : Gap → Prop}
    (hmerge : ∀ last gap, P last → P gap → gap.reason = last.reason → gap.from_ ≤ last.to_ →
      P { last with to_ := max last.to_ gap.to_ })
    {gaps : List Gap} (hgaps : ∀ gap ∈ gaps, P gap) {last : Gap} (hlast : P last) :
    ∀ gap ∈ mergeGapsFrom last gaps, P gap := by
  induction gaps generalizing last with
  | nil =>
    intro gap hgap
    rw [List.mem_singleton.mp hgap]
    exact hlast
  | cons gap gaps ih =>
    have hhere := hgaps gap List.mem_cons_self
    have hrest : ∀ g ∈ gaps, P g := fun g hg => hgaps g (List.mem_cons_of_mem _ hg)
    intro g hg
    unfold mergeGapsFrom at hg
    split at hg
    · next hsame => exact ih hrest (hmerge last gap hlast hhere hsame.1 hsame.2) g hg
    · rcases List.mem_cons.mp hg with rfl | hg
      · exact hlast
      · exact ih hrest hhere g hg

theorem mergeGaps_forall {P : Gap → Prop}
    (hmerge : ∀ last gap, P last → P gap → gap.reason = last.reason → gap.from_ ≤ last.to_ →
      P { last with to_ := max last.to_ gap.to_ })
    {gaps : List Gap} (hgaps : ∀ gap ∈ gaps, P gap) : ∀ gap ∈ mergeGaps gaps, P gap := by
  cases gaps with
  | nil => exact nofun
  | cons last gaps =>
    exact mergeGapsFrom_forall hmerge (fun g hg => hgaps g (List.mem_cons_of_mem _ hg))
      (hgaps last List.mem_cons_self)

variable {db : Database} {q : MetricQuery}

/-- Two gaps that touch have evidence together exactly if one of them has. -/
theorem evidence_merge {from_ to_ from' to' : Time} (htouch : from' ≤ to_) :
    Evidence db from_ (max to_ to') → Evidence db from_ to_ ∨ Evidence db from' to' := by
  rintro ⟨e, he, htype, hfrom, hto⟩
  by_cases hfirst : e.ts < unixMilli to_
  · exact .inl ⟨e, he, htype, hfrom, hfirst⟩
  · have hstart := unixMilli_mono htouch
    refine .inr ⟨e, he, htype, by omega, ?_⟩
    rcases le_total to_ to' with hle | hle
    · rwa [max_eq_right hle] at hto
    · rw [max_eq_left hle] at hto
      exact absurd hto hfirst

def Labelled (db : Database) (gap : Gap) : Prop :=
  gap.reason = .persistenceFailure ↔ Evidence db gap.from_ gap.to_

theorem labelled_merge {last gap : Gap} (hlast : Labelled db last) (hgap : Labelled db gap)
    (hsame : gap.reason = last.reason) (htouch : gap.from_ ≤ last.to_) :
    Labelled db { last with to_ := max last.to_ gap.to_ } := by
  constructor
  · intro hreason
    obtain ⟨e, he, htype, hfrom, hto⟩ := hlast.mp hreason
    have hlater : unixMilli last.to_ ≤ unixMilli (max last.to_ gap.to_) :=
      unixMilli_mono (le_max_left _ _)
    exact ⟨e, he, htype, hfrom, lt_of_lt_of_le hto hlater⟩
  · intro hevidence
    rcases evidence_merge htouch hevidence with h | h
    · exact hlast.mpr h
    · exact hsame.symm.trans (hgap.mpr h)

/-- A gap of a response is blamed on persistence exactly if an event of one of the two
types lies in it. -/
theorem gap_labelled {order : RowOrder} {r : MetricsResponse} (h : queryMetrics order db q = .ok r)
    {gap : Gap} (hgap : gap ∈ r.gaps) : Labelled db gap := by
  unfold queryMetrics at h
  obtain ⟨-, -, h⟩ := bind_ok.mp h
  obtain ⟨series, -, h⟩ := bind_ok.mp h
  obtain rfl := (Except.ok.inj h).symm
  refine mergeGaps_forall (fun last gap hlast hgap => labelled_merge hlast hgap) ?_ gap hgap
  intro g hg
  split at hg
  · cases hg
  · obtain ⟨found, -, rfl⟩ := List.mem_map.mp hg
    exact classifyGap_persistence order db q found

/-! ## How many points -/

def rowsInRange (db : Database) (q : MetricQuery) : Nat :=
  let inRange (ts : Int) : Bool := unixMilli q.from_ ≤ ts && ts ≤ unixMilli q.to_
  match selectResolution (q.to_ - q.from_) with
  | .raw =>
    if q.scope = "host" then db.hostSamples.rows.countP fun s => inRange s.ts
    else (db.resourceSamples.rows.filter fun s => s.resourceId = q.id).countP fun s => inRange s.ts
  | .rolled tier =>
    if q.scope = "host" then (db.hostRollups tier).rows.countP fun r => inRange r.ts
    else ((db.resourceRollups tier).rows.filter fun r => r.resourceId = q.id).countP
      fun r => inRange r.ts

theorem length_between {ρ : Type} (order : RowOrder) (ts : ρ → Int) (q : MetricQuery)
    (rows : List ρ) : (between order ts q rows).length =
      rows.countP fun r => unixMilli q.from_ ≤ ts r && ts r ≤ unixMilli q.to_ := by
  unfold between
  rw [List.length_insertionSort, ← List.countP_eq_length_filter]
  exact (order.perm rows).countP_eq _

theorem metricPoints_ok (order : RowOrder) (db : Database) {metric : Metric}
    (h : metricAllowed q.scope metric = true) :
    ∃ points, metricPoints order db q metric (selectResolution (q.to_ - q.from_)) = .ok points ∧
      points.length = rowsInRange db q := by
  unfold metricAllowed at h
  unfold metricPoints rowsInRange
  by_cases hscope : q.scope = "host"
  · simp only [if_pos hscope] at h ⊢
    obtain ⟨column, hcolumn⟩ := Option.isSome_iff_exists.mp h
    rw [hcolumn]
    cases selectResolution (q.to_ - q.from_) with
    | raw | rolled tier => exact ⟨_, rfl, by rw [List.length_map, length_between]⟩
  · simp only [if_neg hscope] at h ⊢
    obtain ⟨column, hcolumn⟩ := Option.isSome_iff_exists.mp h
    rw [hcolumn]
    cases selectResolution (q.to_ - q.from_) with
    | raw | rolled tier => exact ⟨_, rfl, by rw [List.length_map, length_between]⟩

theorem allowed_of_validateMetrics {scope : String} {metrics seen : List Metric}
    (h : validateMetrics scope seen metrics = .ok ()) :
    ∀ metric ∈ metrics, metricAllowed scope metric = true := by
  induction metrics generalizing seen with
  | nil => exact nofun
  | cons metric metrics ih =>
    unfold validateMetrics at h
    split at h
    · cases h
    · next hallowed =>
      rw [not_or, Bool.not_eq_false] at hallowed
      exact List.forall_mem_cons.mpr ⟨hallowed.2, ih h⟩

theorem MetricQuery.metrics_of_validate (h : q.validate = .ok ()) :
    q.metrics ≠ [] ∧ ∀ metric ∈ q.metrics, metricAllowed q.scope metric = true := by
  unfold MetricQuery.validate at h
  split at h
  · cases h
  split at h
  · cases h
  split at h
  · cases h
  split at h
  · cases h
  split at h
  · cases h
  · next hcount =>
    rw [not_or] at hcount
    exact ⟨fun hnil => hcount.1 (congrArg List.length hnil), allowed_of_validateMetrics h⟩

/-- No series of an answer is longer than `n` exactly if there are no more rows in range: nothing
else limits the points. -/
theorem queryMetrics_length_le_iff {n : Int} :
    (∀ order r, queryMetrics order db q = .ok r → ∀ series ∈ r.series,
      (series.points.length : Int) ≤ n) ↔ (q.validate = .ok () → (rowsInRange db q : Int) ≤ n) := by
  constructor
  · intro h hvalid
    obtain ⟨hne, hallowed⟩ := MetricQuery.metrics_of_validate hvalid
    obtain ⟨metric, hmetric⟩ := List.exists_mem_of_ne_nil _ hne
    obtain ⟨all, hall, hmem⟩ := mapM_ok_of_forall fun metric hmetric =>
      let ⟨points, hpoints, _⟩ := metricPoints_ok .stored db (hallowed metric hmetric)
      ⟨MetricSeries.mk metric (metricUnit metric) points, bind_ok.mpr ⟨points, hpoints, rfl⟩⟩
    obtain ⟨series, hseries, hone⟩ := hmem metric hmetric
    obtain ⟨points, hpoints, hlength⟩ := metricPoints_ok .stored db (hallowed metric hmetric)
    rw [hpoints] at hone
    cases hone
    have hquery : ∃ r, queryMetrics .stored db q = .ok r ∧ r.series = all :=
      ⟨_, bind_ok.mpr ⟨(), hvalid, bind_ok.mpr ⟨all, hall, rfl⟩⟩, rfl⟩
    obtain ⟨r, hr, rfl⟩ := hquery
    rw [← hlength]
    exact h .stored r hr _ hseries
  · intro h order r hr series hseries
    obtain ⟨_, hvalid, hr⟩ := bind_ok.mp hr
    obtain ⟨all, hall, hr⟩ := bind_ok.mp hr
    cases hr
    obtain ⟨metric, hmetric, hone⟩ := exists_of_mapM_ok hall series hseries
    obtain ⟨points, hpoints, hlength⟩ := metricPoints_ok order db
      ((MetricQuery.metrics_of_validate hvalid).2 metric hmetric)
    rw [hpoints] at hone
    cases hone
    rw [hlength]
    exact h hvalid

end Binnacle.Storage
