import Binnacle.Storage.Schema

/-!
# Rollups (`internal/storage/rollups.go`)

`rollupOnce` runs two `INSERT OR REPLACE … SELECT … GROUP BY` per tier, each
committed on its own. `hostSeries` and `resourceSeries` say what the two
statements group and aggregate; the statements are the windowed aggregates of
`Relational.Series` at these.

- `cutoff_aligned`: the cutoff of a tier lies on a bucket boundary;
- `rollupOnce_exact`: what a call leaves in every tier.
-/

namespace Binnacle.Storage

open Relational

/-- The size of a tier's buckets (rollups.go:19). -/
def Tier.size : Tier → Duration
  | .oneMinute => minute
  | .fifteenMinute => 15 * minute
  | .oneHour => hour

/-- `tier.size.Milliseconds()` (rollups.go:20). -/
def Tier.bucket (tier : Tier) : Int := tier.size.tdiv millisecond

/-- `now.UTC().Truncate(tier.size).UnixMilli()` (rollups.go:21). -/
def Tier.cutoff (tier : Tier) (now : Time) : Int := unixMilli (truncate now tier.size)

/-- What a host sample reads for each metric; `disk_read_iops+disk_write_iops`
is null when either is (rollups.go:40-55). -/
def hostValue (metric : HostMetric) (s : HostSample) : Option ℚ :=
  match metric with
  | .cpu => s.cpuBusyPct
  | .memory => s.memoryUsedBytes.map fun n => (n : ℚ)
  | .networkRx => s.networkRxBps
  | .networkTx => s.networkTxBps
  | .cpuUser => s.cpuUserPct
  | .cpuSystem => s.cpuSystemPct
  | .cpuIowait => s.cpuIowaitPct
  | .cpuSteal => s.cpuStealPct
  | .load1 => s.load1
  | .load5 => s.load5
  | .load15 => s.load15
  | .swapUsed => s.swapUsedBytes.map fun n => (n : ℚ)
  | .diskRead => s.diskReadBps
  | .diskWrite => s.diskWriteBps
  | .diskIops => s.diskReadIops.bind fun r => s.diskWriteIops.map fun w => r + w

/-- What a resource sample reads for each metric (rollups.go:61). -/
def resourceValue (metric : ResourceMetric) (s : ResourceSample) : Option ℚ :=
  match metric with
  | .cpu => s.cpuHostPct
  | .memory => s.memoryWorkingSetBytes.map fun n => (n : ℚ)
  | .networkRx => s.networkRxBps
  | .networkTx => s.networkTxBps
  | .blockRead => s.blockReadBps
  | .blockWrite => s.blockWriteBps

/-- `FROM host_samples_10s … GROUP BY (ts/bucket)`. -/
def hostSeries : Series HostSample Unit HostMetric where
  ts := HostSample.ts
  group _ := ()
  value := hostValue

/-- `FROM resource_samples_10s … GROUP BY resource_id,(ts/bucket)`. -/
def resourceSeries : Series ResourceSample String ResourceMetric where
  ts := ResourceSample.ts
  group := ResourceSample.resourceId
  value := resourceValue

def hostRollupRow (p : Unit × Int) (stats : HostMetric → Stats) : HostRollup := ⟨p.2, stats⟩

def resourceRollupRow (p : String × Int) (stats : ResourceMetric → Stats) : ResourceRollup :=
  ⟨p.2, p.1, stats⟩

/-- The host statement of one tier (rollups.go:22-58). -/
def rollupHost (tier : Tier) (now : Time) (db : Database) : Database :=
  { db with
    hostRollups := fun t => if t = tier then
        hostSeries.rollup hostRollupRow tier.bucket (tier.cutoff now) db.hostSamples.rows
          (db.hostRollups t)
      else db.hostRollups t }

/-- The resource statement of one tier (rollups.go:59-64). -/
def rollupResource (tier : Tier) (now : Time) (db : Database) : Database :=
  { db with
    resourceRollups := fun t => if t = tier then
        resourceSeries.rollup resourceRollupRow tier.bucket (tier.cutoff now)
          db.resourceSamples.rows (db.resourceRollups t)
      else db.resourceRollups t }

/-- `RollupOnce` (rollups.go:12-68). -/
def rollupOnce (now : Time) (db : Database) : Database :=
  [Tier.oneMinute, .fifteenMinute, .oneHour].foldl
    (fun db tier => rollupResource tier now (rollupHost tier now db)) db

theorem Tier.bucket_pos (tier : Tier) : 0 < tier.bucket := by
  cases tier <;> decide

@[simp] theorem Tier.bucket_oneMinute : Tier.oneMinute.bucket = 60000 := by decide

@[simp] theorem Tier.bucket_fifteenMinute : Tier.fifteenMinute.bucket = 900000 := by decide

@[simp] theorem Tier.bucket_oneHour : Tier.oneHour.bucket = 3600000 := by decide

/-- The zero time is a bucket boundary of every tier, so truncating counts
buckets from the epoch. -/
theorem Tier.cutoff_aligned (tier : Tier) (now : Time) :
    ∃ k, tier.cutoff now = k * tier.bucket := by
  refine ⟨now / tier.size, ?_⟩
  cases tier <;>
    simp only [cutoff, bucket_oneMinute, bucket_fifteenMinute, bucket_oneHour, size, truncate,
      zeroTime, unixMilli, hour, minute, second, millisecond] <;>
    omega

theorem hostRollupRow_ts (p : Unit × Int) (stats : HostMetric → Stats) :
    (hostRollupRow p stats).ts = p.2 := rfl

theorem resourceRollupRow_key (p : String × Int) (stats : ResourceMetric → Stats) :
    (resourceRollupRow p stats).key = p := rfl

theorem hostRollupRow_inj (p : Unit × Int) (st st' : HostMetric → Stats)
    (h : hostRollupRow p st = hostRollupRow p st') : st = st' := congrArg HostRollup.stats h

theorem resourceRollupRow_inj (p : String × Int) (st st' : ResourceMetric → Stats)
    (h : resourceRollupRow p st = resourceRollupRow p st') : st = st' :=
  congrArg ResourceRollup.stats h

/-- `RollupOnce` writes rollups only. In each tier, the row of a bucket aggregates all raw samples
of the bucket that lie before the tier's cutoff; a bucket without any keeps its row. -/
theorem rollupOnce_exact (now : Time) (db : Database) (tier : Tier) :
    rollupOnce now db = { db with
      hostRollups := (rollupOnce now db).hostRollups
      resourceRollups := (rollupOnce now db).resourceRollups } ∧
    (∀ ts, ((rollupOnce now db).hostRollups tier).find? ts =
      let found := hostSeries.bucket tier.bucket ((), ts)
        (hostSeries.before (tier.cutoff now) db.hostSamples.rows)
      if found = [] then (db.hostRollups tier).find? ts
      else some (hostRollupRow ((), ts) (hostSeries.stats found))) ∧
    ∀ p, ((rollupOnce now db).resourceRollups tier).find? p =
      let found := resourceSeries.bucket tier.bucket p
        (resourceSeries.before (tier.cutoff now) db.resourceSamples.rows)
      if found = [] then (db.resourceRollups tier).find? p
      else some (resourceRollupRow p (resourceSeries.stats found)) := by
  -- the statements of other tiers leave both tables of this one alone
  have hhost : (rollupOnce now db).hostRollups tier = hostSeries.rollup hostRollupRow tier.bucket
      (tier.cutoff now) db.hostSamples.rows (db.hostRollups tier) := by
    cases tier <;> simp [rollupOnce, rollupHost, rollupResource]
  have hresource : (rollupOnce now db).resourceRollups tier = resourceSeries.rollup
      resourceRollupRow tier.bucket (tier.cutoff now) db.resourceSamples.rows
      (db.resourceRollups tier) := by
    cases tier <;> simp [rollupOnce, rollupHost, rollupResource]
  have hts : Function.Injective (Prod.snd : Unit × Int → Int) := fun _ _ h => Prod.ext rfl h
  refine ⟨by simp [rollupOnce, rollupHost, rollupResource], fun ts => ?_, fun p => ?_⟩
  · rw [hhost]
    exact hostSeries.find?_rollup hts hostRollupRow_ts _ _ _ _ ((), ts)
  · rw [hresource]
    exact resourceSeries.find?_rollup Function.injective_id resourceRollupRow_key _ _ _ _ p

end Binnacle.Storage
