import Mathlib.Algebra.Order.Group.Int

/-!
# Instants and durations

Go's `time.Time` as an integer number of nanoseconds since the Unix epoch
(always UTC in this code base) and `time.Duration` as an integer number of
nanoseconds. The database stores whole seconds (`Unix()`) in the alerting
tables and whole milliseconds (`UnixMilli()`) in the telemetry tables; both
round towards minus infinity.
-/

namespace Binnacle

/-- `time.Time`: nanoseconds since the Unix epoch. -/
abbrev Time := Int

/-- `time.Duration`: nanoseconds. -/
abbrev Duration := Int

/-- `time.Millisecond`. -/
def millisecond : Duration := 1000000

/-- `time.Second`. -/
def second : Duration := 1000000000

/-- `time.Minute`. -/
def minute : Duration := 60 * second

/-- `time.Hour`. -/
def hour : Duration := 60 * minute

/-- `t.Unix()`. -/
def unix (t : Time) : Int := t / second

/-- `t.UnixMilli()`. -/
def unixMilli (t : Time) : Int := t / millisecond

/-- `time.Unix(s, 0)`. -/
def ofUnix (s : Int) : Time := s * second

/-- `time.UnixMilli(ms)`. -/
def ofUnixMilli (ms : Int) : Time := ms * millisecond

/-- The zero `time.Time`, January 1 of year 1. -/
def zeroTime : Time := -62135596800 * second

/-- `t.Truncate(d)`: down to a multiple of `d` counted from the zero time. -/
def truncate (t : Time) (d : Duration) : Time := t - (t - zeroTime) % d

theorem second_pos : 0 < second := by decide

theorem millisecond_pos : 0 < millisecond := by decide

/-- Reloading a stored second never moves an instant forward. -/
theorem ofUnix_unix_le (t : Time) : ofUnix (unix t) ≤ t :=
  Int.ediv_mul_le t (by decide)

@[simp] theorem unix_ofUnix (s : Int) : unix (ofUnix s) = s :=
  Int.mul_ediv_cancel s (by decide)

theorem unix_mono {t t' : Time} (h : t ≤ t') : unix t ≤ unix t' :=
  Int.ediv_le_ediv second_pos h

theorem le_unix {s : Int} {t : Time} : s ≤ unix t ↔ ofUnix s ≤ t :=
  Int.le_ediv_iff_mul_le second_pos

theorem ofUnixMilli_unixMilli_le (t : Time) : ofUnixMilli (unixMilli t) ≤ t :=
  Int.ediv_mul_le t (by decide)

@[simp] theorem unixMilli_ofUnixMilli (ms : Int) : unixMilli (ofUnixMilli ms) = ms :=
  Int.mul_ediv_cancel ms (by decide)

theorem unixMilli_mono {t t' : Time} (h : t ≤ t') : unixMilli t ≤ unixMilli t' :=
  Int.ediv_le_ediv millisecond_pos h

theorem le_unixMilli {ms : Int} {t : Time} : ms ≤ unixMilli t ↔ ofUnixMilli ms ≤ t :=
  Int.le_ediv_iff_mul_le millisecond_pos

theorem unixMilli_min (t t' : Time) :
    unixMilli (min t t') = min (unixMilli t) (unixMilli t') :=
  Monotone.map_min fun _ _ h => unixMilli_mono h

theorem ofUnixMilli_le {a b : Int} : ofUnixMilli a ≤ ofUnixMilli b ↔ a ≤ b :=
  Int.mul_le_mul_iff_of_pos_right millisecond_pos

end Binnacle
