import SearchQuery.Orders
import SearchQuery.Calendar.Date

-- Instants of universal time, to the nanosecond. The last second of a minute may be a
-- leap second: its nanoseconds count on from a thousand million.

namespace SearchQuery.Calendar

def secondsPerDay : Int := 86400

def nanosPerSecond : Nat := 1000000000

def nanosPerMilli : Nat := 1000000

-- An instant exists when its day is in the range of the calendar, and its nanoseconds are
-- those of a second or of a leap second.
def isInstant (seconds : Int) (nanos : Nat) : Bool :=
  firstDay ≤ seconds / secondsPerDay && seconds / secondsPerDay ≤ lastDay &&
    (nanos < nanosPerSecond || (nanos < 2 * nanosPerSecond && seconds % 60 = 59))

structure Instant where
  seconds : Int
  nanos : Nat
  valid : isInstant seconds nanos
deriving DecidableEq

namespace Instant

def ofParts? (seconds : Int) (nanos : Nat) : Option Instant :=
  if h : isInstant seconds nanos then some ⟨seconds, nanos, h⟩ else none

-- The day on which an instant falls, counted from the first day of 1970.
def day (t : Instant) : Int :=
  t.seconds / secondsPerDay

def secondOfDay (t : Instant) : Nat :=
  (t.seconds % secondsPerDay).toNat

theorem isInstant_midnight (d : Date) : isInstant (d.dayNumber * secondsPerDay) 0 := by
  have hfirst := d.firstDay_le
  have hlast := d.le_lastDay
  have hday : d.dayNumber * secondsPerDay / secondsPerDay = d.dayNumber :=
    Int.mul_ediv_cancel _ (by decide)
  simp [isInstant, hday, hfirst, hlast, nanosPerSecond]

-- The first instant of a date.
def midnight (d : Date) : Instant :=
  ⟨d.dayNumber * secondsPerDay, 0, isInstant_midnight d⟩

-- Milliseconds from the start of 1970, rounded down.
def millis (t : Instant) : Int :=
  t.seconds * 1000 + t.nanos / nanosPerMilli

def ofMillis? (ms : Int) : Option Instant :=
  ofParts? (ms / 1000) ((ms % 1000).toNat * nanosPerMilli)

-- Order in time; a leap second comes after the second that it prolongs.
def compare (s t : Instant) : Ordering :=
  (Ord.compare s.seconds t.seconds).then (Ord.compare s.nanos t.nanos)

theorem compare_self (t : Instant) : t.compare t = .eq := by
  simp [compare]

theorem compare_swap (s t : Instant) : (s.compare t).swap = t.compare s := by
  simp only [compare, Ordering.swap_then, swap_compare]

end Instant

end SearchQuery.Calendar
