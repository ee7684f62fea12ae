import DocStore.Calendar.Civil

/-!
# Instants

An instant of UTC to the nanosecond. A leap second has no number of its own: it continues the
second before it, with a fraction of one to two seconds.
-/

set_option autoImplicit false

namespace DocStore

/-- An instant of UTC. -/
structure Instant where
  /-- Seconds from 1970-01-01T00:00:00, leap seconds not counted. -/
  seconds : Int
  /-- Nanoseconds into the second; a billion and more inside a leap second. -/
  nanos : Nat
deriving DecidableEq, Repr

namespace Instant

/-- The seconds of a day. -/
def daySeconds : Int := 86400

/-- The nanoseconds of a second. -/
def second : Nat := 1000000000

/-- The first day that an instant can lie on. -/
def firstDay : Int := CivilDate.toDays { year := -262143, month := 1, day := 1 }

/-- The last day that an instant can lie on. -/
def lastDay : Int := CivilDate.toDays { year := 262142, month := 12, day := 31 }

/-- The day, counted from 1970-01-01. -/
def dayNumber (t : Instant) : Int := t.seconds / daySeconds

/-- The second within the day. -/
def secondOfDay (t : Instant) : Nat := (t.seconds % daySeconds).toNat

/-- The date. -/
def date (t : Instant) : CivilDate := .ofDays t.dayNumber

/-- Whether the day lies in the range of dates. -/
def inRange (t : Instant) : Bool := firstDay ≤ t.dayNumber && t.dayNumber ≤ lastDay

/-- The instant, if its day lies in the range of dates. -/
def checked? (t : Instant) : Option Instant := if t.inRange then some t else none

/-- Whether the instant lies inside a leap second. -/
def isLeap (t : Instant) : Bool := second ≤ t.nanos

/-- Milliseconds from 1970-01-01T00:00:00, rounded down. -/
def toMillis (t : Instant) : Int := t.seconds * 1000 + (t.nanos / 1000000 : Nat)

/-- The instant that many milliseconds after 1970-01-01T00:00:00, within the range of dates. -/
def ofMillis? (ms : Int) : Option Instant :=
  checked? { seconds := ms / 1000, nanos := (ms % 1000).toNat * 1000000 }

/-- Earlier instants come first. -/
def compare (a b : Instant) : Ordering :=
  (Ord.compare a.seconds b.seconds).then (Ord.compare a.nanos b.nanos)

/-- The hour of the day. -/
def hour (t : Instant) : Nat := t.secondOfDay / 3600

/-- The minute of the hour. -/
def minute (t : Instant) : Nat := t.secondOfDay / 60 % 60

/-- The second of the minute; a leap second counts as the one before it. -/
def secondOfMinute (t : Instant) : Nat := t.secondOfDay % 60

end Instant

end DocStore
