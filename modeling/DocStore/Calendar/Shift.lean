import DocStore.Calendar.Instant

/-!
# Differences of instants

Moving an instant by milliseconds and counting the milliseconds between two instants. A leap second
counts as a second of its own only where one of the instants lies inside it.
-/

set_option autoImplicit false

namespace DocStore.Instant

/-- The nanoseconds of a millisecond. -/
def millisecond : Int := 1000000

/-- Nanoseconds from 1970-01-01T00:00:00, the fraction of a leap second going past its end. -/
def toNanos (t : Instant) : Int := t.seconds * second + t.nanos

/-- The instant that many nanoseconds after 1970-01-01T00:00:00, outside leap seconds. -/
def ofNanos (n : Int) : Instant := { seconds := n / second, nanos := (n % second).toNat }

/-- The instant so many milliseconds later, within the range of dates. A move by less than a second
that does not reach the end of a leap second stays in it or in the second before; a leap second
that is left forwards takes no time. -/
def addMillis? (t : Instant) (ms : Int) : Option Instant :=
  let moved := t.nanos + ms * millisecond
  if !t.isLeap then checked? (ofNanos (t.toNanos + ms * millisecond))
  else if ms ≤ -1000 then checked? (ofNanos (t.toNanos + ms * millisecond))
  else if moved < 2 * second then some { t with nanos := moved.toNat }
  else checked? (ofNanos (t.toNanos - second + ms * millisecond))

/-- The leap second between two times of day, as far as one of them lies inside it. -/
def leapBetween (a b : Instant) : Int :=
  if b.secondOfDay < a.secondOfDay ∧ b.isLeap then 1
  else if a.secondOfDay < b.secondOfDay ∧ a.isLeap then -1
  else 0

/-- The milliseconds from `b` to `a`, the rest being cut off towards zero. -/
def millisSince (a b : Instant) : Int :=
  (a.toNanos - b.toNanos + leapBetween a b * second).tdiv millisecond

end DocStore.Instant
