-- Points in time to the nanosecond, in universal time. A leap second is counted
-- within the second before it, from its nanosecond 1000000000 on.

import ManagementSchema.Time.Calendar

namespace ManagementSchema

/-- The point `seconds` after the start of 1970, and `nano` nanoseconds; `nano` is below
2000000000 and reaches 1000000000 only within a leap second. -/
structure Instant where
  seconds : Int
  nano : Nat
  deriving DecidableEq, Repr

namespace Instant

/-- The order in time. -/
protected def compare (a b : Instant) : Ordering :=
  (Ord.compare a.seconds b.seconds).then (Ord.compare a.nano b.nano)

/-- The milliseconds since the start of 1970. -/
def toMillis (t : Instant) : Int := t.seconds * 1000 + (t.nano / 1000000 : Nat)

/-- The date of the instant. -/
def date (t : Instant) : CalendarDate := CalendarDate.ofDays (t.seconds / 86400)

/-- The instant that many milliseconds after the start of 1970, if its year is in range. -/
def ofMillis? (millis : Int) : Option Instant :=
  let t : Instant := ⟨millis / 1000, (millis % 1000).toNat * 1000000⟩
  if CalendarDate.firstYear ≤ t.date.year ∧ t.date.year ≤ CalendarDate.lastYear then some t
  else none

/-- The instant at a time of day, in a zone `offset` seconds ahead of universal time. Second 60
is the leap second after second 59. -/
def ofDateTime (date : CalendarDate) (hour minute second nano : Nat) (offset : Int) : Instant :=
  let leap := second = 60
  ⟨date.toDays * 86400 + hour * 3600 + minute * 60 + (if leap then 59 else second) - offset,
    if leap then nano + 1000000000 else nano⟩

/-! ## Whole milliseconds -/

/-- The first instant of the first year. -/
def earliest : Instant := ofDateTime ⟨CalendarDate.firstYear, 1, 1⟩ 0 0 0 0 0

/-- The last instant of the last year; a leap second would be after it. -/
def latest : Instant := ofDateTime ⟨CalendarDate.lastYear, 12, 31⟩ 23 59 59 999999999 0

/-- The instant with other nanoseconds, unless it is then outside the range of instants. -/
def withNano? (t : Instant) (nano : Nat) : Option Instant :=
  let moved : Instant := { t with nano }
  if nano < 2000000000 ∧ (earliest.compare moved).isLE ∧ (moved.compare latest).isLE then some moved
  else none

/-- The instant cut to whole milliseconds; one that cannot be cut is left as it is. -/
def truncated (t : Instant) : Instant := (t.withNano? (t.nano / 1000000 * 1000000)).getD t

end Instant

end ManagementSchema
