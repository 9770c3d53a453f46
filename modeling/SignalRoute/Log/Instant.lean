/-!
# Points in time

A point in time is a number of microseconds since the beginning of 1970.  The calendar in which times
are written has a first and a last year; `inCalendar` tells which times it holds.

Times are integers without bounds, so that adding a span to one is always a time.  A span comes from
a float, which is the only place where rounding enters.
-/

set_option autoImplicit false

namespace SignalRoute

/-- Microseconds since the beginning of 1970. -/
abbrev Instant := Int

namespace Instant

/-- The first microsecond of the calendar, in the year -262143. -/
def first : Instant := -8334601228800000000

/-- The last microsecond of the calendar, in the year 262142. -/
def last : Instant := 8210266876799999999

def inCalendar (t : Instant) : Bool := first ≤ t && t ≤ last

end Instant

/-- A whole number of microseconds near a float, a half away from zero. -/
def microseconds (us : Float) : Int := us.round.toInt64.toInt

end SignalRoute
