import Handoff.Task.Basic

/-!
# Local days

A day is numbered from the epoch, in a zone that is a whole number of minutes off UTC.  An offset of
a day or more counts as none.  Moments from `dayLimit` on have no day; shortly before it the days of
zones ahead of UTC are still counted on.
-/

namespace Handoff.Calendar

def minute : Int := 60000

def hour : Nat := 3600000

def day : Int := 86400000

def dayLimit : Nat := 8210266876800000

/-- How far a zone is ahead of UTC, in milliseconds. -/
def shift (offset : Int) : Int :=
  if -day < offset * minute ∧ offset * minute < day then offset * minute else 0

/-- The day of a moment in a zone that is `offset` minutes ahead of UTC. -/
def dayOf (offset : Int) (moment : Instant) : Option Int :=
  if moment.millis.toNat < dayLimit then
    some ((moment.millis.toNat + shift offset).fdiv day)
  else none

end Handoff.Calendar
