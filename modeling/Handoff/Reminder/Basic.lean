import Handoff.Program.Attempt
import Handoff.Reminder.Calendar
import Handoff.Reminder.Record
import Handoff.Store.Key

/-!
# Daily reminders

A user is to be reminded at most once on each of their days, and not twice within an hour.  The
right to remind is claimed by replacing the stored moment of the last reminder, so that of several
callers who find a reminder due at most one gets it.
-/

namespace Handoff.Reminder

/-- Whether a user who was last reminded at `last` is to be reminded again. -/
def isDue (now : Instant) (last : Option Instant) (offset : Int) : Bool :=
  match last with
  | none => true
  | some last =>
    decide (Calendar.hour ≤ now.millis.toNat - last.millis.toNat)
      && Calendar.dayOf offset now != Calendar.dayOf offset last

def parse (key : String) (bytes : Bytes) : Except Failure Instant :=
  match decode? bytes with
  | some moment => .ok moment
  | none => .error (.unreadableTime key)

/-- Reads a stored moment that may be absent. -/
def parseOptional (key : String) : Option Bytes → Except Failure (Option Instant)
  | none => .ok none
  | some bytes => (parse key bytes).map some

/-- When a user was last reminded. -/
def last (user : UserId) : Attempt (Option Instant) := do
  Attempt.ofExcept (parseOptional (Key.reminder user) (← Attempt.get (Key.reminder user)))

/-- Records that a user has been reminded. -/
def record (user : UserId) (moment : Instant) : Attempt Unit :=
  Attempt.set (Key.reminder user) (encode moment)

/-- Claims a reminder if it is due, and tells whether it was got. -/
def claim (user : UserId) (now : Instant) (offset : Int) : Attempt Bool := do
  let stored ← Attempt.get (Key.reminder user)
  let last ← Attempt.ofExcept (parseOptional (Key.reminder user) stored)
  if isDue now last offset then
    let claimed ← Attempt.compareAndSet (Key.reminder user) stored (encode now)
    unless claimed do Attempt.note .reminderTaken
    return claimed
  else
    return false

end Handoff.Reminder
