import Handoff.Decimal.Text
import Handoff.Task.Basic
import Handoff.Text.Blank

/-!
# The stored form of reminders

The moment of the last reminder is stored in decimal.  Blanks around it, one plus sign before it and
leading zeros do no harm when it is read.
-/

namespace Handoff.Reminder

def encode (moment : Instant) : Bytes := Decimal.ascii moment.millis.toNat

/-- A moment in decimal, which must fit 64 bits. -/
def readMoment (text : List Char) : Option Instant :=
  ((Decimal.natural? text).filter (· < UInt64.size)).map fun millis => ⟨millis.toUInt64⟩

def decode? (bytes : Bytes) : Option Instant :=
  (Utf8.decode? bytes).bind fun text => readMoment (Text.trim text.toList)

end Handoff.Reminder
