import Handoff.Task.Basic
import Handoff.Tray.Basic

/-!
# Keys

Task records, trays and reminder records lie under keys with different beginnings.  The keys of
different trays may coincide: user `a` and their sent tray have the key of user `a_out` and their
owned tray.
-/

namespace Handoff.Key

def record (task : TaskId) : String := "item_" ++ task

/-- The key of one of a user's trays. -/
def tray (user : UserId) (tray : Tray) : String := "order_" ++ user ++ tray.suffix

/-- The key of the moment of a user's last reminder. -/
def reminder (user : UserId) : String := "reminder_" ++ user

end Handoff.Key
