import Handoff.Task.Basic
import Handoff.Tray.Basic

/-!
# Entries

An entry of a tray names a task record of the tray's user.  It may be linked to the entry and the
record of another user, with whom the task is shared.
-/

namespace Handoff

/-- The other side of a shared task. -/
structure Link where
  /-- The user who has the other copy. -/
  user : UserId
  /-- The record of the other copy. -/
  task : TaskId
deriving DecidableEq, Repr

structure Entry where
  /-- The user's own record. -/
  task : TaskId
  /-- The other side, if the task is shared. -/
  link : Option Link
deriving DecidableEq, Repr

namespace Entry

/-- An entry for a task that is not shared. -/
def unlinked (task : TaskId) : Entry := ⟨task, none⟩

/-- An entry for a task that is shared. -/
def linked (task : TaskId) (user : UserId) (other : TaskId) : Entry := ⟨task, some ⟨user, other⟩⟩

def partner (entry : Entry) : Option UserId := entry.link.map Link.user

/-- Whether an entry is linked to the given side. -/
def linksTo (entry : Entry) (user : UserId) (task : TaskId) : Bool :=
  entry.link == some ⟨user, task⟩

end Entry

/-- An entry together with the place where it was found. -/
structure Located where
  tray : Tray
  entry : Entry
  /-- The position in the tray, from 0. -/
  position : Nat
deriving DecidableEq, Repr

end Handoff
