import Handoff.Entry.Basic
import Handoff.Failure

/-!
# Changes of a tray

A change turns the entries of a tray into other entries and gives a result, or fails without effect.
It sees one tray only; whatever must hold between trays is the matter of the workflows.
-/

namespace Handoff

namespace EntryList

/-- The entry for a task, the first one if there are several. -/
def find? (task : TaskId) (entries : List Entry) : Option Entry :=
  entries.find? (·.task == task)

/-- The entry for a task and its position, from 0. -/
def locate? (task : TaskId) (entries : List Entry) : Option (Entry × Nat) :=
  (find? task entries).map fun entry => (entry, entries.findIdx (·.task == task))

/-- The entries without the first one for a task. -/
def erase (task : TaskId) (entries : List Entry) : List Entry :=
  entries.eraseP (·.task == task)

end EntryList

/-- A change of a tray that yields a result. -/
abbrev Change (β : Type) := List Entry → Except Failure (β × List Entry)

namespace Change

/-- Puts an entry at the end, unless there is one for the same task. -/
def append (user : UserId) (tray : Tray) (entry : Entry) : Change Unit := fun entries =>
  match EntryList.find? entry.task entries with
  | some _ => .error (.alreadyListed entry.task tray user)
  | none => .ok ((), entries ++ [entry])

/-- Takes out the entry for a task. -/
def remove (user : UserId) (tray : Tray) (task : TaskId) : Change Entry := fun entries =>
  match EntryList.find? task entries with
  | some entry => .ok (entry, EntryList.erase task entries)
  | none => .error (.entryMissing task tray user)

def pop (user : UserId) (tray : Tray) : Change Entry
  | [] => .error (.trayEmpty tray user)
  | entry :: entries => .ok (entry, entries)

def bump (user : UserId) (tray : Tray) (task : TaskId) : Change Unit := fun entries =>
  match EntryList.find? task entries with
  | some entry => .ok ((), entry :: EntryList.erase task entries)
  | none => .error (.entryMissing task tray user)

end Change
end Handoff
