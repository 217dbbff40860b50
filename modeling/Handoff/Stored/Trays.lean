import Handoff.Entry.Change
import Handoff.Entry.Encoding
import Handoff.Program.Attempt
import Handoff.Store.Key

/-!
# Stored trays

Each tray is one stored value.  To change it, an attempt reads the value, applies the change to the
entries and writes the result back if the value is still the one that was read; if not, it starts
again from the reading, as often as its budget allows.  A change that fails is not tried again.
-/

namespace Handoff.Trays

/-- Reads the entries under a key, together with the value they were read from.  A tray that is not
stored is empty. -/
def load (key : String) : Attempt (List Entry × Option Bytes) := do
  match ← Attempt.get key with
  | none => return ([], none)
  | some bytes =>
    match EntryList.decode bytes with
    | .error cause => throw (.unreadableTray cause)
    | .ok (entries, form) =>
      if form = .names then Attempt.note .oldFormRead
      return (entries, some bytes)

/-- Changes the entries under a key, in as many rounds as are left of the budget. -/
def changeWithin {β : Type} (budget : Nat) (key : String) (change : Change β) : Nat → Attempt β
  | 0 => do
    Attempt.note .gaveUp
    throw (.contended key budget)
  | left + 1 => do
    let (entries, version) ← load key
    let (result, entries) ← Attempt.ofExcept (change entries)
    if ← Attempt.compareAndSet key version (EntryList.encode entries) then
      return result
    else
      Attempt.note .retrying
      changeWithin budget key change left

/-- At least one round is made, whatever the budget. -/
def rounds (budget : Nat) : Nat := max 1 budget

def alter {β : Type} (budget : Nat) (user : UserId) (tray : Tray) (change : Change β) :
    Attempt β :=
  changeWithin (rounds budget) (Key.tray user tray) change (rounds budget)

/-- Puts an entry at the end of a tray. -/
def append (budget : Nat) (user : UserId) (tray : Tray) (entry : Entry) : Attempt Unit :=
  alter budget user tray (.append user tray entry)

/-- Takes the entry for a task out of a tray. -/
def remove (budget : Nat) (user : UserId) (tray : Tray) (task : TaskId) : Attempt Entry :=
  alter budget user tray (.remove user tray task)

/-- Takes the first entry out of a tray. -/
def pop (budget : Nat) (user : UserId) (tray : Tray) : Attempt Entry :=
  alter budget user tray (.pop user tray)

/-- Moves the entry for a task to the front of a tray. -/
def bump (budget : Nat) (user : UserId) (tray : Tray) (task : TaskId) : Attempt Unit :=
  alter budget user tray (.bump user tray task)

def entries (user : UserId) (tray : Tray) : Attempt (List Entry) := do
  return (← load (Key.tray user tray)).1

/-- The entry for a task in a tray, and its position. -/
def find? (user : UserId) (tray : Tray) (task : TaskId) : Attempt (Option (Entry × Nat)) := do
  return EntryList.locate? task (← entries user tray)

/-- The entry for a task in the first of the given trays that has one. -/
def locateIn (user : UserId) (task : TaskId) : List Tray → Attempt (Option Located)
  | [] => return none
  | tray :: trays => do
    match ← find? user tray task with
    | some (entry, position) => return some ⟨tray, entry, position⟩
    | none => locateIn user task trays

/-- The entry for a task in the first of the user's trays that has one. -/
def locate? (user : UserId) (task : TaskId) : Attempt (Option Located) :=
  locateIn user task Tray.all

end Handoff.Trays
