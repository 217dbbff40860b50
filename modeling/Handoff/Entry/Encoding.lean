import Handoff.Json.Decode
import Handoff.Json.Encode
import Handoff.Entry.Basic

/-!
# The stored form of trays

A tray is stored as a JSON array of its entries.  Before tasks could be shared it was an array of
record names; such a tray is still read, and takes the newer form when it is written again.  An
entry without link has no link fields, and empty link fields mean no link.
-/

namespace Handoff

open Json

namespace Entry

def members (entry : Entry) : List (String × Bytes) :=
  let other := entry.link.getD ⟨"", ""⟩
  [("task_id", quote entry.task)]
    ++ (if other.user.isEmpty then [] else [("foreign_user_id", quote other.user)])
    ++ (if other.task.isEmpty then [] else [("foreign_task_id", quote other.task)])

def encode (entry : Entry) : Bytes := object entry.members

/-- An entry from its stored fields.  Both or neither of the link fields must be empty. -/
def ofFields (task : TaskId) (otherUser : UserId) (otherTask : TaskId) : Except Error Entry :=
  match otherUser.isEmpty, otherTask.isEmpty with
  | true, true => .ok (unlinked task)
  | false, false => .ok (linked task otherUser otherTask)
  | _, _ => .error (.partialLink task)

/-- The fields of an entry as far as they have been read. -/
structure Draft where
  task : Option TaskId
  otherUser : Option UserId
  otherTask : Option TaskId
deriving DecidableEq, Repr

namespace Draft

def empty : Draft := ⟨none, none, none⟩

/-- Reads one more member.  An entry has no fields of other names. -/
def read (draft : Draft) (member : Outline × Outline) : Except Error Draft := do
  match ← member.1.readKey with
  | "task_id" =>
    once "task_id" draft.task
    return { draft with task := some (← member.2.readText) }
  | "foreign_user_id" =>
    once "foreign_user_id" draft.otherUser
    return { draft with otherUser := some (← member.2.readText) }
  | "foreign_task_id" =>
    once "foreign_task_id" draft.otherTask
    return { draft with otherTask := some (← member.2.readText) }
  | name => throw (.unknownField name ["task_id", "foreign_user_id", "foreign_task_id"])

/-- The entry, once all members have been read. -/
def finish (draft : Draft) : Except Error Entry := do
  let task ← required "task_id" draft.task
  ofFields task (draft.otherUser.getD "") (draft.otherTask.getD "")

end Draft

/-- An entry from its fields in order. -/
def ofItems (items : List Outline) : Except Error Entry := do
  let form := "struct ReferenceRecord with 3 elements"
  let task ← element form items 0 Outline.readText
  let otherUser ← elementOr "" items 1 Outline.readText
  let otherTask ← elementOr "" items 2 Outline.readText
  noMoreThan 3 items
  ofFields task otherUser otherTask

/-- An entry, written as an object or as an array of its fields. -/
def read : Outline → Except Error Entry
  | .object members => do (← members.foldlM Draft.read Draft.empty).finish
  | .array items => ofItems items
  | value => .error (value.mismatch "struct ReferenceRecord")

end Entry

/-- In which form a tray is stored. -/
inductive TrayForm
  /-- As an array of entries, or not at all. -/
  | entries
  /-- As an array of record names. -/
  | names
deriving DecidableEq, Repr

namespace EntryList

def encode (entries : List Entry) : Bytes := array (entries.map Entry.encode)

/-- An array, each item of which is read in the same way. -/
def readItems {α : Type} (read : Outline → Except Error α) : Outline → Except Error (List α)
  | .array items => items.mapM read
  | value => .error (value.mismatch "a sequence")

/-- Reads the stored form of a list of entries.  If it has neither form, the error tells what keeps
it from being an array of entries. -/
def decode (bytes : Bytes) : Except Error (List Entry × TrayForm) :=
  match Json.decode (readItems Entry.read) bytes with
  | .ok entries => .ok (entries, .entries)
  | .error e =>
    match Json.decode (readItems Outline.readText) bytes with
    | .ok tasks => .ok (tasks.map Entry.unlinked, .names)
    | .error _ => .error e

end EntryList

end Handoff
