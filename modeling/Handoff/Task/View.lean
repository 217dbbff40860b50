import Handoff.Task.Encoding
import Handoff.Tray.Encoding

/-!
# Task views

A view shows a task to its user, together with where the other copy of it is.  It is written as one
object: the fields of the task, and after them what is known of the other copy.  When it is read
back, the fields of the other copy are read where they stand; all others are set aside, for which
they must be sound, and the task is read from them afterwards.
-/

namespace Handoff

open Json

/-- A task together with the place of its other copy, as it is shown to a user. -/
structure TaskView where
  /-- The user's own copy. -/
  task : Task
  /-- What the user on the other side is called. -/
  partner : Option String
  /-- The tray that holds the entry of the other copy. -/
  partnerTray : Option Tray
  /-- The position of that entry in its tray, from 0. -/
  partnerPosition : Option Nat
deriving DecidableEq, Repr

namespace TaskView

def unshared (task : Task) : TaskView := ⟨task, none, none, none⟩

def members (view : TaskView) : List (String × Bytes) :=
  view.task.members
    ++ view.partner.toList.map (fun name => ("foreign_user", quote name))
    ++ view.partnerTray.toList.map (fun tray => ("foreign_list", tray.encode))
    ++ view.partnerPosition.toList.map (fun position => ("foreign_position", natural position))

def encode (view : TaskView) : Bytes := object view.members

/-- How deep the containers in a value that is set aside may be nested. -/
def maxDepth : Nat := 126

/-- The fields of a view as far as they have been read. -/
structure Draft where
  /-- The members that are set aside, latest first. -/
  rest : List (Outline × Outline)
  partner : Option (Option String)
  partnerTray : Option (Option Tray)
  partnerPosition : Option (Option Nat)

namespace Draft

def empty : Draft := ⟨[], none, none, none⟩

/-- Reads one more member, or sets it aside. -/
def read (draft : Draft) (member : Outline × Outline) : Except Error Draft := do
  match ← member.1.readKey with
  | "foreign_user" =>
    once "foreign_user" draft.partner
    return { draft with partner := some (← member.2.readOptional Outline.readText) }
  | "foreign_list" =>
    once "foreign_list" draft.partnerTray
    return { draft with partnerTray := some (← member.2.readOptional Tray.read) }
  | "foreign_position" =>
    once "foreign_position" draft.partnerPosition
    let position ← member.2.readOptional (Outline.readNatural "usize")
    return { draft with partnerPosition := some position }
  | _ =>
    if member.2.isSound maxDepth then return { draft with rest := member :: draft.rest }
    else throw .malformed

/-- The view, once all members have been read. -/
def finish (draft : Draft) : Except Error TaskView := do
  let task ← Task.ofMembers draft.rest.reverse
  return ⟨task, draft.partner.join, draft.partnerTray.join, draft.partnerPosition.join⟩

end Draft

/-- A view, written as an object. -/
def read : Outline → Except Error TaskView
  | .object members => do (← members.foldlM Draft.read Draft.empty).finish
  | value => .error (value.mismatch "struct ExtendedTask")

/-- Reads the written form of a view. -/
def decode (bytes : Bytes) : Except Error TaskView := Json.decode read bytes

end TaskView
end Handoff
