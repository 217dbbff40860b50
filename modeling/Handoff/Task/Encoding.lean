import Handoff.Json.Decode
import Handoff.Json.Encode
import Handoff.Task.Basic

/-!
# The stored form of tasks

A task is stored as a JSON object.  An empty description and an absent origin are left out.  Older
records name two fields differently and always have an origin, which is empty if there is none; the
old names count as the same fields.  Fields of other names are passed over.
-/

namespace Handoff.Task

open Json

def members (task : Task) : List (String × Bytes) :=
  [("id", quote task.id), ("message", quote task.message)]
    ++ (if task.description.isEmpty then [] else [("description", quote task.description)])
    ++ [("created_at", natural task.createdAt.millis.toNat)]
    ++ (match task.origin with
      | none => []
      | some place => [("origin_post_id", quote place)])

def encode (task : Task) : Bytes := object task.members

/-- A place of origin; null and the empty text are none. -/
def readOrigin (value : Outline) : Except Error (Option String) :=
  (value.readOptional Outline.readText).map namedOrigin

def readInstant (value : Outline) : Except Error Instant :=
  (value.readNatural "u64").map fun millis => ⟨millis.toUInt64⟩

/-- The fields of a task as far as they have been read. -/
structure Draft where
  id : Option String
  message : Option String
  description : Option String
  createdAt : Option Instant
  origin : Option (Option String)
deriving DecidableEq, Repr

namespace Draft

def empty : Draft := ⟨none, none, none, none, none⟩

/-- Reads one more member. -/
def read (draft : Draft) (member : Outline × Outline) : Except Error Draft := do
  match ← member.1.readKey with
  | "id" =>
    once "id" draft.id
    return { draft with id := some (← member.2.readText) }
  | "message" =>
    once "message" draft.message
    return { draft with message := some (← member.2.readText) }
  | "description" =>
    once "description" draft.description
    return { draft with description := some (← member.2.readText) }
  | "created_at" | "create_at" =>
    once "created_at" draft.createdAt
    return { draft with createdAt := some (← readInstant member.2) }
  | "origin_post_id" | "post_id" =>
    once "origin_post_id" draft.origin
    return { draft with origin := some (← readOrigin member.2) }
  | _ =>
    member.2.skip
    return draft

/-- The task, once all members have been read. -/
def finish (draft : Draft) : Except Error Task := do
  let id ← required "id" draft.id
  let message ← required "message" draft.message
  let createdAt ← required "created_at" draft.createdAt
  return ⟨id, message, draft.description.getD "", createdAt, draft.origin.join⟩

end Draft

/-- A task from the members of an object. -/
def ofMembers (members : List (Outline × Outline)) : Except Error Task := do
  (← members.foldlM Draft.read Draft.empty).finish

/-- A task from its fields in order. -/
def ofItems (items : List Outline) : Except Error Task := do
  let form := "struct Task with 5 elements"
  let id ← element form items 0 Outline.readText
  let message ← element form items 1 Outline.readText
  let description ← elementOr "" items 2 Outline.readText
  let createdAt ← element form items 3 readInstant
  let origin ← elementOr none items 4 readOrigin
  noMoreThan 5 items
  return ⟨id, message, description, createdAt, origin⟩

/-- A task, written as an object or as an array of its fields. -/
def read : Outline → Except Error Task
  | .object members => ofMembers members
  | .array items => ofItems items
  | value => .error (value.mismatch "struct Task")

def decode (bytes : Bytes) : Except Error Task := Json.decode read bytes

end Handoff.Task
