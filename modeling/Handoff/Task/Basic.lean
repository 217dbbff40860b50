/-!
# Tasks

A task is the content that an entry of a tray points to.  A task shared by two users exists as two
records, one for each of them, so no record belongs to more than one user.
-/

namespace Handoff

abbrev TaskId := String

abbrev UserId := String

/-- A moment, in milliseconds since the epoch. -/
structure Instant where
  millis : UInt64
deriving DecidableEq, Repr

/-- A moment with its unit. -/
def Instant.text (moment : Instant) : String := toString moment.millis.toNat ++ "ms"

structure Task where
  /-- The name of the record, fixed when it is made. -/
  id : TaskId
  message : String
  /-- A further text, often empty. -/
  description : String
  /-- When the record was made. -/
  createdAt : Instant
  /-- Where the task came from, if it is known. -/
  origin : Option String
deriving DecidableEq, Repr

namespace Task

/-- An empty place of origin is none. -/
def namedOrigin (origin : Option String) : Option String :=
  origin.filter fun place => !place.isEmpty

def create (id : TaskId) (now : Instant) (message description : String)
    (origin : Option String) : Task :=
  ⟨id, message, description, now, namedOrigin origin⟩

/-- A new task with the same content, for another user. -/
def copy (task : Task) (id : TaskId) (now : Instant) : Task :=
  create id now task.message task.description task.origin

/-- The task with other texts. -/
def withContent (task : Task) (message description : String) : Task :=
  { task with message, description }

/-- A copy of a new task is what would have been made for the other user at once. -/
theorem copy_create (id other : TaskId) (now later : Instant) (message description : String)
    (origin : Option String) :
    (create id now message description origin).copy other later
      = create other later message description origin := by
  simp [copy, create, namedOrigin, Option.filter_filter]

end Task
end Handoff
