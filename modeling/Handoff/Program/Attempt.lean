import Handoff.Failure
import Handoff.Program.Basic

/-!
# Attempts

An attempt is a program that ends with a result or with a failure.  A failed store call ends the
attempt it belongs to.
-/

namespace Handoff

/-- A program that may fail. -/
abbrev Attempt (α : Type) := ExceptT Failure Program α

namespace Attempt

/-- An attempt that consists of one store call. -/
def call (request : Call) : Attempt request.Answer := do
  match ← ExceptT.lift (Program.perform (.call request)) with
  | .ok answer => return answer
  | .error outage => throw (.outage outage.reason)

def get (key : String) : Attempt (Option Bytes) := call (.get key)

def set (key : String) (value : Bytes) : Attempt Unit := call (.set key value)

/-- Gives a key a value if it still has the expected one, and tells whether it had. -/
def compareAndSet (key : String) (expected : Option Bytes) (value : Bytes) : Attempt Bool :=
  call (.compareAndSet key expected value)

def delete (key : String) : Attempt Unit := call (.delete key)

def note (event : Event) : Attempt Unit := ExceptT.lift (Program.perform (.note event))

/-- The name of a new record. -/
def newTaskId : Attempt TaskId := ExceptT.lift (Program.perform .newTaskId)

def now : Attempt Instant := ExceptT.lift (Program.perform .now)

/-- The end of an attempt, as a result that cannot fail. -/
def outcome {α : Type} (attempt : Attempt α) : Attempt (Except Failure α) :=
  ExceptT.lift attempt.run

/-- Goes on if a step came out well, and fails otherwise. -/
def ofExcept {α : Type} : Except Failure α → Attempt α
  | .ok a => pure a
  | .error failure => throw failure

end Attempt
end Handoff
