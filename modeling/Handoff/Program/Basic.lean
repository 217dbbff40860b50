import Handoff.Event
import Handoff.Store.Basic
import Handoff.Task.Basic

/-!
# Programs

An operation is a program: a tree of single actions, each of which may depend on the answers to the
earlier ones.  What a program does depends on who answers.  `Program.runWith` lets one answerer
carry out all actions one after another; a program can also be run call by call between the calls
of other programs, or be stopped after any number of calls.
-/

namespace Handoff

/-- A single action of a program. -/
inductive Action
  /-- A call to the store, which may fail. -/
  | call (request : Call)
  | newTaskId
  | now
  /-- Asks what a user is called. -/
  | nameOf (user : UserId)
  | note (event : Event)
deriving DecidableEq, Repr

/-- What the answer to an action is. -/
@[reducible]
def Action.Answer : Action → Type
  | .call request => Except Outage request.Answer
  | .newTaskId => TaskId
  | .now => Instant
  | .nameOf _ => Option String
  | .note _ => Unit

inductive Program (α : Type) : Type
  /-- The program has ended. -/
  | done (result : α)
  /-- The program takes an action and goes on with the answer. -/
  | act (action : Action) (next : action.Answer → Program α)

namespace Program

def perform (action : Action) : Program action.Answer := .act action .done

def bind {α β : Type} : Program α → (α → Program β) → Program β
  | .done result, f => f result
  | .act action next, f => .act action fun answer => (next answer).bind f

instance : Monad Program where
  pure := .done
  bind := bind

/-- A program followed by nothing is the program itself. -/
theorem bind_done {α : Type} (p : Program α) : p.bind .done = p := by
  induction p with
  | done result => rfl
  | act action next ih => simp only [bind, ih]

/-- How three programs in a row are grouped does not matter. -/
theorem bind_bind {α β γ : Type} (p : Program α) (f : α → Program β) (g : β → Program γ) :
    (p.bind f).bind g = p.bind fun a => (f a).bind g := by
  induction p with
  | done result => rfl
  | act action next ih => simp only [bind, ih]

instance : LawfulMonad Program :=
  LawfulMonad.mk' Program bind_done (fun _ _ => rfl) bind_bind

/-- Runs a program to its end, with one answerer that keeps a state. -/
def runWith {σ α : Type} (answer : (action : Action) → σ → action.Answer × σ) :
    Program α → σ → α × σ
  | .done result, state => (result, state)
  | .act action next, state =>
    let (reply, state) := answer action state
    (next reply).runWith answer state

@[simp]
theorem runWith_pure {σ α : Type} (answer : (action : Action) → σ → action.Answer × σ) (a : α)
    (state : σ) : (pure a : Program α).runWith answer state = (a, state) := rfl

@[simp]
theorem runWith_perform {σ : Type} (answer : (action : Action) → σ → action.Answer × σ)
    (action : Action) (state : σ) : (perform action).runWith answer state = answer action state :=
  rfl

/-- One program after another runs from the state where the first one ended. -/
@[simp]
theorem runWith_bind {σ α β : Type} (answer : (action : Action) → σ → action.Answer × σ)
    (p : Program α) (f : α → Program β) (state : σ) :
    (p >>= f).runWith answer state
      = (f (p.runWith answer state).1).runWith answer (p.runWith answer state).2 := by
  induction p generalizing state with
  | done result => rfl
  | act action next ih => exact ih (answer action state).1 (answer action state).2

/-- What every single answer keeps true of the state, a whole run keeps true. -/
theorem runWith_keeps {σ α : Type} {answer : (action : Action) → σ → action.Answer × σ}
    {holds : σ → Prop}
    (answer_keeps : ∀ action state, holds state → holds (answer action state).2)
    (p : Program α) {state : σ} (start : holds state) : holds (p.runWith answer state).2 := by
  induction p generalizing state with
  | done result => exact start
  | act action next ih => exact ih _ (answer_keeps action state start)

end Program
end Handoff
