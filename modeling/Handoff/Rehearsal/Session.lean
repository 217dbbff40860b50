import Handoff.Program.Exchange
import Handoff.Rehearsal.Step

/-!
# Sessions

A session is a world with rules, and with notes on what has happened since the current step of the
script began.  The rules are looked at before each store call, in the order in which they were
added.
-/

namespace Handoff.Rehearsal

/-- What a rule does to a call. -/
inductive Effect
  | fail (reason : String)
  | lose
  | act (steps : List Step)

/-- A rule that interferes with store calls. -/
structure Rule where
  trigger : Trigger
  effect : Effect

structure Session where
  /-- The store, the clock and the supply of names. -/
  world : World
  /-- The rules in the order in which they were added. -/
  rules : List Rule
  /-- The calls answered during the step, latest first. -/
  calls : List Exchange
  /-- The events reported during the step, latest first. -/
  events : List Event
  /-- The results of the steps that rules had carried out during the step, latest first. -/
  nested : List Result

namespace CallFilter

/-- Whether a call is of the kind that is meant. -/
def fits : CallFilter → Call → Bool
  | .any, _ | .get, .get _ | .set, .set .. | .compareAndSet, .compareAndSet ..
  | .delete, .delete _ => true
  | _, _ => false

end CallFilter

namespace Trigger

/-- Whether a trigger is about a call. -/
def fits (trigger : Trigger) (call : Call) : Bool :=
  trigger.calls.fits call
    && trigger.key.all (· == call.key)
    && trigger.keyStart.all fun start => start.toList.isPrefixOf call.key.toList

end Trigger

namespace Session

def start (world : World) : Session := ⟨world, [], [], [], []⟩

def withStore (session : Session) (store : Store) : Session :=
  { session with world := { session.world with store } }

def setRule (session : Session) (position : Nat) (rule : Rule) : Session :=
  { session with rules := session.rules.set position rule }

def addRule (session : Session) (trigger : Trigger) (effect : Effect) : Session :=
  { session with rules := session.rules ++ [⟨trigger, effect⟩] }

/-- Looks at up to `left` rules from a position on.  The first rule that answers the call itself
ends the search; `act` carries out the steps of rules that have another client act. -/
def consult (act : List Step → Session → Session) (call : Call) :
    Nat → Nat → Session → Option (Except Outage call.Answer) × Session
  | 0, _, session => (none, session)
  | left + 1, position, session =>
    match session.rules[position]? with
    | none => (none, session)
    | some rule =>
      let trigger := rule.trigger
      if ¬trigger.fits call ∨ trigger.times = 0 then consult act call left (position + 1) session
      else if 0 < trigger.skip then
        consult act call left (position + 1)
          (session.setRule position { rule with trigger.skip := trigger.skip - 1 })
      else
        let session :=
          session.setRule position { rule with trigger.times := trigger.times - 1 }
        match rule.effect, call with
        | .fail reason, _ => (some (.error ⟨reason⟩), session)
        | .lose, .compareAndSet .. => (some (.ok false), session)
        | .lose, call => consult act call left (position + 1) session
        | .act steps, call => consult act call left (position + 1) (act steps session)

/-- Answers a store call, unless a rule does. -/
def answerCall (act : List Step → Session → Session) (capacity : Nat) (call : Call)
    (session : Session) : Except Outage call.Answer × Session :=
  let (answer, session) :=
    match consult act call capacity 0 session with
    | (some answer, session) => (answer, session)
    | (none, session) =>
      let (answer, store) := session.world.store.perform call
      (.ok answer, session.withStore store)
  (answer, { session with calls := ⟨call, answer⟩ :: session.calls })

def answer (around : Surroundings) (act : List Step → Session → Session) (capacity : Nat)
    (action : Action) (session : Session) : action.Answer × Session :=
  match action with
  | .call request => session.answerCall act capacity request
  | .note event => ((), { session with events := event :: session.events })
  | action =>
    let (reply, world) := session.world.answer around action
    (reply, { session with world })

end Session
end Handoff.Rehearsal
