import Handoff.Rehearsal.Session

/-!
# Running a rehearsal

The steps of the script are carried out one after another.  Each yields a report: its result, the
keys whose values it changed, its store calls, its events, and the results of the steps that rules
had carried out meanwhile.
-/

namespace Handoff.Rehearsal

/-- What a step did. -/
structure Report where
  result : Result
  /-- The keys whose values changed, with their new values. -/
  changed : List (String × Option Bytes)
  calls : List Exchange
  events : List Event
  /-- The results of the steps that rules had carried out, in order of completion. -/
  nested : List Result

def execute (setup : Setup) (act : List Step → Session → Session) (capacity : Nat) (step : Step)
    (session : Session) : Result × Session :=
  let store := session.world.store
  match step with
  | .getKey key => (.ok (.value (store.get? key)), session)
  | .setKey key value => (.ok .nothing, session.withStore (store.insert key value))
  | .swapKey key expected value =>
    let (swapped, store) := store.perform (.compareAndSet key expected value)
    (.ok (.swapped swapped), session.withStore store)
  | .deleteKey key => (.ok .nothing, session.withStore (store.erase key))
  | .inspectKey key =>
    (.ok (.inspected store.size (store.contains key) (store.countStartingWith key)), session)
  | .setClock moment =>
    (.ok .nothing, { session with world := { session.world with clock := moment } })
  | .clearRules => (.ok .nothing, { session with rules := [] })
  | .failCalls trigger reason => (.ok .nothing, session.addRule trigger (.fail reason))
  | .loseRaces trigger => (.ok .nothing, session.addRule trigger .lose)
  | .actBefore trigger steps => (.ok .nothing, session.addRule trigger (.act steps))
  | step =>
    match step.operation? setup with
    | some operation => operation.run.runWith (Session.answer setup.around act capacity) session
    | none => (.ok .nothing, session)

/-- Carries out the steps of a rule, in which further rules may take effect up to `depth` deep. -/
def actWithin (setup : Setup) (capacity : Nat) : Nat → List Step → Session → Session
  | 0, _, session => session
  | depth + 1, steps, session =>
    steps.foldl (fun session step =>
      let (result, session) :=
        execute setup (actWithin setup capacity depth) capacity step session
      { session with nested := result :: session.nested }) session

/-- The keys that have different values in two stores, with their values in the second one. -/
def changes (before after : Store) : List (String × Option Bytes) :=
  let keys := before.entries.map Prod.fst ++
    (after.entries.map Prod.fst).filter fun key => ¬before.contains key
  (keys.filter fun key => before.get? key != after.get? key).map fun key => (key, after.get? key)

/-- Carries out one step of the script and reports on it. -/
def report (setup : Setup) (capacity : Nat) (step : Step) (session : Session) : Report × Session :=
  let before := session.world.store
  let (result, session) := execute setup (actWithin setup capacity capacity) capacity step
    { session with calls := [], events := [], nested := [] }
  (⟨result, changes before session.world.store, session.calls.reverse, session.events.reverse,
    session.nested.reverse⟩, session)

/-- Carries out steps one after another. -/
def reports (setup : Setup) (capacity : Nat) : List Step → Session → List Report
  | [], _ => []
  | step :: steps, session =>
    let (first, session) := report setup capacity step session
    first :: reports setup capacity steps session

/-- Runs a script from a given world. -/
def run (setup : Setup) (world : World) (script : List Step) : List Report :=
  reports setup (loadOf script) script (.start world)

end Handoff.Rehearsal
