import Handoff.Proofs.Program.Conditions
import Handoff.Workflow.Undo

/-!
# Programs and stores that may refuse calls

A service tells which calls a store may refuse and which it may carry out.  What a program ensures
holds whatever the store does of this: it says how each call may change the store, and what is known
in the end.  Rules follow the shape of programs; at the end they are applied to runs and to runs
that are broken off.
-/

namespace Handoff

/-- Which calls a store may refuse, and which it may carry out. -/
structure Service where
  /-- What programs meet besides the store. -/
  around : Surroundings
  refuses : Call → Prop
  serves : Call → Prop

namespace Service

/-- What may become of an action.  A call that is refused has no effect. -/
def Answers (service : Service) : (action : Action) → World → action.Answer → World → Prop
  | .call request, world, answer, after =>
    (service.refuses request ∧ (∃ outage, answer = .error outage) ∧ after = world) ∨
      (service.serves request ∧
        (answer, after) = World.answer service.around (.call request) world)
  | action, world, answer, after => (answer, after) = World.answer service.around action world

/-- Any call may be refused. -/
def wild (around : Surroundings) : Service := ⟨around, fun _ => True, fun _ => True⟩

/-- Writes to barred keys are refused, and nothing else is. -/
def under (conditions : Conditions) : Service where
  around := conditions.around
  refuses request := (request.isWrite && conditions.barred request.key) = true
  serves request := (request.isWrite && conditions.barred request.key) = false

theorem answers_under (conditions : Conditions) (action : Action) (world : World) :
    (under conditions).Answers action world (conditions.answer action world).1
      (conditions.answer action world).2 := by
  cases action with
  | newTaskId | now | nameOf | note => rfl
  | call request =>
      simp only [Answers, Conditions.answer, under]
      split
      · rename_i barred
        exact .inl ⟨barred, ⟨_, rfl⟩, rfl⟩
      · rename_i free
        exact .inr ⟨Bool.eq_false_iff.mpr free, rfl⟩

end Service

variable {service : Service} {step : Store → Store → Prop} {α β : Type} {world : World}

namespace Program

/-- From a world on, every call leaves the store or changes it by a step, and in the end something
is known of the result and the world. -/
def Ensures (service : Service) (step : Store → Store → Prop) (ends : α → World → Prop) :
    Program α → World → Prop
  | .done result, world => ends result world
  | .act action next, world => ∀ answer after, service.Answers action world answer after →
    (after.store = world.store ∨ step world.store after.store) ∧
      (next answer).Ensures service step ends after

variable {ends : α → World → Prop}

theorem ensures_pure {a : α} (known : ends a world) :
    (pure a : Program α).Ensures service step ends world := known

theorem Ensures.mono {weaker : α → World → Prop} {p : Program α}
    (ensures : p.Ensures service step ends world)
    (implies : ∀ a after, ends a after → weaker a after) :
    p.Ensures service step weaker world := by
  induction p generalizing world with
  | done result => exact implies result world ensures
  | act action next induction =>
      intro answer after answered
      obtain ⟨moves, goes⟩ := ensures answer after answered
      exact ⟨moves, induction answer goes⟩

theorem Ensures.bind {ends : β → World → Prop} {p : Program α} {f : α → Program β}
    (ensures : p.Ensures service step (fun a after => (f a).Ensures service step ends after)
      world) :
    (p >>= f).Ensures service step ends world := by
  induction p generalizing world with
  | done result => exact ensures
  | act action next induction =>
      intro answer after answered
      obtain ⟨moves, goes⟩ := ensures answer after answered
      exact ⟨moves, induction answer goes⟩

theorem ensures_note {event : Event} {ends : Unit → World → Prop} (known : ends () world) :
    (perform (.note event)).Ensures service step ends world := by
  rintro answer after ⟨⟩
  exact ⟨.inl rfl, known⟩

/-- What a program ensures, a run shows, if it answers as the store may. -/
theorem Ensures.runWith {σ : Type} {answer : (action : Action) → σ → action.Answer × σ}
    (seen : σ → World)
    (answers : ∀ action state, service.Answers action (seen state) (answer action state).1
      (seen (answer action state).2))
    {p : Program α} {state : σ} (ensures : p.Ensures service step ends (seen state)) :
    ends (p.runWith answer state).1 (seen (p.runWith answer state).2) := by
  induction p generalizing state with
  | done result => exact ensures
  | act action next induction => exact induction _ (ensures _ _ (answers action state)).2

end Program

/-! ## Runs that are broken off -/

def Action.isCall : Action → Bool
  | .call _ => true
  | .newTaskId | .now | .nameOf _ | .note _ => false

/-- The world in which a program is broken off that has made the given number of calls. -/
def Conditions.stopAfter (conditions : Conditions) : Program α → Nat → World → World
  | .done _, _, world => world
  | .act _ _, 0, world => world
  | .act action next, calls + 1, world =>
    conditions.stopAfter (next (conditions.answer action world).1)
      (if action.isCall then calls else calls + 1) (conditions.answer action world).2

@[simp]
theorem Conditions.stopAfter_zero (conditions : Conditions) (p : Program α) (world : World) :
    conditions.stopAfter p 0 world = world := by
  cases p <;> rfl

namespace Program

variable {conditions : Conditions} {ends : α → World → Prop} {p : Program α}

/-- What holds of a store at first and after every step holds wherever a run is broken off. -/
theorem Ensures.holds_stopAfter {holds : Store → Prop}
    (ensures : p.Ensures (.under conditions) step ends world)
    (keeps : ∀ before after, step before after → holds after) (begins : holds world.store)
    (calls : Nat) : holds (conditions.stopAfter p calls world).store := by
  induction p generalizing world calls with
  | done result => exact begins
  | act action next induction =>
      cases calls with
      | zero => exact begins
      | succ calls =>
          obtain ⟨moves, goes⟩ := ensures _ _ (Service.answers_under conditions action world)
          apply induction _ goes
          rcases moves with same | moved
          · rwa [same]
          · exact keeps _ _ moved

theorem Ensures.holds_run {holds : Store → Prop}
    (ensures : p.Ensures (.under conditions) step ends world)
    (keeps : ∀ before after, step before after → holds after) (begins : holds world.store) :
    holds (conditions.run p world).2.store := by
  induction p generalizing world with
  | done result => exact begins
  | act action next induction =>
      obtain ⟨moves, goes⟩ := ensures _ _ (Service.answers_under conditions action world)
      apply induction _ goes
      rcases moves with same | moved
      · rwa [same]
      · exact keeps _ _ moved

/-- One more call leaves the store or changes it by a step. -/
theorem Ensures.step_stopAfter (ensures : p.Ensures (.under conditions) step ends world)
    (calls : Nat) :
    (conditions.stopAfter p (calls + 1) world).store = (conditions.stopAfter p calls world).store ∨
      step (conditions.stopAfter p calls world).store
        (conditions.stopAfter p (calls + 1) world).store := by
  induction p generalizing world calls with
  | done result => exact .inl rfl
  | act action next induction =>
      obtain ⟨moves, goes⟩ := ensures _ _ (Service.answers_under conditions action world)
      cases called : action.isCall with
      | true =>
          cases calls with
          | zero => simpa [Conditions.stopAfter, called] using moves
          | succ calls => simpa [Conditions.stopAfter, called] using induction _ goes calls
      | false =>
          have same : (conditions.answer action world).2.store = world.store := by
            cases action with
            | call => cases called
            | newTaskId | now | nameOf | note => rfl
          cases calls with
          | zero => simpa [Conditions.stopAfter, called, same] using induction _ goes 0
          | succ calls => simpa [Conditions.stopAfter, called] using induction _ goes (calls + 1)

end Program

/-! ## Attempts -/

namespace Attempt

/-- What a program ensures that may fail: something is known if it succeeds, and something if it
fails. -/
def Ensures (service : Service) (step : Store → Store → Prop) (good : α → World → Prop)
    (bad : World → Prop) (attempt : Attempt α) : World → Prop :=
  Program.Ensures service step (fun
    | .ok a => good a
    | .error _ => bad) attempt.run

variable {good : α → World → Prop} {bad : World → Prop}

theorem ensures_pure {a : α} (known : good a world) :
    Ensures service step good bad (pure a) world := known

theorem ensures_throw {failure : Failure} (known : bad world) :
    Ensures service step good bad (throw failure) world := known

theorem Ensures.mono {better : α → World → Prop} {worse : World → Prop} {attempt : Attempt α}
    (ensures : Ensures service step good bad attempt world)
    (success : ∀ a after, good a after → better a after)
    (failing : ∀ after, bad after → worse after) :
    Ensures service step better worse attempt world := by
  apply Program.Ensures.mono ensures
  rintro (_ | a) after known
  · exact failing after known
  · exact success a after known

theorem Ensures.bind {good : β → World → Prop} {first : Attempt α} {next : α → Attempt β}
    (ensures : Ensures service step (fun a after => Ensures service step good bad (next a) after)
      bad first world) :
    Ensures service step good bad (first >>= next) world := by
  apply Program.Ensures.bind
  apply Program.Ensures.mono ensures
  rintro (_ | a) after known
  · exact known
  · exact known

theorem Ensures.map {good : β → World → Prop} {attempt : Attempt α} {f : α → β}
    (ensures : Ensures service step (fun a => good (f a)) bad attempt world) :
    Ensures service step good bad (f <$> attempt) world := by
  rw [← bind_pure_comp]
  exact Ensures.bind ensures

theorem ensures_lift {p : Program α} (ensures : p.Ensures service step good world) :
    Ensures service step good bad (ExceptT.lift p) world := by
  apply Program.Ensures.bind
  exact ensures.mono fun _ _ known => known

/-- A program that goes on after an attempt, however it has ended. -/
theorem Ensures.recover {ends : β → World → Prop} {attempt : Attempt α}
    {next : Except Failure α → Program β}
    (ensures : Ensures service step (fun a after => (next (.ok a)).Ensures service step ends after)
      (fun after => ∀ failure, (next (.error failure)).Ensures service step ends after) attempt
      world) :
    (attempt.run >>= next).Ensures service step ends world := by
  apply Program.Ensures.bind
  apply Program.Ensures.mono ensures
  rintro (failure | a) after known
  · exact known failure
  · exact known

theorem ensures_note {event : Event} {good : Unit → World → Prop} (known : good () world) :
    Ensures service step good bad (note event) world :=
  ensures_lift (Program.ensures_note known)

theorem ensures_now {good : Instant → World → Prop} (known : good world.clock world) :
    Ensures service step good bad now world := by
  apply ensures_lift
  rintro answer after ⟨⟩
  exact ⟨.inl rfl, known⟩

theorem ensures_newTaskId {good : TaskId → World → Prop}
    (known : good (service.around.newTaskId world.issued)
      { world with issued := world.issued + 1 }) :
    Ensures service step good bad newTaskId world := by
  apply ensures_lift
  rintro answer after ⟨⟩
  exact ⟨.inl rfl, known⟩

theorem ensures_ofExcept {result : Except Failure α}
    (success : ∀ a, result = .ok a → good a world)
    (failing : ∀ failure, result = .error failure → bad world) :
    Ensures service step good bad (ofExcept result) world := by
  cases result with
  | error failure => exact failing failure rfl
  | ok a => exact success a rfl

theorem ensures_call {request : Call} {good : request.Answer → World → Prop}
    (refused : service.refuses request → bad world)
    (served : service.serves request →
      ((world.store.perform request).2 = world.store ∨
        step world.store (world.store.perform request).2) ∧
      good (world.store.perform request).1
        { world with store := (world.store.perform request).2 }) :
    Ensures service step good bad (call request) world := by
  rintro answer after (⟨refuses, ⟨outage, rfl⟩, rfl⟩ | ⟨serves, same⟩)
  · exact ⟨.inl rfl, refused refuses⟩
  · cases same
    exact served serves

theorem ensures_get {key : String} {good : Option Bytes → World → Prop}
    (refused : service.refuses (.get key) → bad world) (read : good (world.store.get? key) world) :
    Ensures service step good bad (get key) world :=
  ensures_call refused fun _ => ⟨.inl rfl, read⟩

end Attempt

/-! ## Workflows that note how to undo their steps -/

namespace Undoable

/-- What a workflow ensures that has noted some actions: something is known of all that it has noted
if it succeeds, and if it fails. -/
def Ensures (service : Service) (step : Store → Store → Prop)
    (good : α → List Undo → World → Prop) (bad : List Undo → World → Prop) (workflow : Undoable α)
    (noted : List Undo) : World → Prop :=
  Program.Ensures service step (fun ended => match ended.1 with
    | .ok a => good a ended.2
    | .error _ => bad ended.2) (workflow.run.run noted)

variable {good : α → List Undo → World → Prop} {bad : List Undo → World → Prop}
  {noted : List Undo}

theorem ensures_pure {a : α} (known : good a noted world) :
    Ensures service step good bad (pure a) noted world := known

theorem Ensures.mono {better : α → List Undo → World → Prop} {worse : List Undo → World → Prop}
    {workflow : Undoable α} (ensures : Ensures service step good bad workflow noted world)
    (success : ∀ a noting after, good a noting after → better a noting after)
    (failing : ∀ noting after, bad noting after → worse noting after) :
    Ensures service step better worse workflow noted world := by
  apply Program.Ensures.mono ensures
  rintro ⟨_ | a, noting⟩ after known
  · exact failing noting after known
  · exact success a noting after known

theorem Ensures.bind {good : β → List Undo → World → Prop} {first : Undoable α}
    {next : α → Undoable β}
    (ensures : Ensures service step
      (fun a noting after => Ensures service step good bad (next a) noting after) bad first noted
      world) :
    Ensures service step good bad (first >>= next) noted world := by
  apply Program.Ensures.bind
  apply Program.Ensures.mono ensures
  rintro ⟨_ | a, noting⟩ after known
  · exact known
  · exact known

theorem ensures_step {attempt : Attempt α}
    (ensures : Attempt.Ensures service step (fun a => good a noted) (bad noted) attempt world) :
    Ensures service step good bad (Undoable.step attempt) noted world := by
  apply Program.Ensures.bind
  apply Program.Ensures.mono ensures
  rintro (_ | a) after known
  · exact known
  · exact known

theorem ensures_step_bind {good : β → List Undo → World → Prop} {attempt : Attempt α}
    {next : α → Undoable β}
    (ensures : Attempt.Ensures service step
      (fun a after => Ensures service step good bad (next a) noted after) (bad noted) attempt
      world) :
    Ensures service step good bad (Undoable.step attempt >>= next) noted world := by
  apply Ensures.bind
  exact ensures_step ensures

theorem ensures_note_bind {good : β → List Undo → World → Prop} {undo : Undo}
    {next : Unit → Undoable β}
    (ensures : Ensures service step good bad (next ()) (noted ++ [undo]) world) :
    Ensures service step good bad (note undo >>= next) noted world :=
  Ensures.bind ensures

/-- A workflow that fails is rolled back. -/
theorem ensures_settle {budget : Nat} {workflow : Undoable α} {good : α → World → Prop}
    {bad : World → Prop}
    (ensures : Ensures service step (fun a _ => good a)
      (fun noted => (Undo.applyEach budget noted.reverse).Ensures service step fun _ => bad)
      workflow [] world) :
    Attempt.Ensures service step good bad (settle budget workflow) world := by
  apply Program.Ensures.bind
  apply Program.Ensures.mono ensures
  rintro ⟨failure | a, noted⟩ after known
  · apply Program.Ensures.bind
    apply Program.ensures_note
    apply Program.Ensures.bind
    apply Program.Ensures.bind
    apply Program.Ensures.mono known
    intro failures left back
    dsimp only
    split
    · exact Program.Ensures.bind (Program.ensures_note back)
    · exact back
  · exact Program.Ensures.bind (Program.ensures_note known)

end Undoable

namespace Undo

/-- Whether an action succeeds or fails, the earlier ones are carried out after it. -/
theorem ensures_applyEach_append {budget : Nat} {noted : List Undo} {undo : Undo}
    {bad : World → Prop}
    (ensures : Attempt.Ensures service step
      (fun _ => (applyEach budget noted.reverse).Ensures service step fun _ => bad)
      ((applyEach budget noted.reverse).Ensures service step fun _ => bad) (undo.apply budget)
      world) :
    (applyEach budget (noted ++ [undo]).reverse).Ensures service step (fun _ => bad) world := by
  rw [List.reverse_append, List.reverse_singleton, List.singleton_append, applyEach]
  apply Attempt.Ensures.recover
  apply ensures.mono
  · exact fun _ _ rest => rest
  · intro after rest failure
    apply Program.Ensures.bind
    apply Program.ensures_note
    apply Program.Ensures.bind
    exact rest.mono fun _ _ back => back

end Undo
end Handoff
