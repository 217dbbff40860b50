import Handoff.Program.World
import Handoff.Workflow.Undo

/-!
# Contracts of programs

A contract tells which calls a program may make, and what it may count on in the answers.  Whoever
answers as promised can rely on the calls, whatever happens between one call and the next.
-/

namespace Handoff

/-- Which calls a program may make, and what it may count on in the answers. -/
structure Contract where
  allows : Call → Prop
  promises : (action : Action) → action.Answer → Prop

/-- Only calls are restricted. -/
def Contract.Permits (contract : Contract) : Action → Prop
  | .call request => contract.allows request
  | .newTaskId | .now | .nameOf _ | .note _ => True

variable {contract : Contract} {α β : Type}

namespace Program

/-- As long as the answers are as promised, a program makes only calls that are allowed, and its
result is as described. -/
def Honours (contract : Contract) (ends : α → Prop) : Program α → Prop
  | .done result => ends result
  | .act action next =>
    contract.Permits action ∧
      ∀ answer, contract.promises action answer → (next answer).Honours contract ends

theorem honours_pure {ends : α → Prop} {a : α} (fits : ends a) :
    (pure a : Program α).Honours contract ends := fits

theorem honours_perform {action : Action} (permitted : contract.Permits action) :
    (perform action).Honours contract (contract.promises action) :=
  ⟨permitted, fun _ promised => promised⟩

theorem Honours.bind {middle : α → Prop} {ends : β → Prop} {p : Program α} {f : α → Program β}
    (first : p.Honours contract middle) (second : ∀ a, middle a → (f a).Honours contract ends) :
    (p >>= f).Honours contract ends := by
  induction p with
  | done result => exact second result first
  | act action next induction =>
      exact ⟨first.1, fun answer promised => induction answer (first.2 answer promised)⟩

theorem Honours.mono {ends weaker : α → Prop} {p : Program α} (honours : p.Honours contract ends)
    (implies : ∀ a, ends a → weaker a) : p.Honours contract weaker := by
  induction p with
  | done result => exact implies result honours
  | act action next induction =>
      exact ⟨honours.1, fun answer promised => induction answer (honours.2 answer promised)⟩

/-- A program honours every contract that permits more and promises no less. -/
theorem Honours.weaken {strict : Contract} {ends : α → Prop} {p : Program α}
    (honours : p.Honours strict ends)
    (permits : ∀ action, strict.Permits action → contract.Permits action)
    (promises : ∀ action answer, contract.promises action answer → strict.promises action answer) :
    p.Honours contract ends := by
  induction p with
  | done result => exact honours
  | act action next induction =>
      exact ⟨permits action honours.1, fun answer promised =>
        induction answer (honours.2 answer (promises action answer promised))⟩

/-- If permitted actions keep a condition and their answers are as promised, a whole run keeps the
condition, and its result is as described. -/
theorem Honours.runWith {σ : Type} {answer : (action : Action) → σ → action.Answer × σ}
    {holds : σ → Prop} {ends : α → Prop} {p : Program α} (honours : p.Honours contract ends)
    (answers : ∀ action state, contract.Permits action → holds state →
      contract.promises action (answer action state).1 ∧ holds (answer action state).2)
    {state : σ} (begins : holds state) :
    ends (p.runWith answer state).1 ∧ holds (p.runWith answer state).2 := by
  induction p generalizing state with
  | done result => exact ⟨honours, begins⟩
  | act action next induction =>
      obtain ⟨promised, kept⟩ := answers action state honours.1 begins
      exact induction _ (honours.2 _ promised) kept

end Program

namespace Attempt

/-- As long as the answers are as promised, an attempt makes only calls that are allowed, and its
result is as described if it succeeds. -/
def Honours (contract : Contract) (ends : α → Prop) (attempt : Attempt α) : Prop :=
  Program.Honours contract (fun result => ∀ a, result = .ok a → ends a) attempt.run

theorem honours_pure {ends : α → Prop} {a : α} (fits : ends a) :
    Honours contract ends (pure a) := by
  rintro _ ⟨⟩
  exact fits

theorem honours_throw {ends : α → Prop} (failure : Failure) :
    Honours contract ends (throw failure) := by
  rintro _ ⟨⟩

theorem Honours.bind {middle : α → Prop} {ends : β → Prop} {first : Attempt α}
    {next : α → Attempt β} (begins : Honours contract middle first)
    (goes : ∀ a, middle a → Honours contract ends (next a)) :
    Honours contract ends (first >>= next) := by
  refine Program.Honours.bind begins fun result fits => ?_
  cases result with
  | error failure => exact honours_throw failure
  | ok a => exact goes a (fits a rfl)

theorem Honours.mono {ends weaker : α → Prop} {attempt : Attempt α}
    (honours : Honours contract ends attempt) (implies : ∀ a, ends a → weaker a) :
    Honours contract weaker attempt :=
  Program.Honours.mono honours fun _ fits a same => implies a (fits a same)

theorem Honours.forget {ends : α → Prop} {attempt : Attempt α}
    (honours : Honours contract ends attempt) :
    Honours contract (fun _ => True) (attempt >>= fun _ => (pure () : Attempt Unit)) :=
  honours.bind fun _ _ => honours_pure trivial

theorem Honours.map {ends : β → Prop} {attempt : Attempt α} (f : α → β)
    (honours : Honours contract (fun a => ends (f a)) attempt) :
    Honours contract ends (f <$> attempt) := by
  rw [← bind_pure_comp]
  exact honours.bind fun _ fits => honours_pure fits

/-- An attempt makes only calls that are allowed, also as a program that ends with its outcome. -/
theorem Honours.run {ends : α → Prop} {attempt : Attempt α}
    (honours : Honours contract ends attempt) : attempt.run.Honours contract fun _ => True :=
  Program.Honours.mono honours fun _ _ => trivial

theorem honours_lift {ends : α → Prop} {p : Program α} (honours : p.Honours contract ends) :
    Honours contract ends (ExceptT.lift p) :=
  Program.Honours.bind honours fun _ fits => honours_pure fits

theorem honours_note (event : Event) : Honours contract (fun _ => True) (note event) :=
  honours_lift (Program.Honours.mono (Program.honours_perform trivial) fun _ _ => trivial)

theorem honours_newTaskId : Honours contract (contract.promises .newTaskId) newTaskId :=
  honours_lift (Program.honours_perform trivial)

theorem honours_now : Honours contract (fun _ => True) now :=
  honours_lift (Program.Honours.mono (Program.honours_perform trivial) fun _ _ => trivial)

theorem honours_call {request : Call} (allowed : contract.allows request) :
    Honours contract (fun answer => contract.promises (.call request) (.ok answer))
      (call request) := by
  have asked : (Program.perform (.call request)).Honours contract
      (contract.promises (.call request)) := Program.honours_perform allowed
  refine (honours_lift asked).bind fun answer promised => ?_
  cases answer with
  | error outage => exact honours_throw _
  | ok answer => exact honours_pure promised

theorem honours_ofExcept {ends : α → Prop} {result : Except Failure α}
    (fits : ∀ a, result = .ok a → ends a) : Honours contract ends (ofExcept result) := by
  cases result with
  | error failure => exact honours_throw failure
  | ok a => exact honours_pure (fits a rfl)

end Attempt

namespace Undoable

variable {proper : Undo → Prop}

/-- As long as the answers are as promised, a workflow makes only calls that are allowed and notes
only proper actions, and its result is as described if it succeeds. -/
def Honours (contract : Contract) (proper : Undo → Prop) (ends : α → Prop)
    (workflow : Undoable α) : Prop :=
  ∀ noted : List Undo, (∀ undo ∈ noted, proper undo) →
    Program.Honours contract
      (fun ended => (∀ a, ended.1 = .ok a → ends a) ∧ ∀ undo ∈ ended.2, proper undo)
      (workflow.run.run noted)

theorem honours_pure {ends : α → Prop} {a : α} (fits : ends a) :
    Honours contract proper ends (pure a) := by
  refine fun noted all => ⟨?_, all⟩
  rintro _ ⟨⟩
  exact fits

theorem honours_step {ends : α → Prop} {attempt : Attempt α}
    (honours : Attempt.Honours contract ends attempt) :
    Honours contract proper ends (step attempt) :=
  fun _ all => Program.Honours.bind honours fun _ fits => ⟨fits, all⟩

theorem honours_note {undo : Undo} (fits : proper undo) :
    Honours contract proper (fun _ => True) (note undo) := by
  refine fun noted all => ⟨fun _ _ => trivial, fun other mem => ?_⟩
  rcases List.mem_append.mp mem with old | new
  · exact all other old
  · rwa [List.mem_singleton.mp new]

theorem Honours.bind {middle : α → Prop} {ends : β → Prop} {first : Undoable α}
    {next : α → Undoable β} (begins : Honours contract proper middle first)
    (goes : ∀ a, middle a → Honours contract proper ends (next a)) :
    Honours contract proper ends (first >>= next) := by
  intro noted all
  refine Program.Honours.bind (begins noted all) ?_
  rintro ⟨failure | a, later⟩ ⟨fits, proper_later⟩
  · exact ⟨by simp, proper_later⟩
  · exact goes a (fits a rfl) later proper_later

/-- Undoing honours a contract if every single action does. -/
theorem honours_applyEach {budget : Nat} {undos : List Undo}
    (each : ∀ undo ∈ undos, Attempt.Honours contract (fun _ => True) (undo.apply budget)) :
    (Undo.applyEach budget undos).Honours contract fun _ => True := by
  induction undos with
  | nil => exact Program.honours_pure trivial
  | cons undo rest induction =>
      have later := induction fun other mem => each other (List.mem_cons_of_mem _ mem)
      refine Program.Honours.bind (each undo List.mem_cons_self) fun result _ => ?_
      cases result with
      | ok => exact later
      | error failure =>
          exact ⟨trivial, fun _ _ => later.bind fun _ _ => Program.honours_pure trivial⟩

/-- A workflow that is undone if it fails honours a contract if its steps and what undoes them
do. -/
theorem honours_settle {ends : α → Prop} {budget : Nat} {workflow : Undoable α}
    (honours : Honours contract proper ends workflow)
    (each : ∀ undo, proper undo → Attempt.Honours contract (fun _ => True) (undo.apply budget)) :
    Attempt.Honours contract ends (settle budget workflow) := by
  refine Program.Honours.bind (honours [] (List.forall_mem_nil _)) ?_
  rintro ⟨failure | a, noted⟩ ⟨fits, all⟩
  · have undoing : (Undo.rollBack budget noted).Honours contract fun _ => True := by
      refine (honours_applyEach fun undo mem =>
        each undo (all undo (List.mem_reverse.mp mem))).bind fun failures _ => ?_
      dsimp only
      split
      · exact ⟨trivial, fun _ _ => trivial⟩
      · trivial
    refine ⟨trivial, fun _ _ => undoing.bind fun _ _ => ?_⟩
    exact Attempt.honours_throw failure
  · refine ⟨trivial, fun _ _ => ?_⟩
    exact Attempt.honours_pure (fits a rfl)

end Undoable
end Handoff
