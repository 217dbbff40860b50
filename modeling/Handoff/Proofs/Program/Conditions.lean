import Handoff.Program.Attempt
import Handoff.Program.World
import Handoff.Proofs.Store.Cell

/-!
# Running programs where some keys cannot be written

Under given conditions every write to a barred key fails without effect, and all other calls reach
the store.  If no key is barred, this is how programs are run in a world.  A program is described by
what it yields: its result and the scene after it, from the scene before it.
-/

namespace Handoff

/-- The record names that are given out are not empty and all different. -/
structure Surroundings.Fresh (around : Surroundings) : Prop where
  named : ∀ n, around.newTaskId n ≠ ""
  injective : Function.Injective around.newTaskId

/-- Surroundings where nobody's name is known and records are named by numbers of strokes. -/
def Surroundings.strokes : Surroundings where
  nameOf := fun _ => none
  newTaskId := fun n => String.ofList (List.replicate (n + 1) '|')

theorem Surroundings.fresh_strokes : strokes.Fresh where
  named := by
    intro n
    simp [strokes, List.replicate_succ]
  injective := by
    intro m n same
    have lengths := congrArg String.length same
    simpa [strokes] using lengths

/-- Whether a call may change the store. -/
def Call.isWrite : Call → Bool
  | .get _ => false
  | .set .. | .compareAndSet .. | .delete _ => true

/-- The conditions under which programs are run. -/
structure Conditions where
  /-- What programs meet besides the store. -/
  around : Surroundings
  /-- Whether writes to a key fail. -/
  barred : String → Bool
  /-- What the store says when a write fails. -/
  outage : Call → Outage

namespace Conditions

/-- No write fails. -/
def calm (around : Surroundings) : Conditions := ⟨around, fun _ => false, fun _ => ⟨""⟩⟩

/-- Answers an action, unless it is a write to a barred key. -/
def answer (conditions : Conditions) (action : Action) (world : World) : action.Answer × World :=
  match action with
  | .call request =>
    if request.isWrite && conditions.barred request.key then
      (.error (conditions.outage request), world)
    else World.answer conditions.around (.call request) world
  | action => World.answer conditions.around action world

def run {α : Type} (conditions : Conditions) (p : Program α) (world : World) : α × World :=
  p.runWith conditions.answer world

theorem run_after {α β : Type} (conditions : Conditions) (p : Program α) (f : α → Program β)
    (world : World) : conditions.run (p >>= f) world =
      conditions.run (f (conditions.run p world).1) (conditions.run p world).2 :=
  Program.runWith_bind conditions.answer p f world

theorem answer_calm (around : Surroundings) : (calm around).answer = World.answer around := by
  funext action world
  cases action <;> simp [answer, calm]

/-- Where no key is barred, programs run as they do in a world. -/
theorem run_calm {α : Type} (around : Surroundings) (p : Program α) (world : World) :
    (calm around).run p world = p.run around world := by
  rw [run, Program.run, answer_calm]

/-- Record names are not taken back. -/
theorem issued_le_run {α : Type} (conditions : Conditions) (p : Program α) (world : World) :
    world.issued ≤ (conditions.run p world).2.issued := by
  have answer_keeps (action : Action) (reached : World) (later : world.issued ≤ reached.issued) :
      world.issued ≤ (conditions.answer action reached).2.issued := by
    cases action with
    | call request =>
        simp only [answer]
        split
        · exact later
        · exact later
    | newTaskId => exact Nat.le_succ_of_le later
    | now | nameOf | note => exact later
  exact Program.runWith_keeps answer_keeps p le_rfl

end Conditions

/-- What programs can tell of a world, if they read trays only as trays. -/
structure Scene where
  /-- What the store says. -/
  cells : String → Cell
  clock : Instant
  /-- How many record names have been given out. -/
  issued : Nat

/-- What programs can tell of a world. -/
def World.scene (world : World) : Scene := ⟨world.store.cell, world.clock, world.issued⟩

namespace Scene

/-- The scene with another cell for a key. -/
def put (scene : Scene) (key : String) (cell : Cell) : Scene :=
  { scene with cells := Function.update scene.cells key cell }

/-- The scene after a record name has been given out. -/
def issue (scene : Scene) : Scene := { scene with issued := scene.issued + 1 }

@[simp]
theorem put_clock (scene : Scene) (key : String) (cell : Cell) :
    (scene.put key cell).clock = scene.clock := rfl

@[simp]
theorem put_issued (scene : Scene) (key : String) (cell : Cell) :
    (scene.put key cell).issued = scene.issued := rfl

@[simp]
theorem issue_cells (scene : Scene) : scene.issue.cells = scene.cells := rfl

@[simp]
theorem issue_clock (scene : Scene) : scene.issue.clock = scene.clock := rfl

@[simp]
theorem issue_issued (scene : Scene) : scene.issue.issued = scene.issued + 1 := rfl

@[simp]
theorem put_cells_self (scene : Scene) (key : String) (cell : Cell) :
    (scene.put key cell).cells key = cell := by
  simp [put]

theorem put_cells_of_ne (scene : Scene) {key other : String} (cell : Cell) (differs : other ≠ key) :
    (scene.put key cell).cells other = scene.cells other := by
  simp [put, differs]

theorem put_cells (scene : Scene) (key other : String) (cell : Cell) :
    (scene.put key cell).cells other = if other = key then cell else scene.cells other := by
  simp [put, Function.update_apply]

@[simp]
theorem put_record_cells_tray (scene : Scene) (task : TaskId) (cell : Cell) (user : UserId)
    (tray : Tray) : (scene.put (Key.record task) cell).cells (Key.tray user tray) =
      scene.cells (Key.tray user tray) :=
  put_cells_of_ne scene cell (Key.record_ne_tray task user tray).symm

@[simp]
theorem put_tray_cells_record (scene : Scene) (user : UserId) (tray : Tray) (cell : Cell)
    (task : TaskId) : (scene.put (Key.tray user tray) cell).cells (Key.record task) =
      scene.cells (Key.record task) :=
  put_cells_of_ne scene cell (Key.record_ne_tray task user tray)

@[simp]
theorem put_put (scene : Scene) (key : String) (first second : Cell) :
    (scene.put key first).put key second = scene.put key second := by
  simp [put]

theorem put_eq_self {scene : Scene} {key : String} {cell : Cell} (shown : scene.cells key = cell) :
    scene.put key cell = scene := by
  simp [put, ← shown]

theorem put_comm (scene : Scene) {left right : String} (first second : Cell)
    (differs : left ≠ right) :
    (scene.put left first).put right second = (scene.put right second).put left first := by
  simp [put, Function.update_comm differs]

end Scene

/-- From the scene `before`, a program ends with a result and leaves the scene `after`. -/
def Program.Yields {α : Type} (conditions : Conditions) (p : Program α) (before : Scene)
    (result : α) (after : Scene) : Prop :=
  ∀ world : World, world.scene = before →
    (conditions.run p world).1 = result ∧ (conditions.run p world).2.scene = after

section
variable {conditions : Conditions} {before middle after : Scene}

theorem Program.yields_pure {α : Type} (a : α) :
    Yields conditions (pure a) before a before :=
  fun _ seen => ⟨rfl, seen⟩

theorem Program.Yields.bind {α β : Type} {p : Program α} {f : α → Program β} {a : α} {b : β}
    (first : Yields conditions p before a middle)
    (second : Yields conditions (f a) middle b after) :
    Yields conditions (p >>= f) before b after := by
  intro world seen
  obtain ⟨result, left⟩ := first world seen
  rw [Conditions.run_after, result]
  exact second _ left

/-- From the scene `before`, a program leaves the scene `after`, whatever its result. -/
def Program.Leaves {α : Type} (conditions : Conditions) (p : Program α) (before after : Scene) :
    Prop :=
  ∀ world : World, world.scene = before → (conditions.run p world).2.scene = after

theorem Program.Yields.leaves {α : Type} {p : Program α} {a : α}
    (ends : Yields conditions p before a after) : Leaves conditions p before after :=
  fun world seen => (ends world seen).2

theorem Program.Leaves.bind {α β : Type} {p : Program α} {f : α → Program β}
    (first : Leaves conditions p before middle)
    (second : ∀ a, Leaves conditions (f a) middle after) :
    Leaves conditions (p >>= f) before after := by
  intro world seen
  rw [Conditions.run_after]
  exact second _ _ (first world seen)

theorem Program.Yields.bind_leaves {α β : Type} {p : Program α} {f : α → Program β} {a : α}
    (first : Yields conditions p before a middle)
    (second : Leaves conditions (f a) middle after) :
    Leaves conditions (p >>= f) before after := by
  intro world seen
  obtain ⟨result, left⟩ := first world seen
  rw [Conditions.run_after, result]
  exact second _ left

/-- An attempt after another is made where the first one has led, unless that one failed. -/
theorem Conditions.run_bind {α β : Type} (conditions : Conditions) (first : Attempt α)
    (next : α → Attempt β) (world : World) :
    conditions.run (first >>= next).run world =
      match conditions.run first.run world with
      | (.ok a, reached) => conditions.run (next a).run reached
      | (.error failure, reached) => (.error failure, reached) := by
  have split : conditions.run (first >>= next).run world =
      conditions.run (ExceptT.bindCont next (conditions.run first.run world).1)
        (conditions.run first.run world).2 :=
    conditions.run_after first.run (ExceptT.bindCont next) world
  rw [split]
  rcases conditions.run first.run world with ⟨_ | _, _⟩ <;> rfl

theorem Conditions.run_lift {α : Type} (conditions : Conditions) (p : Program α) (world : World) :
    conditions.run (ExceptT.lift p : Attempt α).run world =
      (.ok (conditions.run p world).1, (conditions.run p world).2) :=
  conditions.run_after p _ world

theorem Program.yields_note (event : Event) :
    Yields conditions (perform (.note event)) before () before :=
  fun _ seen => ⟨rfl, seen⟩

/-- From the scene `before`, an attempt succeeds with a result and leaves the scene `after`. -/
def Attempt.Yields {α : Type} (conditions : Conditions) (attempt : Attempt α) (before : Scene)
    (result : α) (after : Scene) : Prop :=
  Program.Yields conditions attempt.run before (.ok result) after

/-- From the scene `before`, an attempt fails and leaves the scene `after`. -/
def Attempt.Fails {α : Type} (conditions : Conditions) (attempt : Attempt α)
    (before after : Scene) : Prop :=
  ∀ world : World, world.scene = before → ∃ failure,
    (conditions.run attempt.run world).1 = .error failure ∧
      (conditions.run attempt.run world).2.scene = after

namespace Attempt

variable {α β : Type}

theorem yields_pure (a : α) : Yields conditions (pure a) before a before :=
  Program.yields_pure _

theorem fails_throw (failure : Failure) :
    Fails conditions (throw failure : Attempt α) before before :=
  fun _ seen => ⟨failure, rfl, seen⟩

theorem Yields.bind {first : Attempt α} {next : α → Attempt β} {a : α} {b : β}
    (ends : Yields conditions first before a middle)
    (goes : Yields conditions (next a) middle b after) :
    Yields conditions (first >>= next) before b after :=
  Program.Yields.bind ends goes

theorem Yields.bind_fails {first : Attempt α} {next : α → Attempt β} {a : α}
    (ends : Yields conditions first before a middle)
    (fails : Fails conditions (next a) middle after) :
    Fails conditions (first >>= next) before after := by
  intro world seen
  obtain ⟨result, reached⟩ := ends world seen
  obtain ⟨failure, failed, left⟩ := fails _ reached
  rw [Conditions.run_bind]
  rcases run : conditions.run first.run world with ⟨_ | _, _⟩ <;> simp_all

theorem Fails.bind {first : Attempt α} (fails : Fails conditions first before after)
    (next : α → Attempt β) : Fails conditions (first >>= next) before after := by
  intro world seen
  obtain ⟨failure, failed, left⟩ := fails world seen
  rw [Conditions.run_bind]
  rcases run : conditions.run first.run world with ⟨_ | _, _⟩ <;> simp_all

theorem Fails.recover {first : Attempt α} {next : Except Failure α → Program β} {b : β}
    (fails : Fails conditions first before middle)
    (goes : ∀ failure, Program.Yields conditions (next (.error failure)) middle b after) :
    Program.Yields conditions (first.run >>= next) before b after := by
  intro world seen
  obtain ⟨failure, failed, left⟩ := fails world seen
  rw [Conditions.run_after, failed]
  exact goes failure _ left

theorem Yields.leaves {attempt : Attempt α} {a : α}
    (ends : Yields conditions attempt before a after) :
    Program.Leaves conditions attempt.run before after :=
  fun world seen => (ends world seen).2

theorem Fails.leaves {attempt : Attempt α} (fails : Fails conditions attempt before after) :
    Program.Leaves conditions attempt.run before after :=
  fun world seen => (fails world seen).elim fun _ failed => failed.2

theorem leaves_forget {attempt : Attempt α}
    (leaves : Program.Leaves conditions attempt.run before after) :
    Program.Leaves conditions (attempt >>= fun _ => (pure () : Attempt Unit)).run before after := by
  intro world seen
  have reached := leaves world seen
  rw [Conditions.run_bind]
  rcases run : conditions.run attempt.run world with ⟨_ | _, _⟩ <;> rw [run] at reached <;>
    exact reached

theorem yields_lift {p : Program α} {a : α} (ends : Program.Yields conditions p before a after) :
    Yields conditions (ExceptT.lift p) before a after :=
  Program.Yields.bind ends (Program.yields_pure _)

theorem yields_note (event : Event) : Yields conditions (note event) before () before :=
  yields_lift (Program.yields_note event)

theorem yields_note_pure (event : Event) (a : α) :
    Yields conditions (note event >>= fun _ => pure a) before a before :=
  (yields_note event).bind (yields_pure a)

theorem yields_newTaskId :
    Yields conditions newTaskId before (conditions.around.newTaskId before.issued)
      before.issue := by
  refine yields_lift fun world seen => ?_
  subst seen
  exact ⟨rfl, rfl⟩

theorem yields_now : Yields conditions now before before.clock before := by
  refine yields_lift fun world seen => ?_
  subst seen
  exact ⟨rfl, rfl⟩

end Attempt
end

end Handoff
