import Handoff.Program.World
import Handoff.Proofs.Stored.Trays

/-!
# Rounds among other programs

A change of a tray reads, applies the change and swaps, and other programs may act between its
actions.  Each of its actions leaves the store as it is, or applies the change to the entries that
are under the key at that moment.
-/

namespace Handoff

namespace Program

/-- The result of a program that has ended. -/
def result? {α : Type} : Program α → Option α
  | .done result => some result
  | .act .. => none

end Program

namespace Action

/-- What the store was like when it was last read, after one more action. -/
def sees (action : Action) (store : Store) (seen : Option Store) : Option Store :=
  match action with
  | .call (.get _) => some store
  | _ => seen

/-- Whether an action has swapped a value for another. -/
def swaps : (action : Action) → action.Answer → Bool
  | .call (.compareAndSet ..), .ok swapped => swapped
  | _, _ => false

end Action

namespace Trays

variable {β : Type}

/-- What a stored value is read as. -/
def readAs (bytes : Bytes) : Attempt (List Entry × Option Bytes) := do
  match EntryList.decode bytes with
  | .error cause => throw (.unreadableTray cause)
  | .ok (entries, form) =>
    if form = .names then Attempt.note .oldFormRead
    return (entries, some bytes)

/-- What a round does once it has read. -/
def finishRound (budget : Nat) (key : String) (change : Change β) (left : Nat)
    (read : List Entry × Option Bytes) : Attempt β := do
  let (result, changed) ← Attempt.ofExcept (change read.1)
  if ← Attempt.compareAndSet key read.2 (EntryList.encode changed) then
    return result
  else
    Attempt.note .retrying
    changeWithin budget key change left

/-- What remains of a round when the value of the key is known. -/
def afterGet (budget : Nat) (key : String) (change : Change β) (left : Nat) :
    Except Outage (Option Bytes) → Program (Except Failure β)
  | .error outage => .done (.error (.outage outage.reason))
  | .ok none => (finishRound budget key change left ([], none)).run
  | .ok (some bytes) =>
    match EntryList.decode bytes with
    | .error cause => .done (.error (.unreadableTray cause))
    | .ok (list, .names) =>
      .act (.note .oldFormRead) fun _ => (finishRound budget key change left (list, some bytes)).run
    | .ok (list, .entries) => (finishRound budget key change left (list, some bytes)).run

/-- What remains of a round when the swap has been tried. -/
def afterSwap (budget : Nat) (key : String) (change : Change β) (left : Nat) (result : β) :
    Except Outage Bool → Program (Except Failure β)
  | .error outage => .done (.error (.outage outage.reason))
  | .ok true => .done (.ok result)
  | .ok false => .act (.note .retrying) fun _ => (changeWithin budget key change left).run

variable {budget : Nat} {key : String} {change : Change β} {left : Nat} {list changed : List Entry}
  {result : β}

theorem changeWithin_succ :
    changeWithin budget key change (left + 1) =
      load key >>= finishRound budget key change left := rfl

theorem run_changeWithin_succ :
    (changeWithin budget key change (left + 1)).run =
      .act (.call (.get key)) (afterGet budget key change left) := by
  refine congrArg (Program.act _) (funext fun answer => ?_)
  rcases answer with outage | _ | bytes
  · rfl
  · rfl
  · change (readAs bytes >>= finishRound budget key change left).run = _
    simp only [afterGet, readAs]
    rcases EntryList.decode bytes with cause | ⟨list, _ | _⟩ <;> rfl

theorem run_finishRound_error {version : Option Bytes} {failure : Failure}
    (refused : change list = .error failure) :
    (finishRound budget key change left (list, version)).run = .done (.error failure) := by
  simp only [finishRound, refused]
  rfl

theorem run_finishRound_ok {version : Option Bytes} (done : change list = .ok (result, changed)) :
    (finishRound budget key change left (list, version)).run =
      .act (.call (.compareAndSet key version (EntryList.encode changed)))
        (afterSwap budget key change left result) := by
  simp only [finishRound, done]
  refine congrArg (Program.act _) (funext fun answer => ?_)
  rcases answer with outage | _ | _ <;> rfl

/-- Why a change of a tray fails, given what the store was like when it was last read. -/
inductive Cause (budget : Nat) (key : String) (change : Change β) : Option Store → Failure → Prop
  /-- The change fails for the entries that were read. -/
  | refused {store : Store} {list : List Entry} {failure : Failure}
    (shown : store.cell key = .entries list) (refused : change list = .error failure) :
    Cause budget key change (some store) failure
  /-- What was read is no tray. -/
  | unreadable {store : Store} {bytes : Bytes} {cause : Json.Error}
    (found : store.get? key = some bytes) (refused : EntryList.decode bytes = .error cause) :
    Cause budget key change (some store) (.unreadableTray cause)
  /-- No round is left. -/
  | contended (seen : Option Store) : Cause budget key change seen (.contended key budget)

theorem Cause.exists_of_kind {seen : Option Store} {failure : Failure}
    (cause : Cause budget key change seen failure)
    (kind : failure.kind = .notFound ∨ failure.kind = .duplicateEntry) :
    ∃ store list, seen = some store ∧ store.cell key = .entries list ∧
      change list = .error failure := by
  cases cause with
  | refused shown refused => exact ⟨_, _, rfl, shown, refused⟩
  | unreadable | contended => simp [Failure.kind] at kind

/-- How far a change of a tray has come, and what the store was like when it was last read. -/
inductive Phase (budget : Nat) (key : String) (change : Change β) :
    Option Store → Program (Except Failure β) → Prop
  | reading (seen : Option Store) (left : Nat) :
    Phase budget key change seen (.act (.call (.get key)) (afterGet budget key change left))
  | announcing {store : Store} {list : List Entry} (left : Nat)
    (shown : store.cell key = .entries list) :
    Phase budget key change (some store) (.act (.note .oldFormRead) fun _ =>
      (finishRound budget key change left (list, store.get? key)).run)
  | swapping {store : Store} {list changed : List Entry} {result : β} (left : Nat)
    (shown : store.cell key = .entries list) (done : change list = .ok (result, changed)) :
    Phase budget key change (some store)
      (.act (.call (.compareAndSet key (store.get? key) (EntryList.encode changed)))
        (afterSwap budget key change left result))
  | retrying (seen : Option Store) (left : Nat) :
    Phase budget key change seen (.act (.note .retrying) fun _ =>
      (changeWithin budget key change left).run)
  | givingUp (seen : Option Store) :
    Phase budget key change seen (.act (.note .gaveUp) fun _ =>
      .done (.error (.contended key budget)))
  | succeeded (seen : Option Store) (result : β) :
    Phase budget key change seen (.done (.ok result))
  | failed {seen : Option Store} {failure : Failure}
    (cause : Cause budget key change seen failure) :
    Phase budget key change seen (.done (.error failure))

variable {seen : Option Store} {store : Store}

theorem phase_changeWithin (seen : Option Store) (left : Nat) :
    Phase budget key change seen (changeWithin budget key change left).run := by
  cases left with
  | zero => exact .givingUp seen
  | succ left =>
      rw [run_changeWithin_succ]
      exact .reading seen left

theorem phase_finishRound (left : Nat) (shown : store.cell key = .entries list) :
    Phase budget key change (some store)
      (finishRound budget key change left (list, store.get? key)).run := by
  cases done : change list with
  | error failure =>
      rw [run_finishRound_error done]
      exact .failed (.refused shown done)
  | ok pair =>
      rw [run_finishRound_ok done]
      exact .swapping left shown done

/-- Reading leads to the entries under the key, or to a failure if there is no tray. -/
theorem phase_afterGet (left : Nat) (isTray : Key.isTray key = true) (store : Store) :
    Phase budget key change (some store)
      (afterGet budget key change left (.ok (store.get? key))) := by
  cases found : store.get? key with
  | none =>
      have shown : store.cell key = .entries [] := by simp [Store.cell, isTray, found]
      have phase : Phase budget key change (some store)
          (finishRound budget key change left ([], store.get? key)).run :=
        phase_finishRound left shown
      rw [found] at phase
      exact phase
  | some bytes =>
      rcases decoded : EntryList.decode bytes with cause | ⟨list, form⟩
      · simp only [afterGet, decoded]
        exact .failed (.unreadable found decoded)
      · have shown : store.cell key = .entries list := by
          simp [Store.cell, isTray, found, decoded]
        cases form with
        | entries =>
            have phase : Phase budget key change (some store)
                (finishRound budget key change left (list, store.get? key)).run :=
              phase_finishRound left shown
            simp only [afterGet, decoded]
            rw [found] at phase
            exact phase
        | names =>
            have phase : Phase budget key change (some store) (.act (.note .oldFormRead) fun _ =>
                (finishRound budget key change left (list, store.get? key)).run) :=
              .announcing left shown
            simp only [afterGet, decoded]
            rw [found] at phase
            exact phase

theorem result?_finishRound_ne (left : Nat) (version : Option Bytes) :
    (finishRound budget key change left (list, version)).run.result? ≠ some (.ok result) := by
  cases done : change list with
  | error failure =>
      rw [run_finishRound_error done]
      rintro ⟨⟩
  | ok pair =>
      rw [run_finishRound_ok done]
      rintro ⟨⟩

theorem result?_afterGet_ne (left : Nat) (answer : Except Outage (Option Bytes)) :
    (afterGet budget key change left answer).result? ≠ some (.ok result) := by
  rcases answer with outage | _ | bytes
  · rintro ⟨⟩
  · exact result?_finishRound_ne left none
  · rcases decoded : EntryList.decode bytes with cause | ⟨list, _ | _⟩
    · simp only [afterGet, decoded]
      rintro ⟨⟩
    · simp only [afterGet, decoded]
      exact result?_finishRound_ne left (some bytes)
    · simp only [afterGet, decoded]
      rintro ⟨⟩

theorem result?_changeWithin_ne (left : Nat) :
    (changeWithin budget key change left).run.result? ≠ some (.ok result) := by
  cases left with
  | zero => rintro ⟨⟩
  | succ left =>
      rw [run_changeWithin_succ]
      rintro ⟨⟩

/-- A change that has failed has a cause. -/
theorem Phase.cause {p : Program (Except Failure β)} {failure : Failure}
    (phase : Phase budget key change seen p) (failed : p.result? = some (.error failure)) :
    Cause budget key change seen failure := by
  cases phase with
  | failed cause =>
      cases failed
      exact cause
  | succeeded => cases Option.some.inj failed
  | reading | announcing | swapping | retrying | givingUp => cases failed

/-- What an action does to the store and to the change it belongs to, which may have ended with the
action. -/
inductive Effect (key : String) (change : Change β) (before after : Store) (swapped : Bool)
    (ended : Option (Except Failure β)) : Prop
  /-- It leaves the store as it is, and the change has not succeeded. -/
  | quiet (same : after = before) (not_swapped : swapped = false)
    (unfinished : ∀ result, ended ≠ some (.ok result))
  /-- It applies the change to the entries under the key, and the change has succeeded. -/
  | applied (list changed : List Entry) (result : β) (is_swapped : swapped = true)
    (finished : ended = some (.ok result)) (shown : before.cell key = .entries list)
    (done : change list = .ok (result, changed))
    (cells : after.cell = Function.update before.cell key (.entries changed))

/-- Each action leads from one phase to another, and changes the store only by applying the change
to what is there. -/
theorem Phase.step {action : Action} {next : action.Answer → Program (Except Failure β)}
    (phase : Phase budget key change seen (.act action next)) (isTray : Key.isTray key = true)
    (keeps : change.KeepsLinks) (around : Surroundings) (world : World) :
    Phase budget key change (action.sees world.store seen)
        (next (World.answer around action world).1) ∧
      Effect key change world.store (World.answer around action world).2.store
        (action.swaps (World.answer around action world).1)
        (next (World.answer around action world).1).result? := by
  cases phase with
  | reading seen left =>
      exact ⟨phase_afterGet left isTray world.store,
        .quiet rfl rfl fun _ => result?_afterGet_ne left _⟩
  | announcing left shown =>
      exact ⟨phase_finishRound left shown, .quiet rfl rfl fun _ => result?_finishRound_ne left _⟩
  | @swapping store list changed result left shown done =>
      by_cases same : world.store.get? key = store.get? key
      · -- What is stored is what was read, though it may have changed twice in between.
        have now_shown : world.store.cell key = .entries list := (Store.cell_congr same).trans shown
        have well := keeps list result changed (Store.wellLinked_of_cell_eq_entries shown) done
        let after : Store := world.store.insert key (EntryList.encode changed)
        have swapped : World.answer around
            (.call (.compareAndSet key (store.get? key) (EntryList.encode changed))) world =
              (.ok true, { world with store := after }) := by
          simp [World.answer, Store.perform, same, after]
        rw [swapped]
        exact ⟨.succeeded _ result, .applied list changed result rfl rfl now_shown done
          (Store.cell_insert_encode world.store isTray well)⟩
      · have lost : World.answer around
            (.call (.compareAndSet key (store.get? key) (EntryList.encode changed))) world =
              (.ok false, world) := by
          simp [World.answer, Store.perform, same]
        rw [lost]
        exact ⟨.retrying _ left, .quiet rfl rfl (by simp [afterSwap, Program.result?])⟩
  | retrying seen left =>
      exact ⟨phase_changeWithin _ left, .quiet rfl rfl fun _ => result?_changeWithin_ne left⟩
  | givingUp seen =>
      exact ⟨.failed (.contended _), .quiet rfl rfl (by simp [Program.result?])⟩

end Trays
end Handoff
