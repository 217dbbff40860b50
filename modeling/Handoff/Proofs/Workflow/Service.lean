import Handoff.Proofs.Stored.Service
import Handoff.Workflow.Bump
import Handoff.Workflow.Edit

/-!
# What the parts of workflows ensure

Whatever follows the write that decides is done as far as possible: a part of it that fails has
changed nothing and is passed over.
-/

namespace Handoff.Workflow

variable {service : Service} {step : Store → Store → Prop} {world : World} {bad : World → Prop}
  {budget : Nat} {user : UserId} {task : TaskId} {link : Link}

theorem ensures_locate {good : Located → World → Prop} (failing : bad world)
    (found : ∀ located list, world.store.cell (Key.tray user located.tray) = .entries list →
      EntryList.find? task list = some located.entry → good located world) :
    Attempt.Ensures service step good bad (locate user task) world := by
  apply Attempt.Ensures.bind
  apply Trays.ensures_locate? failing
  · exact fun located list shown first => Attempt.ensures_pure (found located list shown first)
  · exact fun _ => Attempt.ensures_throw failing

theorem ensures_dropRecord {ends : Option Task → World → Prop} (kept : ends none world)
    (dropped : ∀ content after, after.scene = world.scene.discard task →
      step world.store after.store ∧ ends (some content) after) :
    (dropRecord task).Ensures service step ends world := by
  apply Attempt.Ensures.recover
  apply Records.ensures_take
  · exact fun failure => Program.Ensures.bind (Program.ensures_note kept)
  · exact dropped

theorem ensures_dropEntry {tray : Tray} {ends : Unit → World → Prop}
    (kept : service.Spoils world (Key.tray link.user tray) (.remove link.user tray link.task) →
      ends () world)
    (dropped : ∀ entry after, entry.task = link.task →
      world.scene.Removed link.user tray entry after.scene →
      step world.store after.store ∧ ends () after) :
    (dropEntry budget link tray).Ensures service step ends world := by
  apply Attempt.Ensures.recover
  apply Trays.ensures_remove
  · exact fun spoils failure => Program.ensures_note (kept spoils)
  · exact fun entry after same _ removed _ => dropped entry after same removed

/-- The other side is left alone, or its record has no entry, or its entry is linked back. -/
theorem ensures_cleanUpOther {ends : Option Tray × Option Task → World → Prop}
    (stays : ends (none, none) world)
    (gone : (∀ tray, ∃ list, world.store.cell (Key.tray link.user tray) = .entries list ∧
        EntryList.find? link.task list = none) →
      (dropRecord link.task).Ensures service step (fun content => ends (none, content)) world)
    (linked : ∀ (located : Located) list,
      world.store.cell (Key.tray link.user located.tray) = .entries list →
      EntryList.find? link.task list = some located.entry →
      located.entry.linksTo user task = true →
      (dropEntry budget link located.tray).Ensures service step
        (fun _ after => (dropRecord link.task).Ensures service step
          (fun content => ends (some located.tray, content)) after) world) :
    (cleanUpOther budget user task link).Ensures service step ends world := by
  apply Attempt.Ensures.recover
  apply Trays.ensures_locate?
  · exact fun failure => Program.Ensures.bind (Program.ensures_note stays)
  · intro located list shown first
    dsimp only
    split
    · rename_i back
      apply Program.Ensures.bind
      apply (linked located list shown first back).mono
      exact fun _ _ drops => Program.Ensures.bind drops
    · exact Program.Ensures.bind (Program.ensures_note stays)
  · intro absent
    apply Program.Ensures.bind
    apply Program.ensures_note
    exact Program.Ensures.bind (gone absent)

/-- The user's record goes first, and then the other side. -/
theorem ensures_cleanUp {entry : Entry} {ends : Cleanup → World → Prop}
    (drops : (dropRecord entry.task).Ensures service step (fun own after => match entry.link with
      | none => ends ⟨own, none, none⟩ after
      | some link => (cleanUpOther budget user entry.task link).Ensures service step
          (fun other => ends ⟨own.or other.2, some link.user, other.1⟩) after) world) :
    (cleanUp budget user entry).Ensures service step ends world := by
  apply Program.Ensures.bind
  apply drops.mono
  intro own after known
  cases linked : entry.link with
  | none =>
      simp only [linked] at known
      exact known
  | some link =>
      simp only [linked] at known
      exact Program.Ensures.bind known

theorem ensures_messageOfEither {receiverTask senderTask : TaskId}
    {ends : Option String → World → Prop} (told : ∀ message, ends message world) :
    (messageOfEither receiverTask senderTask).Ensures service step ends world := by
  apply Attempt.Ensures.recover
  apply Records.ensures_load
  · intro _
    apply Program.Ensures.bind
    apply Program.ensures_note
    apply Attempt.Ensures.recover
    apply Records.ensures_load
    · exact fun _ => Program.Ensures.bind (Program.ensures_note (told none))
    · exact fun _ content _ _ => told (some content.message)
  · exact fun _ content _ _ => told (some content.message)

theorem ensures_revise {message description : String} {good : String → World → Prop}
    (failing : bad world)
    (revised : ∀ bytes old after, world.store.get? (Key.record task) = some bytes →
      Task.decode bytes = .ok old →
      after.scene = world.scene.save (old.withContent message description) →
      step world.store after.store ∧ good old.message after) :
    Attempt.Ensures service step good bad (revise task message description) world := by
  apply Attempt.Ensures.bind
  apply Records.ensures_load failing
  intro bytes old found decoded
  apply Attempt.Ensures.bind
  apply Records.ensures_save fun _ => failing
  intro after saved _
  obtain ⟨moves, known⟩ := revised bytes old after found decoded saved
  exact ⟨moves, Attempt.ensures_pure known⟩

end Handoff.Workflow
