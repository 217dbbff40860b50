import Handoff.Proofs.Backing.Steps
import Handoff.Proofs.Pairing.Community
import Handoff.Proofs.Workflow.Operation

/-!
# Workflows that leave every entry its record

Whatever a workflow does from a consistent world, each of its writes is made in an order in which no
entry is without its record.  If writes may fail, this goes for the workflows that are undone, up to
the last action of the undoing.
-/

namespace Handoff

/-- A world in which an operation may begin. -/
structure World.Consistent (community : Community) (around : Surroundings)
    (listed : Set (String × TaskId)) (recorded : Set TaskId) (world : World) : Prop where
  sound : world.scene.Sound community listed recorded
  /-- A task is listed under one key. -/
  one_place : ∀ key other task, (key, task) ∈ listed → (other, task) ∈ listed → key = other
  /-- A link leads to another task that is listed with the user of the link. -/
  linked : ∀ user tray list entry link, community.member user →
    world.store.cell (Key.tray user tray) = .entries list → entry ∈ list →
    entry.link = some link → link.task ≠ entry.task ∧ community.member link.user ∧
      ∃ place, (Key.tray link.user place, link.task) ∈ listed
  named : ∀ key task, (key, task) ∈ listed → task ≠ ""
  /-- Names that have not been given out are not in use. -/
  unused : ∀ n, world.issued ≤ n → around.newTaskId n ∉ recorded

variable {community : Community} {conditions : Conditions} {listed : Set (String × TaskId)}
  {recorded : Set TaskId} {world : World} {user : UserId} {tray : Tray} {entry : Entry}
  {task : TaskId} {budget : Nat} {noted : List Undo} {list : List Entry} {link : Link}

namespace World.Consistent

variable {around : Surroundings}

theorem mem_listed (consistent : world.Consistent community around listed recorded)
    (shown : world.store.cell (Key.tray user tray) = .entries list) (mem : entry ∈ list) :
    (Key.tray user tray, entry.task) ∈ listed :=
  (consistent.sound.mem_listed_iff shown).mpr (List.mem_map_of_mem mem)

theorem supported (consistent : world.Consistent community around listed recorded)
    (member : community.member user)
    (shown : world.store.cell (Key.tray user tray) = .entries list) (mem : entry ∈ list) :
    entry.Supported community recorded user where
  member := member
  own := consistent.sound.backed _ _ (consistent.mem_listed shown mem)
  other link linked := by
    have leads := consistent.linked user tray list entry link member shown mem linked
    obtain ⟨_, _, place, there⟩ := leads
    exact consistent.sound.backed _ _ there
  well := Store.wellLinked_of_cell_eq_entries shown entry mem

/-- The task on the other side of a link is listed in one tray of the user of the link only. -/
theorem exists_place (consistent : world.Consistent community around listed recorded)
    (member : community.member user)
    (shown : world.store.cell (Key.tray user tray) = .entries list) (mem : entry ∈ list)
    (linked : entry.link = some link) :
    ∃ place, ∀ key, (key, link.task) ∈ listed → key = Key.tray link.user place := by
  obtain ⟨_, _, place, here⟩ := consistent.linked user tray list entry link member shown mem linked
  exact ⟨place, fun key there => consistent.one_place _ _ _ there here⟩

/-- Once its entry is gone, a task is listed nowhere. -/
theorem unlisted_of_removed (consistent : world.Consistent community around listed recorded)
    {key : String} (there : (key, task) ∈ listed) (other : String) :
    (other, task) ∉ listed \ {(key, task)} :=
  Scene.unlisted_of_only (fun _ here => consistent.one_place _ _ _ here there) there other

end World.Consistent

/-- An attempt that makes each of its writes in an order in which no entry is without its record. -/
abbrev Attempt.Backs {α : Type} (community : Community) (conditions : Conditions)
    (attempt : Attempt α) (world : World) : Prop :=
  Ensures (.under conditions) (Store.Sequel community) (fun _ _ => True) (fun _ => True) attempt
    world

namespace Workflow

variable {policy : Policy}

/-! ## Making tasks -/

theorem backs_add
    (consistent : world.Consistent community conditions.around listed recorded)
    (member : community.member user) (message description : String) (origin : Option String) :
    Attempt.Backs community conditions (add policy user message description origin) world := by
  have sound : Scene.Sound community listed recorded
      (World.scene { world with issued := world.issued + 1 }) := consistent.sound.issue
  have unlisted := sound.not_mem_listed (consistent.unused world.issued le_rfl)
  have named := Task.originNamed_create (conditions.around.newTaskId world.issued) world.clock
    message description origin
  apply Undoable.ensures_settle
  apply Undoable.ensures_step_bind
  apply Attempt.ensures_newTaskId
  apply Undoable.ensures_step_bind
  apply Attempt.ensures_now
  apply Undoable.ensures_step_bind
  apply sound.ensures_save named (undoes_nil _ sound)
  intro saved saved_sound
  apply Undoable.ensures_note_bind
  apply Undoable.ensures_step_bind
  apply saved_sound.ensures_append (Entry.supported_unlinked member (Set.mem_insert _ _))
  · exact undoes_deleteRecord unlisted undoes_nil undoes_nil _ saved_sound
  intro listing _ _
  apply Undoable.ensures_step_bind
  apply Attempt.ensures_note
  trivial

theorem backs_send (fresh : conditions.around.Fresh)
    (consistent : world.Consistent community conditions.around listed recorded)
    {sender receiver : UserId} (sender_member : community.member sender)
    (receiver_member : community.member receiver) (message description : String)
    (origin : Option String) :
    Attempt.Backs community conditions
      (send policy sender receiver message description origin) world := by
  have sound : Scene.Sound community listed recorded
      (World.scene { world with issued := world.issued + 1 + 1 }) := consistent.sound.issue.issue
  have unlisted := sound.not_mem_listed (consistent.unused world.issued le_rfl)
  have copy_unlisted := sound.not_mem_listed (consistent.unused (world.issued + 1) (Nat.le_succ _))
  have named (n : Nat) := Task.originNamed_create (conditions.around.newTaskId n) world.clock
    message description origin
  have copy_named := Task.originNamed_create (conditions.around.newTaskId (world.issued + 1))
    world.clock message description (Task.namedOrigin origin)
  -- Until the first entry is put in, the two records are listed nowhere.
  have undo_first (stored : Set TaskId) : Undoes community conditions policy.budget
      [.deleteRecord (conditions.around.newTaskId world.issued)] listed stored :=
    undoes_deleteRecord unlisted undoes_nil undoes_nil
  have undo_both (stored : Set TaskId) : Undoes community conditions policy.budget
      ([.deleteRecord (conditions.around.newTaskId world.issued)] ++
        [.deleteRecord (conditions.around.newTaskId (world.issued + 1))]) listed stored :=
    undoes_deleteRecord copy_unlisted (undo_first _) (undo_first _)
  apply Undoable.ensures_settle
  apply Undoable.ensures_step_bind
  apply Attempt.ensures_newTaskId
  apply Undoable.ensures_step_bind
  apply Attempt.ensures_now
  apply Undoable.ensures_step_bind
  apply Attempt.ensures_newTaskId
  apply Undoable.ensures_step_bind
  apply Attempt.ensures_now
  apply Undoable.ensures_step_bind
  apply sound.ensures_save (named _) (undoes_nil _ sound)
  intro saved saved_sound
  apply Undoable.ensures_note_bind
  apply Undoable.ensures_step_bind
  apply saved_sound.ensures_save copy_named (undo_first _ _ saved_sound)
  intro copied copied_sound
  apply Undoable.ensures_note_bind
  apply Undoable.ensures_step_bind
  apply copied_sound.ensures_append
  · exact Entry.supported_linked sender_member receiver_member (fresh.named _) (.inr (.inl rfl))
      (.inl rfl)
  · exact undo_both _ _ copied_sound
  intro sent sent_sound writes
  apply Undoable.ensures_note_bind
  apply Undoable.ensures_step_bind
  apply sent_sound.ensures_append
  · exact Entry.supported_linked receiver_member sender_member (fresh.named _) (.inl rfl)
      (.inr (.inl rfl))
  · exact undoes_takeOut_new writes (unlisted _) (undo_both _) _ sent_sound
  intro received _ _
  apply Undoable.ensures_step_bind
  apply Attempt.ensures_note
  trivial

/-- The entry is put into the owned tray before it is taken out of the received tray. -/
theorem backs_accept
    (consistent : world.Consistent community conditions.around listed recorded)
    (member : community.member user) :
    Attempt.Backs community conditions (accept policy user task) world := by
  apply Attempt.Ensures.bind
  apply Trays.ensures_find? trivial
  case absent => exact fun _ _ _ => Attempt.ensures_throw trivial
  intro list entry position shown first
  have supported := consistent.supported member shown (EntryList.mem_of_find? first)
  apply Attempt.Ensures.bind
  apply Records.ensures_load trivial
  intro bytes content _ _
  apply Attempt.Ensures.bind
  apply Undoable.ensures_settle
  apply Undoable.ensures_step_bind
  apply consistent.sound.ensures_append supported
  · exact undoes_nil _ consistent.sound
  intro both both_sound writes
  apply Undoable.ensures_note_bind
  apply Undoable.ensures_step_bind
  apply both_sound.ensures_remove
  · exact fun _ => undoes_takeOut writes (Set.mem_insert _ _) undoes_nil _ both_sound
  intro taken after _ _ _ _
  apply Undoable.ensures_pure
  apply Attempt.Ensures.bind
  apply Attempt.ensures_note
  exact Attempt.ensures_pure trivial

/-! ## Finishing tasks -/

/-- Each record is dropped after its entry, if the task of the other side is listed in one tray at
most. -/
theorem backs_cleanUp (free : ∀ key, conditions.barred key = false)
    (sound : world.scene.Sound community listed recorded)
    (unlisted : ∀ key, (key, entry.task) ∉ listed)
    (confined : ∀ link, entry.link = some link →
      ∃ place, ∀ key, (key, link.task) ∈ listed → key = Key.tray link.user place) :
    (cleanUp budget user entry).Ensures (.under conditions) (Store.Sequel community)
      (fun _ _ => True) world := by
  apply ensures_cleanUp
  apply sound.ensures_dropRecord unlisted
  intro own after left sound
  cases linked : entry.link with
  | none => trivial
  | some link =>
      obtain ⟨place, only⟩ := confined link linked
      apply ensures_cleanUpOther trivial
      · intro absent
        apply sound.ensures_dropRecord
        · obtain ⟨list, shown, missing⟩ := absent place
          exact sound.unlisted_of_absent only shown missing
        · exact fun _ _ _ _ => trivial
      · intro located list shown first _
        have there := sound.mem_listed_of_find? shown first
        apply Attempt.Ensures.recover
        apply sound.ensures_remove
        · intro spoils
          have served (request : Call) : ¬(Service.under conditions).refuses request := by
            simp [Service.under, free]
          exact absurd spoils (sound.not_spoils there fun request _ => served request)
        · intro other later _ _ _ later_sound
          apply later_sound.ensures_dropRecord
          · exact Scene.unlisted_of_only only there
          · exact fun _ _ _ _ => trivial

theorem backs_cleanUp_of_removed (free : ∀ key, conditions.barred key = false)
    (consistent : world.Consistent community conditions.around listed recorded)
    (member : community.member user)
    (shown : world.store.cell (Key.tray user tray) = .entries list) (mem : entry ∈ list)
    {after : World}
    (sound : after.scene.Sound community (listed \ {(Key.tray user tray, entry.task)}) recorded) :
    (cleanUp budget user entry).Ensures (.under conditions) (Store.Sequel community)
      (fun _ _ => True) after := by
  apply backs_cleanUp free sound (consistent.unlisted_of_removed (consistent.mem_listed shown mem))
  intro link linked
  obtain ⟨place, only⟩ := consistent.exists_place member shown mem linked
  exact ⟨place, fun key there => only key there.1⟩

theorem backs_takeOut (free : ∀ key, conditions.barred key = false)
    (consistent : world.Consistent community conditions.around listed recorded)
    (member : community.member user) (event : Event) :
    Attempt.Backs community conditions (takeOut policy user task event) world := by
  apply Attempt.Ensures.bind
  apply ensures_locate trivial
  intro located list shown first
  obtain rfl := EntryList.task_eq_of_find? first
  apply Attempt.Ensures.bind
  apply consistent.sound.ensures_remove fun _ => trivial
  intro entry after _ _ _ sound
  apply Attempt.Ensures.bind
  apply Attempt.ensures_lift
  apply (backs_cleanUp_of_removed free consistent member shown (EntryList.mem_of_find? first)
    sound).mono
  intro cleanup last _
  apply Attempt.Ensures.bind
  apply Attempt.ensures_note
  exact Attempt.ensures_pure trivial

theorem backs_pop (free : ∀ key, conditions.barred key = false)
    (consistent : world.Consistent community conditions.around listed recorded)
    (member : community.member user) :
    Attempt.Backs community conditions (pop policy user) world := by
  apply Attempt.Ensures.bind
  apply Trays.ensures_pop fun _ => trivial
  intro first rest after shown left
  have removed : world.scene.Removed user .owned first after.scene := by
    refine ⟨first :: rest, shown, by simp [EntryList.find?], ?_⟩
    simpa [EntryList.erase] using left
  have sound := consistent.sound.removed removed
  refine ⟨sound.sequel_put shown left (List.subset_cons_self _ _), ?_⟩
  apply Attempt.Ensures.bind
  apply Attempt.ensures_lift
  apply (backs_cleanUp_of_removed free consistent member shown List.mem_cons_self sound).mono
  intro cleanup last _
  apply Attempt.Ensures.bind
  apply Attempt.ensures_note
  exact Attempt.ensures_pure trivial

/-! ## Bumping and editing -/

theorem backs_bump (consistent : world.Consistent community conditions.around listed recorded) :
    Attempt.Backs community conditions (bump policy user task) world := by
  apply Attempt.Ensures.bind
  apply Trays.ensures_find? trivial
  case absent => exact fun _ _ _ => Attempt.ensures_throw trivial
  intro list entry position shown first
  cases linked : entry.link with
  | none =>
      simp only [linked]
      exact Attempt.ensures_throw trivial
  | some link =>
      simp only [linked]
      apply Attempt.Ensures.bind
      apply consistent.sound.ensures_bump trivial
      intro after _
      apply Attempt.Ensures.bind
      apply Attempt.ensures_lift
      apply ensures_messageOfEither
      intro message
      apply Attempt.Ensures.bind
      apply Attempt.ensures_note
      exact Attempt.ensures_pure trivial

theorem ensures_revise_of_sound {message description : String} {good : String → World → Prop}
    {bad : World → Prop} (sound : world.scene.Sound community listed recorded)
    (failing : bad world)
    (goes : ∀ message after stored, after.scene.Sound community listed stored →
      good message after) :
    Attempt.Ensures (.under conditions) (Store.Sequel community) good bad
      (revise task message description) world := by
  apply ensures_revise failing
  intro bytes old after _ decoded saved
  have later := sound.saved ((Task.originNamed_of_decode decoded).withContent message description)
  rw [← saved] at later
  exact ⟨later.sequel_putRecord saved, goes _ after _ later⟩

theorem backs_edit (consistent : world.Consistent community conditions.around listed recorded)
    (message description : String) :
    Attempt.Backs community conditions (edit user task message description) world := by
  apply Attempt.Ensures.bind
  apply ensures_locate trivial
  intro located list _ _
  apply Attempt.Ensures.bind
  apply ensures_revise_of_sound consistent.sound trivial
  intro previous after stored sound
  apply Attempt.Ensures.bind
  apply Attempt.ensures_lift
  cases located.entry.link with
  | none => exact Program.ensures_pure (Attempt.ensures_pure trivial)
  | some link =>
      apply Attempt.Ensures.recover
      apply ensures_revise_of_sound sound
      · exact fun _ => Program.ensures_note (Attempt.ensures_pure trivial)
      · exact fun _ _ _ _ => Program.ensures_pure (Attempt.ensures_pure trivial)

end Workflow
end Handoff
