import Handoff.Proofs.Backing.Workflows

/-!
# Assigning leaves every entry its record

A task is taken from its assignee before it is handed on, and the record that has lost its entry is
dropped last.  What has been taken out can be put back at any time, as the records stay until then.
-/

namespace Handoff

variable {community : Community} {conditions : Conditions} {listed : Set (String × TaskId)}
  {recorded : Set TaskId} {world : World} {user : UserId} {tray : Tray} {entry : Entry}
  {task : TaskId} {budget : Nat} {noted : List Undo} {list : List Entry} {link : Link}

/-- The noted actions can be undone as long as these records are stored. -/
def Retreats (community : Community) (conditions : Conditions) (budget : Nat) (stored : Set TaskId)
    (noted : List Undo) : Prop :=
  ∀ listed recorded, stored ⊆ recorded →
    Undoes community conditions budget noted listed recorded

theorem retreats_nil (stored : Set TaskId) : Retreats community conditions budget stored [] :=
  fun _ _ _ => undoes_nil

namespace Retreats

variable {stored : Set TaskId}

theorem putBack (retreats : Retreats community conditions budget stored noted)
    (supported : entry.Supported community stored user) :
    Retreats community conditions budget stored (noted ++ [.putBack user tray entry]) :=
  fun _ _ subset => undoes_putBack (supported.mono subset) (retreats _ _ subset)
    (retreats _ _ subset)

theorem deleteRecord (retreats : Retreats community conditions budget stored noted)
    (new : task ∉ stored) (subset : stored ⊆ recorded) (unlisted : ∀ key, (key, task) ∉ listed) :
    Undoes community conditions budget (noted ++ [.deleteRecord task]) listed recorded := by
  apply undoes_deleteRecord unlisted (retreats _ _ subset)
  apply retreats
  intro other mem
  refine ⟨subset mem, fun same => new ?_⟩
  rwa [← Set.mem_singleton_iff.mp same]

theorem takeOut (retreats : Retreats community conditions budget stored noted)
    (new : task ∉ stored) (subset : stored ⊆ recorded)
    (writes : (Service.under conditions).Writes (Key.tray user tray))
    (there : (Key.tray user tray, task) ∈ listed)
    (only : ∀ key, (key, task) ∈ listed → key = Key.tray user tray) :
    Undoes community conditions budget (noted ++ [.deleteRecord task] ++ [.takeOut user tray task])
      listed recorded := by
  apply undoes_takeOut writes there
  exact retreats.deleteRecord new subset (Scene.unlisted_of_only only there)

end Retreats

/-- A workflow leaves every entry its record, and so does undoing it wherever it fails. -/
abbrev Undoable.Backs {α : Type} (community : Community) (conditions : Conditions) (budget : Nat)
    (good : α → List Undo → World → Prop) (workflow : Undoable α) (noted : List Undo)
    (world : World) : Prop :=
  Ensures (.under conditions) (Store.Sequel community) good
    (fun noting => (Undo.applyEach budget noting.reverse).Ensures (.under conditions)
      (Store.Sequel community) fun _ _ => True) workflow noted world

namespace Workflow

variable {policy : Policy}

/-- The entry of the previous assignee is gone, if this is told, and can be put back. -/
theorem ensures_withdraw {good : Bool → List Undo → World → Prop}
    {bad : List Undo → World → Prop}
    (consistent : world.Consistent community conditions.around listed recorded)
    (member : community.member user)
    (shown : world.store.cell (Key.tray user tray) = .entries list) (mem : entry ∈ list)
    (linked : entry.link = some link) (failing : bad [] world)
    (goes : ∀ orphaned noted after left, after.scene.Sound community left recorded →
      (orphaned = true → ∀ key, (key, link.task) ∉ left) →
      Retreats community conditions policy.budget recorded noted → after.issued = world.issued →
      good orphaned noted after) :
    Undoable.Ensures (.under conditions) (Store.Sequel community) good bad
      (withdraw policy user task link) [] world := by
  obtain ⟨place, only⟩ := consistent.exists_place member shown mem linked
  have link_member := (consistent.linked user tray list entry link member shown mem linked).2.1
  apply Undoable.ensures_step_bind
  apply Trays.ensures_locate? failing
  · intro located others others_shown first
    have there := consistent.sound.mem_listed_of_find? others_shown first
    dsimp only
    split
    · apply Undoable.ensures_step_bind
      apply consistent.sound.ensures_remove fun _ => failing
      intro taken after _ _ removed sound
      apply Undoable.ensures_note_bind
      apply Undoable.ensures_pure
      apply goes true _ after _ sound
      · exact fun _ => Scene.unlisted_of_only only there
      · exact (retreats_nil recorded).putBack
          (consistent.supported link_member others_shown (EntryList.mem_of_find? first))
      · exact removed.issued_eq
    · apply Undoable.ensures_step_bind
      apply Attempt.ensures_note
      apply Undoable.ensures_pure
      exact goes false [] world listed consistent.sound
        (fun told => absurd told Bool.false_ne_true) (retreats_nil _) rfl
  · intro absent
    apply Undoable.ensures_step_bind
    apply Attempt.ensures_note
    apply Undoable.ensures_pure
    obtain ⟨others, others_shown, missing⟩ := absent place
    have unlisted := consistent.sound.unlisted_of_absent only others_shown missing
    exact goes true [] world listed consistent.sound (fun _ => unlisted) (retreats_nil _) rfl

/-- All that is listed apart from a task and from new tasks was listed before. -/
def AlreadyListed (task : TaskId) (listed : Set (String × TaskId)) (recorded : Set TaskId)
    (left : Set (String × TaskId)) : Prop :=
  ∀ key other, (key, other) ∈ left → other ∈ recorded → other ≠ task → (key, other) ∈ listed

theorem ensures_takeBack {good : Unit → List Undo → World → Prop} {located : Located}
    (sound : world.scene.Sound community listed recorded)
    (retreats : Retreats community conditions policy.budget recorded noted)
    (supported : located.entry.Supported community recorded user)
    (goes : ∀ noting after left stored, after.scene.Sound community left stored →
      AlreadyListed located.entry.task listed recorded left → good () noting after) :
    Undoable.Backs community conditions policy.budget good
      (takeBack policy user located) noted world := by
  apply Undoable.ensures_step_bind
  apply sound.ensures_remove fun _ => retreats _ _ subset_rfl _ sound
  intro taken after _ _ _ taken_sound
  apply Undoable.ensures_note_bind
  apply Undoable.ensures_step
  apply taken_sound.ensures_append (Entry.supported_unlinked supported.member supported.own)
  · exact retreats.putBack supported _ _ subset_rfl _ taken_sound
  intro put put_sound _
  apply goes _ put _ _ put_sound
  rintro key other (new | old) _ differs
  · cases new
    exact absurd rfl differs
  · exact old.1

theorem ensures_handOver {good : Unit → List Undo → World → Prop} {located : Located}
    {assignee : UserId} {content : Task} (fresh : conditions.around.Fresh)
    (sound : world.scene.Sound community listed recorded)
    (unused : conditions.around.newTaskId world.issued ∉ recorded)
    (retreats : Retreats community conditions policy.budget recorded noted)
    (supported : located.entry.Supported community recorded user)
    (assignee_member : community.member assignee) (own : content.id = located.entry.task)
    (named : located.entry.task ≠ "")
    (goes : ∀ noting after left stored, after.scene.Sound community left stored →
      AlreadyListed located.entry.task listed recorded left → good () noting after) :
    Undoable.Backs community conditions policy.budget good
      (handOver policy user assignee content located) noted world := by
  have issued : Scene.Sound community listed recorded
      (World.scene { world with issued := world.issued + 1 }) := sound.issue
  have unlisted := sound.not_mem_listed unused
  have differs : located.entry.task ≠ conditions.around.newTaskId world.issued :=
    fun same => unused (same ▸ supported.own)
  have grows : recorded ⊆ insert (conditions.around.newTaskId world.issued) recorded :=
    Set.subset_insert _ _
  apply Undoable.ensures_step_bind
  apply Attempt.ensures_newTaskId
  apply Undoable.ensures_step_bind
  apply Attempt.ensures_now
  apply Undoable.ensures_step_bind
  apply issued.ensures_save (Task.originNamed_create _ _ _ _ _)
  · exact retreats _ _ subset_rfl _ issued
  intro saved saved_sound
  apply Undoable.ensures_note_bind
  apply Undoable.ensures_step_bind
  apply saved_sound.ensures_append
  · exact Entry.supported_linked assignee_member supported.member (own ▸ named) (.inl rfl)
      (.inr (own ▸ supported.own))
  · exact retreats.deleteRecord unused grows unlisted _ saved_sound
  intro given given_sound writes
  have only (key : String) (there : (key, conditions.around.newTaskId world.issued) ∈
      insert (Key.tray assignee .received, conditions.around.newTaskId world.issued) listed) :
      key = Key.tray assignee .received := by
    rcases there with new | old
    · exact congrArg Prod.fst new
    · exact absurd old (unlisted key)
  apply Undoable.ensures_note_bind
  apply Undoable.ensures_step_bind
  apply given_sound.ensures_remove
  · exact fun _ =>
      retreats.takeOut unused grows writes (Set.mem_insert _ _) only _ given_sound
  intro taken after _ _ _ taken_sound
  have still : (Key.tray assignee .received, conditions.around.newTaskId world.issued) ∈
      insert (Key.tray assignee .received, conditions.around.newTaskId world.issued) listed \
        {(Key.tray user located.tray, content.id)} := by
    refine ⟨Set.mem_insert _ _, fun same => differs ?_⟩
    exact (own.symm.trans (congrArg Prod.snd same).symm)
  apply Undoable.ensures_note_bind
  apply Undoable.ensures_step
  apply taken_sound.ensures_append
  · exact Entry.supported_linked supported.member assignee_member (fresh.named _)
      (.inr (own ▸ supported.own)) (.inl rfl)
  · apply undoes_putBack (supported.mono grows) _ _ _ taken_sound
    · exact retreats.takeOut unused grows writes still fun key there => only key there.1
    · apply retreats.takeOut unused grows writes (.inr still)
      rintro key (back | there)
      · exact absurd (congrArg Prod.snd back).symm differs
      · exact only key there.1
  intro handed handed_sound _
  apply goes _ handed _ _ handed_sound
  rintro key other (sent | ⟨new | old, _⟩) stored apart
  · cases sent
    exact absurd own apart
  · cases new
    exact absurd stored unused
  · exact old

/-- A record that is told to have lost its entry is listed nowhere. -/
def Orphaned (community : Community) (link : Option Link) (orphaned : Bool) (world : World) :
    Prop :=
  ∃ listed recorded, world.scene.Sound community listed recorded ∧
    (orphaned = true → ∀ left, link = some left → ∀ key, (key, left.task) ∉ listed)

/-- The task goes to the next assignee after the previous one has lost it. -/
theorem ensures_moveTo {located : Located} {assignee : UserId} {content : Task}
    (fresh : conditions.around.Fresh)
    (consistent : world.Consistent community conditions.around listed recorded)
    (member : community.member user) (assignee_member : community.member assignee)
    (shown : world.store.cell (Key.tray user located.tray) = .entries list)
    (mem : located.entry ∈ list) (own : content.id = located.entry.task) :
    Undoable.Backs community conditions policy.budget
      (fun orphaned _ => Orphaned community located.entry.link orphaned)
      (moveTo policy user assignee content located) [] world := by
  have supported := consistent.supported member shown mem
  have named := consistent.named _ _ (consistent.mem_listed shown mem)
  have moving (orphaned : Bool) (noted : List Undo) (after : World) (left : Set (String × TaskId))
      (sound : after.scene.Sound community left recorded)
      (unlisted : orphaned = true → ∀ link, located.entry.link = some link →
        ∀ key, (key, link.task) ∉ left)
      (retreats : Retreats community conditions policy.budget recorded noted)
      (issued : after.issued = world.issued) :
      Undoable.Backs community conditions policy.budget
        (fun orphaned _ => Orphaned community located.entry.link orphaned)
        (do
          if assignee = user then takeBack policy user located
          else handOver policy user assignee content located
          return orphaned) noted after := by
    have goes (noting : List Undo) (last : World) (final : Set (String × TaskId))
        (stored : Set TaskId) (final_sound : last.scene.Sound community final stored)
        (moved : AlreadyListed located.entry.task left recorded final) :
        Orphaned community located.entry.link orphaned last := by
      refine ⟨final, stored, final_sound, fun told link linked key there => ?_⟩
      have differs := (consistent.linked _ _ _ _ link member shown mem linked).1
      exact unlisted told link linked key
        (moved key link.task there (supported.other link linked) differs)
    split
    · apply Undoable.Ensures.bind
      exact ensures_takeBack sound retreats supported goes
    · apply Undoable.Ensures.bind
      have unused := consistent.unused after.issued issued.ge
      exact ensures_handOver fresh sound unused retreats supported assignee_member own named goes
  cases linked : located.entry.link with
  | none =>
      simp only [moveTo, linked, pure_bind]
      exact linked ▸ moving false [] world listed consistent.sound
        (fun told => absurd told Bool.false_ne_true) (retreats_nil _) rfl
  | some link =>
      simp only [moveTo, linked]
      apply Undoable.Ensures.bind
      rw [own]
      apply ensures_withdraw consistent member shown mem linked
      · exact undoes_nil _ consistent.sound
      intro orphaned noted after left sound unlisted retreats issued
      rw [← linked]
      apply moving orphaned noted after left sound _ retreats issued
      intro told other other_linked
      cases linked.symm.trans other_linked
      exact unlisted told

theorem backs_assign {assignee : UserId} (fresh : conditions.around.Fresh)
    (consistent : world.Consistent community conditions.around listed recorded)
    (member : community.member user) (assignee_member : community.member assignee) :
    Attempt.Backs community conditions (assign policy user task assignee) world := by
  apply Attempt.Ensures.bind
  apply ensures_locate trivial
  intro located list shown first
  obtain rfl := EntryList.task_eq_of_find? first
  have mem := EntryList.mem_of_find? first
  cases isOutright located.tray located.entry with
  | false => exact Attempt.ensures_throw trivial
  | true =>
      apply Attempt.Ensures.bind
      apply Records.ensures_load trivial
      intro bytes content found decoded
      have own := consistent.sound.id_eq (consistent.supported member shown mem).own found decoded
      split
      · exact Attempt.ensures_pure trivial
      · apply Attempt.Ensures.bind
        apply Undoable.ensures_settle
        apply (ensures_moveTo fresh consistent member assignee_member shown mem own).mono
        · rintro orphaned noted after ⟨left, stored, sound, unlisted⟩
          apply Attempt.Ensures.bind
          apply Attempt.ensures_lift
          have noting (last : World) : Attempt.Backs community conditions
              (Attempt.note .taskReassigned >>= fun _ => pure (⟨content.message,
                located.entry.partner⟩ : Assignment)) last :=
            Attempt.Ensures.bind (Attempt.ensures_note (Attempt.ensures_pure trivial))
          cases linked : located.entry.link with
          | none => exact noting after
          | some link =>
              cases orphaned with
              | false => exact noting after
              | true =>
                  apply Program.Ensures.bind
                  apply sound.ensures_dropRecord (unlisted rfl link linked)
                  exact fun _ last _ _ => noting last
        · exact fun _ _ back => back

end Workflow
end Handoff
