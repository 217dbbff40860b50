import Handoff.Proofs.Workflow.Finish
import Handoff.Proofs.Workflow.Undo
import Handoff.Workflow.Assign

/-!
# What assigning yields

A task is first taken from its previous assignee, and then taken back or handed over.  A workflow
that fails leaves the scene as it was, except that the two entries that were there before may have
moved to the ends of their trays.
-/

namespace Handoff.Workflow

open Attempt (Yields Fails)
open Undoable

variable {conditions : Conditions} {budget : Nat} {noted : List Undo}
  {start before middle after : Scene} {user assignee : UserId} {task : TaskId} {link : Link}
  {located : Located} {back : Scene → Prop} {may : String → Entry → Prop}

/-! ## What can be rolled back later -/

/-- The noted actions can be rolled back, also after the user's entry has been taken out and put
back. -/
def Secured (conditions : Conditions) (budget : Nat) (noted : List Undo) (user : UserId)
    (located : Located) (scene : Scene) (back : Scene → Prop) : Prop :=
  Recovers conditions budget noted scene back ∧
    ∀ after, scene.Returned user located.tray located.entry after →
      Recovers conditions budget noted after back

theorem secured_nil (conditions : Conditions) (budget : Nat) (unrepeated : start.Unrepeated)
    (allowed : may (Key.tray user located.tray) located.entry) :
    Secured conditions budget [] user located start (Scene.MovedToEnd may start) :=
  ⟨recovers_nil (Scene.movedToEnd_refl may start), fun _ returned =>
    recovers_nil (returned.movedToEnd unrepeated allowed)⟩

theorem secured_putBack (budget : Nat) {other : Located} (unrepeated : start.Unrepeated)
    (removed : start.Removed link.user other.tray other.entry middle)
    (well : other.entry.WellLinked)
    (free : conditions.barred (Key.tray link.user other.tray) = false)
    (other_allowed : may (Key.tray link.user other.tray) other.entry)
    (allowed : may (Key.tray user located.tray) located.entry) :
    Secured conditions budget [.putBack link.user other.tray other.entry] user located middle
      (Scene.MovedToEnd may start) := by
  constructor
  · obtain ⟨after, appended⟩ := removed.exists_appended unrepeated
    have returned : start.Returned link.user other.tray other.entry after :=
      ⟨middle, removed, appended⟩
    exact (recovers_nil (returned.movedToEnd unrepeated other_allowed)).append
      (Undo.yields_apply_putBack well free appended)
  · intro left returned
    obtain ⟨after, appended⟩ := removed.exists_appended_after returned unrepeated
    have moved := Scene.movedToEnd_of_returned removed returned appended unrepeated other_allowed
      allowed
    exact (recovers_nil moved).append (Undo.yields_apply_putBack well free appended)

theorem Secured.save {content : Task}
    (secured : Secured conditions budget noted user located before back)
    (free : conditions.barred (Key.record content.id) = false)
    (absent : before.cells (Key.record content.id) = .value none) :
    Secured conditions budget (noted ++ [.deleteRecord content.id]) user located
      (before.save content) back := by
  constructor
  · have deleted : Attempt.Yields conditions ((Undo.deleteRecord content.id).apply budget)
        (before.save content) () ((before.save content).discard content.id) :=
      Undo.yields_apply_deleteRecord free
    rw [Undo.discard_save absent] at deleted
    exact secured.1.append deleted
  · exact fun after returned => (secured.2 _ (returned.discard absent)).append
      (Undo.yields_apply_deleteRecord free)

theorem Secured.append {other : UserId} {tray : Tray} {entry : Entry}
    (secured : Secured conditions budget noted user located before back)
    (free : conditions.barred (Key.tray other tray) = false)
    (appended : before.Appended other tray entry after)
    (differs : entry.task ≠ located.entry.task) :
    Secured conditions budget (noted ++ [.takeOut other tray entry.task]) user located after
      back := by
  constructor
  · exact secured.1.append (Undo.yields_apply_takeOut free appended.removed)
  · intro moved returned
    obtain ⟨left, removed, returned⟩ := appended.swap_returned returned differs
    exact (secured.2 left returned).append (Undo.yields_apply_takeOut free removed)

/-! ## Taking the task from its previous assignee -/

/-- What has become of the entry of the previous assignee, and whether their record has lost its
entry. -/
inductive Withdrawn (before : Scene) (user : UserId) (task : TaskId) (link : Link) :
    Bool → Scene → Prop
  /-- There was none. -/
  | gone (missing : before.locate? link.user link.task = none) :
    Withdrawn before user task link true before
  /-- It is linked to another task. -/
  | elsewhere (other : Located) (found : before.locate? link.user link.task = some other)
    (linked : other.entry.linksTo user task = false) :
    Withdrawn before user task link false before
  /-- It has been taken out. -/
  | taken (other : Located) (after : Scene)
    (found : before.locate? link.user link.task = some other)
    (linked : other.entry.linksTo user task = true)
    (removed : before.Removed link.user other.tray other.entry after) :
    Withdrawn before user task link true after

/-- Taking the entry of the previous assignee fails and changes nothing, or it succeeds and can be
undone. -/
theorem settles_withdraw (policy : Policy) (unrepeated : start.Unrepeated)
    (other_allowed : ∀ other, start.locate? link.user link.task = some other →
      other.entry.linksTo user task = true → may (Key.tray link.user other.tray) other.entry)
    (allowed : may (Key.tray user located.tray) located.entry) :
    Settles conditions policy.budget (withdraw policy user task link) [] start
      (Scene.MovedToEnd may start) fun orphaned noted after =>
        Withdrawn start user task link orphaned after ∧
          Secured conditions policy.budget noted user located after
            (Scene.MovedToEnd may start) ∧
          Secured conditions policy.budget noted user located after.issue
            (Scene.MovedToEnd may start) := by
  have covered : Recovers conditions policy.budget [] start (Scene.MovedToEnd may start) :=
    recovers_nil (Scene.movedToEnd_refl may start)
  have nothing := secured_nil conditions policy.budget unrepeated allowed
  have nothing_issued := secured_nil conditions policy.budget unrepeated.issue allowed
  refine settles_step_bind covered ((Trays.locate?_cases ..).imp_right fun ends => ?_)
  refine ⟨_, start, ends, ?_⟩
  cases found : start.locate? link.user link.task with
  | none =>
      exact .after_step (settles_pure ⟨.gone found, nothing, nothing_issued⟩)
        (Attempt.yields_note _)
  | some other =>
      cases linked : other.entry.linksTo user task with
      | false =>
          simp only [linked]
          exact .after_step
            (settles_pure ⟨.elsewhere other found linked, nothing, nothing_issued⟩)
            (Attempt.yields_note _)
      | true =>
          simp only [linked]
          refine settles_step_bind covered ((Trays.remove_cases ..).imp_right ?_)
          rintro ⟨free, entry, left, same, well, removed, taken⟩
          obtain ⟨list, shown, first⟩ := Scene.find?_of_locateIn found
          obtain rfl := removed.eq_of_find? shown (same ▸ first)
          refine ⟨other.entry, left, taken, .after_note (settles_pure ?_)⟩
          have permitted := other_allowed other found linked
          have issued := secured_putBack policy.budget unrepeated.issue removed.issue well free
            permitted allowed
          exact ⟨.taken other left found linked removed,
            secured_putBack policy.budget unrepeated removed well free permitted allowed, issued⟩

/-! ## Taking the task back -/

/-- The user's entry has been moved to their owned tray and has lost its link. -/
def TakenBack (before : Scene) (user : UserId) (located : Located) (after : Scene) : Prop :=
  ∃ middle, before.Removed user located.tray located.entry middle ∧
    middle.Appended user .owned (.unlinked located.entry.task) after

/-- The user's entry is taken out, and it is noted that this is undone by putting it back. -/
theorem settles_remove {α : Type} {next : Unit → Undoable α} {good : α → List Undo → Scene → Prop}
    (secured : Secured conditions budget noted user located before back)
    (unrepeated : before.Unrepeated) (sole : before.Sole user located.tray located.entry)
    (goes : ∀ after, before.Removed user located.tray located.entry after →
      Recovers conditions budget (noted ++ [.putBack user located.tray located.entry]) after back →
      Settles conditions budget (next ()) (noted ++ [.putBack user located.tray located.entry])
        after back good) :
    Settles conditions budget
      (step (Trays.remove budget user located.tray located.entry.task) >>= fun _ =>
        note (.putBack user located.tray located.entry) >>= next)
      noted before back good := by
  refine settles_step_bind secured.1 ((Trays.remove_cases ..).imp_right ?_)
  rintro ⟨free, entry, after, same, well, removed, taken⟩
  obtain rfl := sole.eq_of_removed removed same
  obtain ⟨left, appended⟩ := removed.exists_appended unrepeated
  have covered := (secured.2 left ⟨after, removed, appended⟩).append
    (Undo.yields_apply_putBack well free appended)
  exact ⟨located.entry, after, taken, .after_note (goes after removed covered)⟩

theorem settles_takeBack (policy : Policy)
    (secured : Secured conditions policy.budget noted user located before back)
    (unrepeated : before.Unrepeated) (sole : before.Sole user located.tray located.entry) :
    Settles conditions policy.budget (takeBack policy user located) noted before back
      fun _ _ after => TakenBack before user located after := by
  refine settles_remove secured unrepeated sole fun middle removed covered => ?_
  rcases Trays.append_cases conditions middle policy.budget user .owned
    (Entry.wellLinked_unlinked located.entry.task) with fails | ⟨_, after, appended, ends⟩
  · exact .inl ⟨_, middle, fails_step fails, covered⟩
  · exact .inr ⟨(), _, after, yields_step ends, middle, removed, appended⟩

/-! ## Handing the task over -/

/-- A copy has been made for the new assignee, and the user's entry has been moved to their sent
tray and linked to the copy. -/
def HandedOver (before : Scene) (user assignee : UserId) (located : Located) (copy : Task)
    (after : Scene) : Prop :=
  ∃ given middle, (before.issue.save copy).Appended assignee .received
      (.linked copy.id user located.entry.task) given ∧
    given.Removed user located.tray located.entry middle ∧
    middle.Appended user .sent (.linked located.entry.task assignee copy.id) after

theorem settles_handOver (policy : Policy) {content : Task} {id : TaskId}
    (next : conditions.around.newTaskId before.issued = id)
    (absent : before.cells (Key.record id) = .value none) (id_ne : id ≠ "")
    (user_ne : user ≠ "") (assignee_ne : assignee ≠ "") (task_ne : located.entry.task ≠ "")
    (own : content.id = located.entry.task) (differs : id ≠ located.entry.task)
    (secured : Secured conditions policy.budget noted user located before.issue back)
    (unrepeated : before.Unrepeated) (sole : before.Sole user located.tray located.entry) :
    Settles conditions policy.budget (handOver policy user assignee content located) noted before
      back fun _ _ after => HandedOver before user assignee located
        (content.copy id before.clock) after := by
  subst next
  refine .after_step (.after_step ?_ Attempt.yields_now) Attempt.yields_newTaskId
  rw [own]
  refine settles_save secured.1 absent fun record_free covered => ?_
  have copied : Secured conditions policy.budget _ user located _ back :=
    secured.save record_free absent
  refine settles_append (Entry.wellLinked_linked _ user_ne task_ne) covered
    fun given free appended _ => ?_
  have given_secured := copied.append free appended differs
  refine settles_remove given_secured ((unrepeated.issue.save _).appended appended)
    ((sole.issue.save _).appended appended differs) fun middle removed covered => ?_
  rcases Trays.append_cases conditions middle policy.budget user .sent
    (Entry.wellLinked_linked located.entry.task assignee_ne id_ne) with
    fails | ⟨_, after, sent, ends⟩
  · exact .inl ⟨_, middle, fails_step fails, covered⟩
  · exact .inr ⟨(), _, after, yields_step ends, given, middle, appended, removed, sent⟩

/-! ## The whole workflow -/

/-- What has become of the entry of the previous assignee, if there is one. -/
def Freed (before : Scene) (user : UserId) (task : TaskId) :
    Option Link → Bool → Scene → Prop
  | none, orphaned, after => orphaned = false ∧ after = before
  | some link, orphaned, after => Withdrawn before user task link orphaned after

/-- A task has been taken from its previous assignee, and taken back or handed over. -/
def Moved (conditions : Conditions) (before : Scene) (user assignee : UserId) (content : Task)
    (located : Located) (orphaned : Bool) (after : Scene) : Prop :=
  ∃ middle, Freed before user located.entry.task located.entry.link orphaned middle ∧
    if assignee = user then TakenBack middle user located after
    else HandedOver middle user assignee located
      (content.copy (conditions.around.newTaskId middle.issued) middle.clock) after

theorem Freed.cases {orphaned : Bool} {link : Option Link}
    (freed : Freed before user task link orphaned after) :
    after = before ∨ ∃ other tray entry, before.Removed other tray entry after := by
  cases link with
  | none => exact .inl freed.2
  | some link =>
      rcases freed with _ | _ | ⟨other, _, _, _, removed⟩
      · exact .inl rfl
      · exact .inl rfl
      · exact .inr ⟨_, _, _, removed⟩

theorem Freed.issued_eq {orphaned : Bool} {link : Option Link}
    (freed : Freed before user task link orphaned after) : after.issued = before.issued := by
  rcases freed.cases with rfl | ⟨_, _, _, removed⟩
  · rfl
  · exact removed.issued_eq

/-- Once the previous assignee has lost the task, the rest either succeeds or is rolled back with
what has been noted. -/
theorem settles_move (policy : Policy) {content : Task} {orphaned : Bool}
    (freed : Freed start user located.entry.task located.entry.link orphaned before)
    (secured : Secured conditions policy.budget noted user located before back)
    (secured_issued : Secured conditions policy.budget noted user located before.issue back)
    (unrepeated : start.Unrepeated) (sole : start.Sole user located.tray located.entry)
    (own : content.id = located.entry.task) (user_ne : user ≠ "") (assignee_ne : assignee ≠ "")
    (task_ne : located.entry.task ≠ "")
    (absent : start.cells (Key.record (conditions.around.newTaskId start.issued)) = .value none)
    (id_ne : conditions.around.newTaskId start.issued ≠ "")
    (differs : conditions.around.newTaskId start.issued ≠ located.entry.task) :
    Settles conditions policy.budget
      (if assignee = user then takeBack policy user located >>= fun _ => pure orphaned
        else handOver policy user assignee content located >>= fun _ => pure orphaned)
      noted before back fun orphaned _ after =>
        Moved conditions start user assignee content located orphaned after := by
  have before_unrepeated : before.Unrepeated := by
    rcases freed.cases with rfl | ⟨_, _, _, removed⟩
    · exact unrepeated
    · exact unrepeated.removed removed
  have before_sole : before.Sole user located.tray located.entry := by
    rcases freed.cases with rfl | ⟨_, _, _, removed⟩
    · exact sole
    · exact sole.removed removed
  by_cases back_home : assignee = user
  · rw [if_pos back_home]
    refine Settles.bind ((settles_takeBack policy secured before_unrepeated before_sole).mono ?_)
    intro _ noting after taken
    exact settles_pure ⟨before, freed, by rwa [if_pos back_home]⟩
  · rw [if_neg back_home]
    have same_issued := freed.issued_eq
    have still_absent : before.cells (Key.record (conditions.around.newTaskId before.issued)) =
        .value none := by
      rw [same_issued]
      rcases freed.cases with rfl | ⟨_, _, _, removed⟩
      · exact absent
      · exact (removed.cells_of_ne (Key.record_ne_tray _ _ _)).trans absent
    refine Settles.bind ((settles_handOver policy rfl still_absent (same_issued ▸ id_ne) user_ne
      assignee_ne task_ne own (same_issued ▸ differs) secured_issued before_unrepeated
      before_sole).mono ?_)
    intro _ noting after handed
    exact settles_pure ⟨before, freed, by rwa [if_neg back_home]⟩

theorem settles_moveTo (conditions : Conditions) (policy : Policy) {content : Task}
    (unrepeated : start.Unrepeated)
    (found : start.locate? user task = some located) (own : content.id = task)
    (user_ne : user ≠ "") (assignee_ne : assignee ≠ "") (task_ne : task ≠ "")
    (absent : start.cells (Key.record (conditions.around.newTaskId start.issued)) = .value none)
    (id_ne : conditions.around.newTaskId start.issued ≠ "")
    (differs : conditions.around.newTaskId start.issued ≠ task)
    (other_allowed : ∀ link other, located.entry.link = some link →
      start.locate? link.user link.task = some other →
      other.entry.linksTo user task = true → may (Key.tray link.user other.tray) other.entry)
    (allowed : may (Key.tray user located.tray) located.entry) :
    Settles conditions policy.budget (moveTo policy user assignee content located) [] start
      (Scene.MovedToEnd may start) fun orphaned _ after =>
        Moved conditions start user assignee content located orphaned after := by
  obtain ⟨list, shown, first⟩ := Scene.find?_of_locateIn found
  obtain rfl := EntryList.task_eq_of_find? first
  have sole := unrepeated.sole shown (EntryList.mem_of_find? first)
  have nothing := secured_nil conditions policy.budget unrepeated allowed
  have nothing_issued := secured_nil conditions policy.budget unrepeated.issue allowed
  unfold moveTo
  cases linked : located.entry.link with
  | none =>
      have freed : Freed start user located.entry.task located.entry.link false start := by
        rw [linked]
        exact ⟨rfl, rfl⟩
      exact settles_move policy freed nothing nothing_issued unrepeated sole own user_ne assignee_ne
        task_ne absent id_ne differs
  | some link =>
      rw [own]
      refine Settles.bind ((settles_withdraw policy unrepeated (other_allowed link · linked)
        allowed).mono ?_)
      rintro orphaned noting middle ⟨withdrawn, secured, secured_issued⟩
      have freed : Freed start user located.entry.task located.entry.link orphaned middle := by
        rw [linked]
        exact withdrawn
      exact settles_move policy freed secured secured_issued unrepeated sole own user_ne assignee_ne
        task_ne absent id_ne differs

/-- A dropped record is the end of an assignment, whether it could be deleted or not. -/
theorem dropOrphan_cases (conditions : Conditions) (scene : Scene) (orphaned : Bool)
    (link : Option Link) :
    ∃ after, Program.Yields conditions (dropOrphan orphaned link) scene () after := by
  cases link with
  | none => exact ⟨scene, Program.yields_pure ()⟩
  | some link =>
      cases orphaned with
      | false => exact ⟨scene, Program.yields_pure ()⟩
      | true =>
          obtain ⟨dropped, after, ends⟩ := dropRecord_cases conditions scene link.task
          exact ⟨after, ends.bind (Program.yields_pure ())⟩

/-- The task of an entry is the user's own, its record can be read, and the assignee is not who has
the task. -/
structure Assignable (scene : Scene) (user : UserId) (task : TaskId) (assignee : UserId)
    (located : Located) (content : Task) : Prop where
  found : scene.locate? user task = some located
  outright : isOutright located.tray located.entry = true
  stored : ∃ bytes, scene.cells (Key.record task) = .value (some bytes) ∧
    Task.decode bytes = .ok content
  another : located.entry.partner.getD user ≠ assignee

/-- Before anything is moved, assigning fails, or finds that nothing is to be done, or finds a task
that can be assigned. -/
theorem assignable_cases (conditions : Conditions) (scene : Scene) (policy : Policy)
    (user : UserId) (task : TaskId) (assignee : UserId) :
    Fails conditions (assign policy user task assignee) scene scene ∨
      (∃ result, Yields conditions (assign policy user task assignee) scene result scene) ∨
      ∃ located content, Assignable scene user task assignee located content := by
  rcases locate_cases conditions scene user task with fails | ⟨located, found, ends⟩
  · exact .inl (fails.bind _)
  cases outright : isOutright located.tray located.entry with
  | false =>
      refine .inl (ends.bind_fails ?_)
      simp only [outright]
      exact (Attempt.fails_throw _).bind _
  | true =>
      rcases Records.load_cases conditions scene task with
        fails | ⟨bytes, content, stored, decoded⟩
      · refine .inl (ends.bind_fails ?_)
        simp only [outright, if_true]
        exact fails.bind _
      · by_cases same : located.entry.partner.getD user = assignee
        · refine .inr (.inl ⟨⟨content.message, none⟩, ends.bind ?_⟩)
          simp only [outright, if_true, same]
          exact (Records.yields_load conditions stored decoded).bind (Attempt.yields_pure _)
        · exact .inr (.inr ⟨located, content, found, outright, ⟨bytes, stored, decoded⟩, same⟩)

namespace Assignable

variable {content : Task}

theorem fails (policy : Policy) (assignable : Assignable start user task assignee located content)
    (failed : Fails conditions (settle policy.budget (moveTo policy user assignee content located))
      start after) : Fails conditions (assign policy user task assignee) start after := by
  obtain ⟨bytes, stored, decoded⟩ := assignable.stored
  have searched : Yields conditions (locate user task) start located start :=
    (Trays.yields_locate? assignable.found).bind (Attempt.yields_pure _)
  refine searched.bind_fails ?_
  simp only [assignable.outright, if_true]
  apply (Records.yields_load conditions stored decoded).bind_fails
  rw [if_neg assignable.another]
  exact failed.bind _

/-- If the task is moved, assigning it succeeds. -/
theorem yields (policy : Policy) {orphaned : Bool} {left : Scene}
    (assignable : Assignable start user task assignee located content)
    (settled : Yields conditions
      (settle policy.budget (moveTo policy user assignee content located)) start orphaned left)
    (dropped : Program.Yields conditions (dropOrphan orphaned located.entry.link) left () after) :
    Yields conditions (assign policy user task assignee) start
      ⟨content.message, located.entry.partner⟩ after := by
  obtain ⟨bytes, stored, decoded⟩ := assignable.stored
  have searched : Yields conditions (locate user task) start located start :=
    (Trays.yields_locate? assignable.found).bind (Attempt.yields_pure _)
  refine searched.bind ?_
  simp only [assignable.outright, if_true]
  apply (Records.yields_load conditions stored decoded).bind
  rw [if_neg assignable.another]
  exact settled.bind ((Attempt.yields_lift dropped).bind (Attempt.yields_note_pure _ _))

end Assignable

/-- Assigning fails and at most moves the two entries to the ends of their trays, or nothing is to
be done, or the task is moved. -/
theorem assign_cases (conditions : Conditions) (may : String → Entry → Prop) (policy : Policy)
    (unrepeated : start.Unrepeated) (user_ne : user ≠ "")
    (assignee_ne : assignee ≠ "") (task_ne : task ≠ "")
    (own : ∀ bytes content, start.cells (Key.record task) = .value (some bytes) →
      Task.decode bytes = .ok content → content.id = task)
    (absent : start.cells (Key.record (conditions.around.newTaskId start.issued)) = .value none)
    (id_ne : conditions.around.newTaskId start.issued ≠ "")
    (other_allowed : ∀ located link other, start.locate? user task = some located →
      located.entry.link = some link → start.locate? link.user link.task = some other →
      other.entry.linksTo user task = true → may (Key.tray link.user other.tray) other.entry)
    (allowed : ∀ located, start.locate? user task = some located →
      may (Key.tray user located.tray) located.entry) :
    (∃ after, Fails conditions (assign policy user task assignee) start after ∧
        start.MovedToEnd may after) ∨
      (∃ result, Yields conditions (assign policy user task assignee) start result start) ∨
      ∃ located content orphaned left, start.locate? user task = some located ∧
        isOutright located.tray located.entry = true ∧ content.id = task ∧
        Moved conditions start user assignee content located orphaned left ∧ ∀ after,
          Program.Yields conditions (dropOrphan orphaned located.entry.link) left () after →
          Yields conditions (assign policy user task assignee) start
            ⟨content.message, located.entry.partner⟩ after := by
  have kept := Scene.movedToEnd_refl may start
  rcases assignable_cases conditions start policy user task assignee with
    fails | unchanged | ⟨located, content, assignable⟩
  · exact .inl ⟨start, fails, kept⟩
  · exact .inr (.inl unchanged)
  obtain ⟨bytes, stored, decoded⟩ := assignable.stored
  have own_content := own bytes content stored decoded
  have differs : conditions.around.newTaskId start.issued ≠ task := by
    rintro rfl
    cases stored.symm.trans absent
  have found := assignable.found
  have settles := settles_moveTo conditions policy unrepeated found own_content user_ne assignee_ne
    task_ne absent id_ne differs (other_allowed located · · found) (allowed located found)
  rcases settles.cases with ⟨after, fails, moved⟩ | ⟨orphaned, left, settled, moved⟩
  · exact .inl ⟨after, assignable.fails policy fails, moved⟩
  · exact .inr (.inr ⟨located, content, orphaned, left, found, assignable.outright, own_content,
      moved, fun _ dropped => assignable.yields policy settled dropped⟩)

end Handoff.Workflow
