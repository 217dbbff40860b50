import Handoff.Proofs.Pairing.Residue
import Handoff.Proofs.Race.Outage
import Handoff.Proofs.Stored.Search
import Handoff.Proofs.Workflow.Atomic
import Handoff.Proofs.Workflow.Request
import Handoff.Proofs.Workflow.Service

/-!
# One write decides

Completing, removing, popping, bumping and editing have one write that decides.  Whichever calls the
store refuses, an operation that fails has changed nothing, and one that succeeds has made this
write: what follows it may be refused without a failure.
-/

namespace Handoff

/-- Answers the actions of a program, of which it counts the calls.  The store refuses those calls
for which it is out. -/
def World.answerEach (around : Surroundings) (outages : Nat → Option Outage) (action : Action)
    (state : World × Nat) : action.Answer × (World × Nat) :=
  let (answer, world) := World.answerAmid around (outages state.2) action state.1
  (answer, world, if action.isCall then state.2 + 1 else state.2)

theorem World.answers_wild (around : Surroundings) (outages : Nat → Option Outage)
    (action : Action) (state : World × Nat) :
    (Service.wild around).Answers action state.1 (answerEach around outages action state).1
      (answerEach around outages action state).2.1 := by
  cases action with
  | newTaskId | now | nameOf | note => rfl
  | call request =>
      simp only [Service.Answers, answerEach, answerAmid]
      cases outages state.2 with
      | none => exact .inr ⟨trivial, rfl⟩
      | some outage => exact .inl ⟨trivial, ⟨outage, rfl⟩, rfl⟩

namespace Store

/-- A tray can be read and has no entry for a task. -/
def Lacks (store : Store) (key : String) (task : TaskId) : Prop :=
  ∃ list, store.cell key = .entries list ∧ EntryList.find? task list = none

/-- The first entry is gone from a user's owned tray.  The others stand in their old order, and all
of them are there but for the other side of the task, if that was in the same tray. -/
structure Popped (before after : Store) (user : UserId) (first : Entry) (rest left : List Entry) :
    Prop where
  shown : before.cell (Key.tray user .owned) = .entries (first :: rest)
  left_shown : after.cell (Key.tray user .owned) = .entries left
  gone : EntryList.find? first.task left = none
  ordered : left.Sublist rest
  complete : left = rest ∨ ∃ link back place, first.link = some link ∧
    Key.tray user .owned = Key.tray link.user place ∧
    EntryList.find? link.task rest = some back ∧ back.linksTo user first.task = true ∧
    left = EntryList.erase link.task rest

end Store

/-- What has become of the store when an operation has succeeded. -/
def Operation.Decided (before after : Store) : Operation → Reply → Prop
  | .complete user task, .completed completion =>
    before.Has user completion.tray task ∧ after.Lacks (Key.tray user completion.tray) task
  | .remove user task, .removed removal =>
    before.Has user removal.tray task ∧ after.Lacks (Key.tray user removal.tray) task
  | .pop user, .completed _ => ∃ first rest left, before.Popped after user first rest left
  | .bump user task, .bumped promotion =>
    ∃ list entry first rest, before.cell (Key.tray user .sent) = .entries list ∧
      EntryList.find? task list = some entry ∧
      entry.link = some ⟨promotion.partner, promotion.partnerTask⟩ ∧
      after.cell (Key.tray promotion.partner .received) = .entries (first :: rest) ∧
      first.task = promotion.partnerTask
  | .edit _ task message description, .edited _ =>
    ∃ content, before.Records task content ∧
      after.Records task (content.withContent message description)
  | _, _ => False

/-! ## What follows the deciding write -/

/-- Trays have lost nothing but the other side of an entry that is gone, if they have lost an
entry. -/
def Scene.Trimmed (before : Scene) (user : UserId) (entry : Entry) (after : Scene) : Prop :=
  ∀ owner tray, after.cells (Key.tray owner tray) = before.cells (Key.tray owner tray) ∨
    ∃ link back place list, entry.link = some link ∧
      Key.tray owner tray = Key.tray link.user place ∧
      before.cells (Key.tray owner tray) = .entries list ∧
      EntryList.find? link.task list = some back ∧ back.linksTo user entry.task = true ∧
      after.cells (Key.tray owner tray) = .entries (EntryList.erase link.task list)

/-- A tray that has no entry for a task has none after trays have been trimmed. -/
theorem Scene.Trimmed.exists_without {before after : Scene} {user owner : UserId} {entry : Entry}
    (trimmed : before.Trimmed user entry after) {tray : Tray} {list : List Entry} {task : TaskId}
    (shown : before.cells (Key.tray owner tray) = .entries list)
    (absent : EntryList.find? task list = none) :
    ∃ left, after.cells (Key.tray owner tray) = .entries left ∧
      EntryList.find? task left = none := by
  rcases trimmed owner tray with same | ⟨link, _, _, others, _, _, others_shown, _, _, left⟩
  · exact ⟨list, same.trans shown, absent⟩
  · cases shown.symm.trans others_shown
    refine ⟨_, left, EntryList.find?_eq_none_iff.mpr fun other mem => ?_⟩
    exact EntryList.find?_eq_none_iff.mp absent other (List.mem_of_mem_eraseP mem)

theorem World.get?_record_of_saved {before after : World} {content : Task}
    (saved : after.scene = before.scene.save content) (task : TaskId) :
    after.store.get? (Key.record task) =
      if task = content.id then some content.encode else before.store.get? (Key.record task) := by
  have shown : after.scene.cells (Key.record task) =
      (before.scene.save content).cells (Key.record task) := by rw [saved]
  rw [Scene.save, Scene.put_cells] at shown
  by_cases same : task = content.id
  · rw [if_pos (congrArg Key.record same)] at shown
    rw [if_pos same]
    exact Store.get?_eq_of_cell_eq_value shown
  · rw [if_neg fun keys => same (Key.record_injective keys)] at shown
    rw [if_neg same]
    exact Store.get?_eq_of_cell_eq_value (shown.trans (before.store.cell_record task))

namespace Workflow

variable {around : Surroundings} {world : World} {user : UserId} {task : TaskId}

/-- No more is known of how the store changes. -/
abbrev AnyStep : Store → Store → Prop := fun _ _ => True

theorem trims_dropRecord {before : Scene} {entry : Entry}
    (trimmed : before.Trimmed user entry world.scene) :
    (dropRecord task).Ensures (.wild around) AnyStep
      (fun _ after => before.Trimmed user entry after.scene) world := by
  apply ensures_dropRecord trimmed
  intro content after left
  rw [left]
  exact ⟨trivial, by simpa [Scene.Trimmed, Scene.discard] using trimmed⟩

theorem trims_cleanUpOther {budget : Nat} {before : Scene} {entry : Entry} {link : Link}
    (linked : entry.link = some link)
    (same : ∀ owner tray, world.scene.cells (Key.tray owner tray) =
      before.cells (Key.tray owner tray)) :
    (cleanUpOther budget user entry.task link).Ensures (.wild around) AnyStep
      (fun _ after => before.Trimmed user entry after.scene) world := by
  have untouched : before.Trimmed user entry world.scene := fun owner tray => .inl (same owner tray)
  apply ensures_cleanUpOther untouched
  · exact fun _ => trims_dropRecord untouched
  · intro located list shown first back
    apply ensures_dropEntry
    · exact fun _ => trims_dropRecord untouched
    · intro other after other_task removed
      refine ⟨trivial, trims_dropRecord fun owner tray => ?_⟩
      obtain rfl := removed.eq_of_find? shown (other_task ▸ first)
      obtain ⟨others, others_shown, other_first, left⟩ := removed
      rw [left, Scene.put_cells]
      split
      · rename_i here
        rw [← here, same] at others_shown
        exact .inr ⟨link, _, located.tray, others, linked, here, others_shown,
          other_task ▸ other_first, back, by rw [other_task]⟩
      · exact .inl (same owner tray)

/-- Cleaning up takes out the other side at most. -/
theorem trims_cleanUp (budget : Nat) (user : UserId) (entry : Entry) :
    (cleanUp budget user entry).Ensures (.wild around) AnyStep
      (fun _ after => world.scene.Trimmed user entry after.scene) world := by
  have discarded (content : Task) (after : World)
      (left : after.scene = world.scene.discard entry.task) (owner : UserId) (tray : Tray) :
      after.scene.cells (Key.tray owner tray) = world.scene.cells (Key.tray owner tray) := by
    simp [left, Scene.discard]
  apply ensures_cleanUp
  cases linked : entry.link with
  | none =>
      apply ensures_dropRecord
      · exact fun owner tray => .inl rfl
      · exact fun content after left =>
          ⟨trivial, fun owner tray => .inl (discarded content after left owner tray)⟩
  | some link =>
      apply ensures_dropRecord
      · exact trims_cleanUpOther linked fun _ _ => rfl
      · exact fun content after left =>
          ⟨trivial, trims_cleanUpOther linked (discarded content after left)⟩

/-! ## The operations -/

theorem without_of_removed {before after : World} {tray : Tray} {entry : Entry}
    (orderly : before.store.Orderly)
    (removed : before.scene.Removed user tray entry after.scene) :
    ∃ list, after.scene.cells (Key.tray user tray) = .entries list ∧
      EntryList.find? entry.task list = none := by
  obtain ⟨list, shown, _, left⟩ := removed
  rw [left, Scene.put_cells_self]
  exact ⟨_, rfl, (orderly.unrepeated _ list shown).find?_erase entry.task⟩

/-- Taking out fails without effect, or the tray that it names had an entry and has none any
more. -/
theorem ensures_takeOut (policy : Policy) (orderly : world.store.Orderly) (event : Event) :
    Attempt.Ensures (.wild around) AnyStep
      (fun told after => world.store.Has user told.1 task ∧
        after.store.Lacks (Key.tray user told.1) task)
      (fun after => after.store = world.store) (takeOut policy user task event) world := by
  apply Attempt.Ensures.bind
  apply ensures_locate
  case failing => rfl
  intro located list shown first
  apply Attempt.Ensures.bind
  apply Trays.ensures_remove
  case failing => exact fun _ => rfl
  intro entry after same _ removed _
  have has : world.store.Has user located.tray task :=
    (Store.has_iff shown).mpr (by simp [first])
  obtain ⟨others, others_shown, absent⟩ := without_of_removed orderly removed
  refine ⟨trivial, Attempt.Ensures.bind (Attempt.ensures_lift ?_)⟩
  apply (trims_cleanUp policy.budget user located.entry).mono
  intro cleanup left trimmed
  apply Attempt.Ensures.bind
  apply Attempt.ensures_note
  apply Attempt.ensures_pure
  exact ⟨has, trimmed.exists_without others_shown (same ▸ absent)⟩

/-- Popping fails without effect, or takes out the first entry. -/
theorem ensures_pop (policy : Policy) (orderly : world.store.Orderly) :
    Attempt.Ensures (.wild around) AnyStep
      (fun _ after => ∃ first rest left, world.store.Popped after.store user first rest left)
      (fun after => after.store = world.store) (pop policy user) world := by
  apply Attempt.Ensures.bind
  apply Trays.ensures_pop
  case failing => exact fun _ => rfl
  intro first rest middle shown taken
  refine ⟨trivial, Attempt.Ensures.bind (Attempt.ensures_lift ?_)⟩
  apply (trims_cleanUp policy.budget user first).mono
  intro cleanup after trimmed
  apply Attempt.Ensures.bind
  apply Attempt.ensures_note
  apply Attempt.ensures_pure
  have rest_shown : middle.scene.cells (Key.tray user .owned) = .entries rest := by
    rw [taken, Scene.put_cells_self]
  have absent : EntryList.find? first.task rest = none := by
    have unrepeated := (orderly.unrepeated _ _ shown).find?_erase first.task
    simpa [EntryList.erase] using unrepeated
  obtain ⟨left, left_shown, gone⟩ := trimmed.exists_without rest_shown absent
  rcases trimmed user .owned with same | ⟨link, back, place, list, linked, here, list_shown, found,
    links_back, erased⟩
  · cases left_shown.symm.trans (same.trans rest_shown)
    exact ⟨first, rest, rest, shown, left_shown, gone, .refl rest, .inl rfl⟩
  · cases rest_shown.symm.trans list_shown
    cases left_shown.symm.trans erased
    exact ⟨first, rest, _, shown, left_shown, gone, List.eraseP_sublist,
      .inr ⟨link, back, place, linked, here, found, links_back, rfl⟩⟩

/-- Bumping fails without effect, or brings the linked entry to the front. -/
theorem ensures_bump (policy : Policy) :
    Attempt.Ensures (.wild around) AnyStep
      (fun promotion after => Operation.Decided world.store after.store (.bump user task)
        (.bumped promotion))
      (fun after => after.store = world.store) (bump policy user task) world := by
  apply Attempt.Ensures.bind
  apply Trays.ensures_find?
  case failing => rfl
  case absent => exact fun _ _ _ => Attempt.ensures_throw rfl
  intro list entry position shown found
  cases linked : entry.link with
  | none =>
      simp only [linked]
      exact Attempt.ensures_throw rfl
  | some link =>
      simp only [linked]
      apply Attempt.Ensures.bind
      apply Trays.ensures_bump
      case failing => exact fun _ => rfl
      rintro first after same ⟨others, _, _, left⟩
      refine ⟨trivial, Attempt.Ensures.bind (Attempt.ensures_lift ?_)⟩
      apply ensures_messageOfEither
      intro message
      apply Attempt.Ensures.bind
      apply Attempt.ensures_note
      apply Attempt.ensures_pure
      have front : after.scene.cells (Key.tray link.user .received) =
          .entries (first :: EntryList.erase first.task others) := by
        rw [left, Scene.put_cells_self]
      exact ⟨list, entry, first, _, shown, found, linked, front, same⟩

/-- Editing the same record again with the same texts, or another record, leaves its new texts. -/
theorem ensures_reviseOther {content : Task} {message description : String}
    (orderly : world.store.Orderly) {middle : World} (own : content.id = task)
    (named : content.OriginNamed)
    (saved : middle.scene = world.scene.save (content.withContent message description))
    (link : Option Link) :
    (reviseOther message description link).Ensures (.wild around) AnyStep
      (fun _ after => after.store.Records task (content.withContent message description)) middle := by
  have reads : middle.store.Records task (content.withContent message description) := by
    refine ⟨_, ?_, Task.decode_encode_of_originNamed (named.withContent message description)⟩
    rw [World.get?_record_of_saved saved]
    exact if_pos own.symm
  cases link with
  | none => exact Program.ensures_pure reads
  | some link =>
      apply Attempt.Ensures.recover
      apply ensures_revise
      · exact fun _ => Program.ensures_note reads
      · intro bytes other after found decoded again
        refine ⟨trivial, Program.ensures_pure ?_⟩
        obtain ⟨old_bytes, old_found, old_decoded⟩ := reads
        by_cases same : link.task = task
        · rw [same] at found
          cases found.symm.trans old_found
          cases decoded.symm.trans old_decoded
          refine ⟨_, ?_, Task.decode_encode_of_originNamed (named.withContent message description)⟩
          rw [World.get?_record_of_saved again]
          exact if_pos own.symm
        · rw [World.get?_record_of_saved saved, if_neg fun keys => same (keys.trans own)] at found
          have other_own : other.id = link.task := orderly.own link.task bytes other found decoded
          refine ⟨old_bytes, ?_, old_decoded⟩
          rw [World.get?_record_of_saved again, if_neg, old_found]
          exact fun keys => same (other_own.symm.trans keys.symm)

/-- Editing fails without effect, or the user's record has the new texts and all else that it
had. -/
theorem ensures_edit (orderly : world.store.Orderly) (message description : String) :
    Attempt.Ensures (.wild around) AnyStep
      (fun _ after => ∃ content, world.store.Records task content ∧
        after.store.Records task (content.withContent message description))
      (fun after => after.store = world.store) (edit user task message description) world := by
  apply Attempt.Ensures.bind
  apply ensures_locate
  case failing => rfl
  intro located list shown first
  apply Attempt.Ensures.bind
  apply ensures_revise
  case failing => rfl
  intro bytes content middle found decoded saved
  refine ⟨trivial, Attempt.Ensures.bind (Attempt.ensures_lift ?_)⟩
  apply (ensures_reviseOther orderly (orderly.own task bytes content found decoded)
    (Task.originNamed_of_decode decoded) saved located.entry.link).mono
  exact fun _ _ reads => Attempt.ensures_pure ⟨content, ⟨bytes, found, decoded⟩, reads⟩

/-- Whatever the store refuses, an operation that is not undone fails without effect or has made the
write that decides. -/
theorem ensures_decided (policy : Policy) (operation : Operation)
    (stays : operation.isUndone = false) (orderly : world.store.Orderly) :
    Attempt.Ensures (.wild around) AnyStep
      (fun reply after => operation.Decided world.store after.store reply)
      (fun after => after.store = world.store) (operation.reply policy) world := by
  cases operation with
  | add | send | accept | assign => cases stays
  | complete user task =>
      apply Attempt.Ensures.map
      apply Attempt.Ensures.bind
      apply (ensures_takeOut policy orderly .taskCompleted).mono
      · exact fun _ _ without => Attempt.ensures_pure without
      · exact fun _ same => same
  | remove user task =>
      apply Attempt.Ensures.map
      apply Attempt.Ensures.bind
      apply (ensures_takeOut policy orderly .taskRemoved).mono
      · exact fun _ _ without => Attempt.ensures_pure without
      · exact fun _ same => same
  | pop user =>
      apply Attempt.Ensures.map
      exact ensures_pop policy orderly
  | bump user task =>
      apply Attempt.Ensures.map
      exact ensures_bump policy
  | edit user task message description =>
      apply Attempt.Ensures.map
      exact ensures_edit orderly message description

end Workflow

/-- Whichever calls of a run are refused, completing, removing, popping, bumping and editing change
nothing if they fail, and have made the write that decides if they succeed. -/
theorem Operation.decided_of_outages (around : Surroundings) (outages : Nat → Option Outage)
    (policy : Policy) (operation : Operation) (stays : operation.isUndone = false) (world : World)
    (orderly : world.store.Orderly) :
    let ended := (operation.reply policy).run.runWith (World.answerEach around outages) (world, 0)
    match ended.1 with
    | .ok reply => operation.Decided world.store ended.2.1.store reply
    | .error _ => ended.2.1.store = world.store := by
  have ensures : Attempt.Ensures (.wild around) Workflow.AnyStep
      (fun reply after => operation.Decided world.store after.store reply)
      (fun after => after.store = world.store) (operation.reply policy) (world, 0).1 :=
    Workflow.ensures_decided policy operation stays orderly
  have ended := Program.Ensures.runWith Prod.fst (World.answers_wild around outages) ensures
  intro run
  cases result : run.1 with
  | ok reply =>
      rw [result] at ended
      exact ended
  | error failure =>
      rw [result] at ended
      exact ended

/-- In a world that has been reached each record lies under its own name, and no tray has two
entries for a task. -/
theorem World.Reached.orderly {community : Community} {around : Surroundings} {policy : Policy}
    {world : World} (fresh : around.Fresh) (reached : world.Reached community around policy) :
    world.store.Orderly := by
  obtain ⟨holdings, comprises⟩ := reached.exists_comprises fresh
  constructor
  · intro task bytes content found decoded
    have shown : world.scene.cells (Key.record task) = .value (some bytes) :=
      (world.store.cell_record task).trans (congrArg Cell.value found)
    by_cases held : task ∈ holdings.flatMap Holding.tasks
    · obtain ⟨others, other, others_shown, other_decoded, own⟩ := comprises.recorded task held
      cases shown.symm.trans others_shown
      cases decoded.symm.trans other_decoded
      exact own
    · cases shown.symm.trans (comprises.absent task held)
  · exact comprises.unrepeated

/-- The receiver completes a task while the store is out from the fourth call on: the receiver's
entry is gone, and nothing else. -/
theorem Operation.decided_of_refused_cleanup :
    let world := (World.mk .empty ⟨0⟩ 0).steps .strokes .standard
      [(⟨1⟩, .send "ann" "bob" "Call" "" none), (⟨2⟩, .accept "bob" "||")]
    let outages : Nat → Option Outage := fun call => if 3 ≤ call then some ⟨"down"⟩ else none
    let ended := ((complete "bob" "||").reply .standard).run.runWith
      (World.answerEach .strokes outages) (world, 0)
    let completion : Completion := ⟨none, some "ann", .owned⟩
    ended.1 = .ok (.completed completion) ∧
      (complete "bob" "||").Decided world.store ended.2.1.store (.completed completion) ∧
      ended.2.1.store.cell (Key.tray "ann" .sent) = .entries [.linked "|" "bob" "||"] := by
  intro world outages ended completion
  have reached : world.Reached .plain .strokes .standard :=
    ⟨[(⟨1⟩, .send "ann" "bob" "Call" "" none), (⟨2⟩, .accept "bob" "||")], ⟨0⟩, 0,
      by simp [Operation.users, Community.plain, UserId.Plain], rfl⟩
  have orderly := reached.orderly Surroundings.fresh_strokes
  have succeeded : ended.1 = .ok (.completed completion) := by decide +kernel
  refine ⟨succeeded, ?_, by decide +kernel⟩
  clear_value world
  have decided := decided_of_outages .strokes outages .standard (.complete "bob" "||") rfl world
    orderly
  dsimp only at decided
  rw [succeeded] at decided
  exact decided

end Handoff
