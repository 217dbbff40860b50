import Handoff.Proofs.Pairing.Copies.Editing
import Handoff.Proofs.Pairing.Copies.Steps
import Handoff.Proofs.Pairing.Reassigning.Trays
import Handoff.Proofs.Pairing.Residue
import Handoff.Proofs.Pairing.Spares.Assigning
import Handoff.Proofs.Stored.Reading

/-!
# What becomes of a task that is assigned

Where links are mutual, an assignment is refused without effect, or finds the task where it should
be, or moves it: the previous assignee loses their entry and their record, the next one gets an
entry and a record, and nothing else changes.
-/

namespace Handoff

variable {conditions : Conditions} {world : World} {user assignee : UserId} {task : TaskId}
  {content : Task} {located : Located}

/-! ## Assignments that change nothing -/

theorem Scene.Reads.records (reads : world.scene.Reads task content) :
    world.store.Records task content := by
  obtain ⟨bytes, shown, decoded⟩ := reads
  exact ⟨bytes, Store.get?_eq_of_cell_eq_value shown, decoded⟩

namespace Workflow

theorem isOutright_of_place {tray : Tray} {entry : Entry}
    (place : tray = .sent ∨ (tray = .owned ∧ entry.link = none)) :
    isOutright tray entry = true := by
  rcases place with rfl | ⟨rfl, unlinked⟩
  · rfl
  · simp [isOutright, unlinked]

section
variable (readable : ∀ tray, ∃ list, world.scene.cells (Key.tray user tray) = .entries list)
include readable

theorem run_locate (found : world.scene.locate? user task = some located) :
    conditions.run (locate user task).run world = (.ok located, world) := by
  unfold locate
  rw [Conditions.run_bind, Trays.run_locate? readable, found]
  rfl

theorem run_assign_of_unlisted (policy : Policy)
    (missing : world.scene.locate? user task = none) :
    conditions.run (assign policy user task assignee).run world =
      (.error (.notListed task user), world) := by
  have searched : conditions.run (locate user task).run world =
      (.error (.notListed task user), world) := by
    unfold locate
    rw [Conditions.run_bind, Trays.run_locate? readable, missing]
    rfl
  unfold assign
  rw [Conditions.run_bind, searched]

theorem run_assign_of_foreign (policy : Policy)
    (found : world.scene.locate? user task = some located)
    (foreign : isOutright located.tray located.entry = false) :
    conditions.run (assign policy user task assignee).run world =
      (.error (.notOwner task user), world) := by
  unfold assign
  rw [Conditions.run_bind, run_locate readable found]
  simp only [foreign]
  rfl

theorem run_assign_of_settled (policy : Policy)
    (found : world.scene.locate? user task = some located)
    (outright : isOutright located.tray located.entry = true)
    (reads : world.scene.Reads task content)
    (settled : located.entry.partner.getD user = assignee) :
    conditions.run (assign policy user task assignee).run world =
      (.ok ⟨content.message, none⟩, world) := by
  unfold assign
  rw [Conditions.run_bind, run_locate readable found]
  simp only [outright, if_true, settled]
  rw [Conditions.run_bind, Records.run_load_of_records reads.records]
  rfl

end
end Workflow

/-! ## Tasks that are moved -/

/-- The task of an entry, and the one that it is linked to. -/
def Entry.tasks (entry : Entry) : List TaskId := entry.task :: (entry.link.map Link.task).toList

namespace Scene

open Conditions (calm)
open Workflow (TakenBack HandedOver Moved Assignable)

variable {community : Community} {around : Surroundings} {mine : TaskId → Bool}
  {old scene middle after left : Scene} {holding : Holding} {entry : Entry} {tray : Tray}
  {copy : Task} {key : String} {next : TaskId}

/-- A task of a user's own has been taken from whoever had it and given to an assignee. -/
structure Reassigned (community : Community) (before : Scene) (user : UserId) (entry : Entry)
    (content : Task) (assignee : UserId) (next : TaskId) (after : Scene) : Prop where
  /-- The old entries are gone, the new ones stand at the ends of their trays, and all others are
  where they were, in the same order. -/
  trays : ∀ other tray, community.member other → ∃ list,
    before.cells (Key.tray other tray) = .entries list ∧
      after.cells (Key.tray other tray) = .entries
        (list.filter (fun held => decide (held.task ∉ entry.tasks)) ++
          (Holding.assigned user entry.task assignee next).entries other tray)
  /-- The old entries are the user's and the one that it was linked to. -/
  sole : ∀ other tray held, community.member other → before.Lists other tray held →
    held.task ∈ entry.tasks → other = user ∧ held = entry ∨
      ∃ link, entry.link = some link ∧ other = link.user ∧
        held = .linked link.task user entry.task
  /-- The record of the previous assignee is gone. -/
  dropped : ∀ link, entry.link = some link → after.cells (Key.record link.task) = .value none
  /-- The new assignee has a record of their own, which says the same. -/
  copied : assignee ≠ user → before.cells (Key.record next) = .value none ∧
    ∃ copy, after.Reads next copy ∧ copy.id = next ∧ content.Twin copy
  /-- Nothing else has changed. -/
  others : ∀ key, (∀ other tray, community.member other → key ≠ Key.tray other tray) →
    (∀ link, entry.link = some link → key ≠ Key.record link.task) →
    (assignee ≠ user → key ≠ Key.record next) → after.cells key = before.cells key

/-- Taking a task back changes trays of the user only. -/
theorem cells_of_takenBack (taken : TakenBack scene user located after)
    (no_tray : ∀ tray, key ≠ Key.tray user tray) : after.cells key = scene.cells key := by
  obtain ⟨bare, removed, appended⟩ := taken
  exact (appended.cells_of_ne (no_tray _)).trans (removed.cells_of_ne (no_tray _))

/-- Handing a task over changes trays of the user and of the assignee, and adds a record. -/
theorem cells_of_handedOver (handed : HandedOver scene user assignee located copy after)
    (no_tray : ∀ tray, key ≠ Key.tray user tray)
    (no_assignee_tray : ∀ tray, key ≠ Key.tray assignee tray) (differs : key ≠ Key.record copy.id) :
    after.cells key = scene.cells key := by
  obtain ⟨given, bare, received, removed, sent⟩ := handed
  rw [sent.cells_of_ne (no_tray _), removed.cells_of_ne (no_tray _),
    received.cells_of_ne (no_assignee_tray _)]
  exact put_cells_of_ne _ _ differs

/-- Once the previous assignee has lost the task, only trays of the other two change, and a record
is added at most. -/
theorem cells_of_given
    (given : if assignee = user then TakenBack scene user located after
      else HandedOver scene user assignee located copy after)
    (no_tray : ∀ tray, key ≠ Key.tray user tray)
    (no_assignee_tray : ∀ tray, key ≠ Key.tray assignee tray)
    (no_copy : assignee ≠ user → key ≠ Key.record copy.id) : after.cells key = scene.cells key := by
  by_cases home : assignee = user
  · rw [if_pos home] at given
    exact cells_of_takenBack given no_tray
  · rw [if_neg home] at given
    exact cells_of_handedOver given no_tray no_assignee_tray (no_copy home)

theorem Keeps.reassigned_alone (fresh : around.Fresh) {position : Nat} {orphaned : Bool}
    (keeps : Keeps community around mine scene (.alone user task) scene)
    (one : ∀ task, scene.allocation.OneTray community task)
    (assignee_member : community.member assignee) (reads : scene.Reads task content)
    (moved : Moved (calm around) scene user assignee content ⟨.owned, .unlinked task, position⟩
      orphaned after) :
    scene.Reassigned community user (.unlinked task) content assignee
      (around.newTaskId scene.issued) after := by
  obtain ⟨member, _⟩ := Holding.proper_alone_iff.mp keeps.proper
  have ours := keeps.ours task (by simp [Holding.tasks])
  have differs := keeps.ne_fresh fresh (by simp [Holding.tasks] : task ∈ _) le_rfl
  have places := places_allocation fun other tray other_member =>
    (keeps.holds.trays other tray other_member).imp fun _ shown => shown.choose_spec.1
  obtain ⟨start, ⟨rfl, unchanged⟩, rest⟩ := moved
  rw [unchanged] at rest
  have placed := places.moved member assignee_member (one task) keeps.unrepeated differs.symm rest
  refine ⟨fun other tray other_member => ?_, fun other tray held other_member lists mem => ?_,
    fun link linked => ?_, fun another => ?_, fun key no_tray _ no_copy => ?_⟩
  · exact ⟨_, places other tray other_member, placed other tray other_member⟩
  · obtain rfl : held.task = task := by simpa [Entry.tasks] using mem
    have listed := keeps.holds.mem_of_lists other_member ours lists
    obtain ⟨rfl, _, same⟩ := Holding.mem_entries_alone.mp listed
    exact .inl ⟨rfl, same⟩
  · cases linked
  · rw [if_neg another] at rest
    exact ⟨keeps.absent fresh le_rfl, _, reads_of_handedOver rest (Task.originNamed_copy _ _ _),
      rfl, Task.twin_copy reads.originNamed _ _⟩
  · exact cells_of_given rest (fun tray => no_tray user tray member)
      (fun tray => no_tray assignee tray assignee_member) no_copy

theorem Keeps.reassigned_shared (fresh : around.Fresh) {receiver : UserId} {copied : TaskId}
    {accepted orphaned : Bool} {position : Nat}
    (keeps : Keeps community around mine scene (.shared user task receiver copied accepted) scene)
    (one : ∀ task, scene.allocation.OneTray community task)
    (assignee_member : community.member assignee) (reads : scene.Reads task content)
    (moved : Moved (calm around) scene user assignee content
      ⟨.sent, .linked task receiver copied, position⟩ orphaned after) :
    scene.Reassigned community user (.linked task receiver copied) content assignee
      (around.newTaskId scene.issued) (after.discard copied) := by
  obtain ⟨⟨member, receiver_member⟩, _, apart⟩ := Holding.proper_shared_iff.mp keeps.proper
  have ours := keeps.ours task (by simp [Holding.tasks])
  have copied_ours := keeps.ours copied (by simp [Holding.tasks])
  have differs := keeps.ne_fresh fresh (by simp [Holding.tasks] : task ∈ _) le_rfl
  have copied_differs := keeps.ne_fresh fresh (by simp [Holding.tasks] : copied ∈ _) le_rfl
  have places := places_allocation fun other tray other_member =>
    (keeps.holds.trays other tray other_member).imp fun _ shown => shown.choose_spec.1
  obtain ⟨middle, withdrawn, rest⟩ := moved
  obtain ⟨rfl, removed⟩ := keeps.withdrawn withdrawn
  rw [removed.issued_eq] at rest
  have middle_places := places.removed receiver_member (one copied) keeps.unrepeated removed
  have placed := middle_places.moved member assignee_member ((one task).without _)
    (keeps.unrepeated.removed removed) differs.symm rest
  rw [Placing.without_without] at placed
  refine ⟨fun other tray other_member => ?_, fun other tray held other_member lists mem => ?_,
    fun link linked => ?_, fun another => ?_, fun key no_tray no_dropped no_copy => ?_⟩
  · exact ⟨_, places other tray other_member, placed.discard copied other tray other_member⟩
  · have held_ours : mine held.task = true := by
      rcases List.mem_pair.mp mem with same | same
      · exact same ▸ ours
      · exact same ▸ copied_ours
    have listed := keeps.holds.mem_of_lists other_member held_ours lists
    rcases Holding.mem_entries_shared.mp listed with ⟨rfl, _, same⟩ | ⟨rfl, _, same⟩
    · exact .inl ⟨rfl, same⟩
    · exact .inr ⟨_, rfl, rfl, same⟩
  · cases linked
    exact put_cells_self ..
  · rw [if_neg another] at rest
    have copy_reads := reads_of_handedOver rest (Task.originNamed_copy _ _ _)
    refine ⟨keeps.absent fresh le_rfl, _, copy_reads.of_cells_eq ?_, rfl,
      Task.twin_copy reads.originNamed _ _⟩
    exact put_cells_of_ne _ _ fun keys => copied_differs (Key.record_injective keys).symm
  · rw [discard, put_cells_of_ne _ _ (no_dropped _ rfl),
      cells_of_given rest (fun tray => no_tray user tray member)
        (fun tray => no_tray assignee tray assignee_member) no_copy]
    exact removed.cells_of_ne (no_tray receiver _ receiver_member)

namespace Comprises

variable {holdings : List Holding}

theorem oneTray_allocation (comprises : Comprises community around holdings world.scene)
    (task : TaskId) : world.scene.allocation.OneTray community task := by
  have lists {user : UserId} {tray : Tray} {entry : Entry} (member : community.member user)
      (mem : entry ∈ world.scene.allocation user tray) : world.store.Lists user tray entry :=
    ⟨_, places_allocation (fun _ tray member => comprises.readable member tray) user tray member,
      mem⟩
  exact fun user other tray place member other_member entry mem next next_mem same next_same =>
    comprises.paired.one_place user other tray place entry next member other_member
      (lists member mem) (lists other_member next_mem) (same.trans next_same.symm)

theorem exists_located (comprises : Comprises community around holdings world.scene)
    (fresh : around.Fresh) (member : community.member user)
    (lists : world.scene.Lists user tray entry) :
    ∃ position, world.scene.locate? user entry.task = some ⟨tray, entry, position⟩ := by
  obtain ⟨holding, mine, ours, keeps⟩ := comprises.exists_held fresh entry.task
  have held := keeps.holds.mem_of_lists member ours lists
  cases found : world.scene.locate? user entry.task with
  | none =>
      have missing := keeps.holds.task_ne_of_locateIn member ours found
      exact absurd rfl (missing tray tray.mem_all entry held)
  | some located =>
      obtain ⟨list, shown, first⟩ := find?_of_locateIn found
      have located_lists : world.store.Lists user located.tray located.entry :=
        ⟨list, shown, EntryList.mem_of_find? first⟩
      have same := EntryList.task_eq_of_find? first
      obtain ⟨_, here⟩ := comprises.paired.one_place user user located.tray tray located.entry entry
        member member located_lists lists same
      have this := comprises.paired.eq_of_task_eq member member located_lists lists same
      exact ⟨located.position, by rw [← here, ← this]⟩

/-- A task of a user's own that somebody else has is moved to its new assignee. -/
theorem exists_reassigned (comprises : Comprises community around holdings world.scene)
    (fresh : around.Fresh) (policy : Policy) (member : community.member user)
    (assignee_member : community.member assignee)
    (assignable : Assignable world.scene user task assignee located content) :
    ∃ after, Attempt.Yields (calm around) (Workflow.assign policy user task assignee) world.scene
        ⟨content.message, located.entry.partner⟩ after ∧
      world.scene.Reassigned community user located.entry content assignee
        (around.newTaskId world.issued) after := by
  obtain ⟨holding, mine, ours, keeps⟩ := comprises.exists_held fresh task
  obtain ⟨held, rfl⟩ := keeps.holds.mem_of_locateIn member ours assignable.found
  obtain ⟨bytes, stored, decoded⟩ := assignable.stored
  have own := keeps.holds.id_eq ours (Holding.task_mem_of_mem held) stored decoded
  have reads : world.scene.Reads located.entry.task content := ⟨bytes, stored, decoded⟩
  obtain ⟨orphaned, left, moved, settled⟩ := keeps.exists_moved fresh policy member assignee_member
    held assignable.outright own
  obtain ⟨tray, entry, position⟩ := located
  rcases Holding.eq_of_isOutright held assignable.outright with
    ⟨task, rfl, rfl, rfl⟩ | ⟨task, receiver, copied, accepted, rfl, rfl, rfl⟩
  · obtain ⟨rfl, _, _⟩ := keeps.moved_alone fresh assignee_member moved
    exact ⟨left, assignable.yields policy settled (Program.yields_pure ()),
      keeps.reassigned_alone fresh comprises.oneTray_allocation assignee_member reads moved⟩
  · obtain ⟨dropping, _, _⟩ := keeps.moved_shared fresh assignee_member moved
    exact ⟨_, assignable.yields policy settled dropping,
      keeps.reassigned_shared fresh comprises.oneTray_allocation assignee_member reads moved⟩

end Comprises
end Scene

/-! ## The whole assignment -/

/-- How an assignment ends, with the world before it and what it has led to. -/
structure Workflow.Assigned (community : Community) (around : Surroundings) (world : World)
    (user : UserId) (task : TaskId) (assignee : UserId)
    (ended : Except Failure Assignment × World) : Prop where
  /-- A task in none of the user's trays is not found. -/
  unlisted : (∀ tray entry, world.scene.Lists user tray entry → entry.task ≠ task) →
    ended = (.error (.notListed task user), world)
  /-- A task that the user has from somebody else is not theirs to assign. -/
  foreign : ∀ tray entry, world.scene.Lists user tray entry → entry.task = task →
    tray = .received ∨ (tray = .owned ∧ entry.link ≠ none) →
      ended = (.error (.notOwner task user), world)
  /-- Nothing is to be done if the assignee has the task. -/
  settled : ∀ tray entry, world.scene.Lists user tray entry → entry.task = task →
    tray = .sent ∨ (tray = .owned ∧ entry.link = none) → entry.partner.getD user = assignee →
      ∃ content, world.scene.Reads task content ∧ ended = (.ok ⟨content.message, none⟩, world)
  /-- Otherwise the task is moved. -/
  moved : ∀ tray entry, world.scene.Lists user tray entry → entry.task = task →
    tray = .sent ∨ (tray = .owned ∧ entry.link = none) → entry.partner.getD user ≠ assignee →
      ∃ content, world.scene.Reads task content ∧
        ended.1 = .ok ⟨content.message, entry.partner⟩ ∧
        world.scene.Reassigned community user entry content assignee
          (around.newTaskId world.issued) ended.2.scene

namespace World

variable {community : Community} {around : Surroundings}

/-- In a world that operations of members have reached, at any time, an assignment is refused
without effect, or the task is where it should be, or it is moved. -/
theorem Reached.assigned {policy : Policy} (fresh : around.Fresh)
    (reached : world.Reached community around policy) (member : community.member user)
    (assignee_member : community.member assignee) (task : TaskId) (clock : Instant) :
    Workflow.Assigned community around { world with clock } user task assignee
      ((Workflow.assign policy user task assignee).run.run around { world with clock }) := by
  obtain ⟨holdings, before⟩ := reached.exists_comprises fresh
  let now : World := { world with clock }
  have comprises : Scene.Comprises community around holdings now.scene := before.at_clock clock
  have readable := comprises.readable member
  rw [← Conditions.run_calm]
  constructor
  · intro unlisted
    cases found : now.scene.locate? user task with
    | none => exact Workflow.run_assign_of_unlisted readable policy found
    | some located =>
        obtain ⟨list, shown, first⟩ := Scene.find?_of_locateIn found
        exact absurd (EntryList.task_eq_of_find? first)
          (unlisted located.tray located.entry ⟨list, shown, EntryList.mem_of_find? first⟩)
  · rintro tray entry lists rfl theirs
    obtain ⟨position, found⟩ := comprises.exists_located fresh member lists
    refine Workflow.run_assign_of_foreign readable policy found ?_
    rcases theirs with rfl | ⟨rfl, linked⟩
    · rfl
    · exact Option.isNone_eq_false_iff.mpr (Option.isSome_iff_ne_none.mpr linked)
  · rintro tray entry lists rfl outright settled
    obtain ⟨position, found⟩ := comprises.exists_located fresh member lists
    obtain ⟨content, reads, _⟩ := comprises.exists_reads member lists
    exact ⟨content, reads, Workflow.run_assign_of_settled readable policy found
      (Workflow.isOutright_of_place outright) reads settled⟩
  · rintro tray entry lists rfl outright another
    obtain ⟨position, found⟩ := comprises.exists_located fresh member lists
    obtain ⟨content, reads, _⟩ := comprises.exists_reads member lists
    obtain ⟨after, ends, reassigned⟩ := comprises.exists_reassigned fresh policy member
      assignee_member ⟨found, Workflow.isOutright_of_place outright, reads, another⟩
    obtain ⟨result, left⟩ := ends now rfl
    exact ⟨content, reads, result, left ▸ reassigned⟩

/-- A task that has been sent and accepted is taken from its receiver and handed to another user. -/
theorem assigned_of_sent_and_accepted :
    let world := (World.mk .empty ⟨0⟩ 0).steps .strokes .standard
      [(⟨1⟩, .send "ann" "bob" "Call" "" none), (⟨2⟩, .accept "bob" "||")]
    let now : World := { world with clock := ⟨3⟩ }
    let ended := (Workflow.assign .standard "ann" "|" "cat").run.run .strokes now
    ended.1 = .ok ⟨"Call", some "bob"⟩ ∧
      ended.2.scene.cells (Key.tray "cat" .received) = .entries [.linked "|||" "ann" "|"] ∧
      Workflow.Assigned .plain .strokes now "ann" "|" "cat" ended := by
  intro world now ended
  have reached : world.Reached .plain .strokes .standard :=
    ⟨_, ⟨0⟩, 0, by simp [Operation.users, Community.plain, UserId.Plain], rfl⟩
  exact ⟨by decide +kernel, by decide +kernel, reached.assigned Surroundings.fresh_strokes
    (by simp [Community.plain, UserId.Plain]) (by simp [Community.plain, UserId.Plain]) "|" ⟨3⟩⟩

end World
end Handoff
