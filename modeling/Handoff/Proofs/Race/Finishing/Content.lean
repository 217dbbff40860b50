import Handoff.Proofs.Race.Finishing.Runs
import Handoff.Proofs.Race.Outage

/-!
# The content that is told

As long as records are only deleted, what is read of one is what it has been from the beginning.  So
whoever completes or removes a task tells a content that was stored.
-/

namespace Handoff

theorem Store.Paired.id_eq {community : Community} {store : Store} {task : TaskId} {content : Task}
    (paired : store.Paired community) (stored : store.Records task content) :
    content.id = task := by
  obtain ⟨bytes, found, decoded⟩ := stored
  obtain ⟨other, same, own⟩ := paired.own task bytes found
  cases decoded.symm.trans same
  exact own

/-- The records of a store are records of an older one. -/
def Store.RecordsFrom (store old : Store) : Prop :=
  ∀ task bytes, store.get? (Key.record task) = some bytes →
    old.get? (Key.record task) = some bytes

namespace Contract

/-- Records are read and deleted, and what is read is from an earlier store. -/
def deleting (old : Store) : Contract where
  allows
    | .get _ | .delete _ => True
    | .set .. => False
    | .compareAndSet key .. => Key.isTray key = true
  promises
    | .call (.get key), .ok (some bytes) =>
      ∀ task, key = Key.record task → old.get? (Key.record task) = some bytes
    | _, _ => True

theorem answer_deleting {old : Store} {around : Surroundings} (action : Action) (world : World)
    (permitted : (deleting old).Permits action) (begins : world.store.RecordsFrom old) :
    (deleting old).promises action (World.answer around action world).1 ∧
      (World.answer around action world).2.store.RecordsFrom old := by
  cases action with
  | newTaskId | now | nameOf | note => exact ⟨trivial, begins⟩
  | call request =>
      cases request with
      | set key value => exact permitted.elim
      | get key =>
          refine ⟨?_, begins⟩
          change (deleting old).promises (.call (.get key)) (.ok (world.store.get? key))
          cases found : world.store.get? key with
          | none => trivial
          | some bytes =>
              rintro task rfl
              exact begins task bytes found
      | delete key =>
          refine ⟨trivial, fun task bytes found => begins task bytes ?_⟩
          change (world.store.erase key).get? (Key.record task) = some bytes at found
          rw [Store.get?_erase] at found
          split at found
          · cases found
          · exact found
      | compareAndSet key expected value =>
          have elsewhere (task : TaskId) : Key.record task ≠ key := by
            rintro rfl
            cases permitted.symm.trans (Key.isTray_record task)
          refine ⟨?_, fun task bytes found => begins task bytes ?_⟩
          · simp only [World.answer, Store.perform]
            split <;> trivial
          · simp only [World.answer, Store.perform] at found
            split at found
            · rwa [Store.get?_insert_of_ne _ _ (elsewhere task)] at found
            · exact found

end Contract

section
variable {old : Store} {budget : Nat}

open Contract (deleting)
open Attempt (Honours honours_pure honours_throw honours_note honours_lift)

/-- A content that is told is that of some record. -/
def Store.Tells (old : Store) (told : Option Task) : Prop :=
  ∀ content ∈ told, ∃ task, old.Records task content

theorem Store.tells_none (old : Store) : old.Tells none := by
  rintro content ⟨⟩

theorem Store.Tells.or {told more : Option Task} (first : old.Tells told)
    (second : old.Tells more) : old.Tells (told.or more) := by
  cases told with
  | none => exact second
  | some content => exact first

theorem Trays.honours_deleting_remove (user : UserId) (tray : Tray) (task : TaskId) :
    Honours (deleting old) (fun _ => True) (remove budget user tray task) :=
  honours_alter trivial fun _ _ _ _ _ _ => ⟨Key.isTray_tray user tray, trivial⟩

namespace Workflow

theorem honours_deleting_dropRecord (task : TaskId) :
    (dropRecord task).Honours (deleting old) old.Tells := by
  have taking : Honours (deleting old) (fun content => old.Records task content)
      (Records.take task) :=
    (Records.honours_take trivial trivial).mono fun content known =>
      known.imp fun bytes found => ⟨found.1 task rfl, found.2⟩
  refine Program.Honours.bind taking fun result told => ?_
  cases result with
  | ok content => exact fun other same => Option.some.inj same ▸ ⟨task, told content rfl⟩
  | error failure => exact ⟨trivial, fun _ _ => old.tells_none⟩

theorem honours_deleting_dropEntry (link : Link) (tray : Tray) :
    (dropEntry budget link tray).Honours (deleting old) fun _ => True := by
  refine Program.Honours.bind (Trays.honours_deleting_remove ..) fun result _ => ?_
  cases result with
  | ok entry => trivial
  | error failure => exact ⟨trivial, fun _ _ => trivial⟩

theorem honours_deleting_cleanUpOther (user : UserId) (task : TaskId) (link : Link) :
    (cleanUpOther budget user task link).Honours (deleting old) fun result =>
      old.Tells result.2 := by
  refine Program.Honours.bind (Trays.honours_locate? fun _ => trivial) fun result _ => ?_
  split
  · split
    · exact (honours_deleting_dropEntry link _).bind fun _ _ =>
        (honours_deleting_dropRecord link.task).bind fun _ told => told
    · exact ⟨trivial, fun _ _ => old.tells_none⟩
  · exact ⟨trivial, fun _ _ => (honours_deleting_dropRecord link.task).bind fun _ told => told⟩
  · exact ⟨trivial, fun _ _ => old.tells_none⟩

theorem honours_deleting_cleanUp (user : UserId) (entry : Entry) :
    (cleanUp budget user entry).Honours (deleting old) fun cleanup => old.Tells cleanup.task := by
  refine (honours_deleting_dropRecord entry.task).bind fun own told => ?_
  cases entry.link with
  | none => exact told
  | some link =>
      exact (honours_deleting_cleanUpOther user entry.task link).bind fun _ more => told.or more

theorem honours_deleting_takeOut (policy : Policy) (user : UserId) (task : TaskId)
    (event : Event) :
    Honours (deleting old) (fun result => old.Tells result.2.task)
      (takeOut policy user task event) := by
  have locating : Honours (deleting old) (fun _ => True) (locate user task) := by
    refine (Trays.honours_locate? fun _ => trivial).bind fun found _ => ?_
    cases found with
    | none => exact honours_throw _
    | some located => exact honours_pure trivial
  refine locating.bind fun located _ => ?_
  refine (Trays.honours_deleting_remove ..).bind fun _ _ => ?_
  refine (honours_lift (honours_deleting_cleanUp user located.entry)).bind fun cleanup told => ?_
  exact (honours_note event).bind fun _ _ => honours_pure told

end Workflow

/-- Whoever completes or removes a task tells a content that was stored, if any. -/
theorem Operation.honours_deleting_reply (policy : Policy) {operation : Operation} {user : UserId}
    {task : TaskId}
    (finishes : operation = .complete user task ∨ operation = .remove user task) :
    Honours (deleting old) (fun reply => old.Tells reply.content?) (operation.reply policy) := by
  rcases finishes with rfl | rfl
  · exact .map _ ((Workflow.honours_deleting_takeOut ..).bind fun _ told => honours_pure told)
  · exact .map _ ((Workflow.honours_deleting_takeOut ..).bind fun _ told => honours_pure told)

/-- In a race of players that only complete and remove tasks, what is told was stored. -/
theorem Race.tells_of_result? {ι : Type} [DecidableEq ι] {around : Surroundings} {world : World}
    {operations : ι → Operation} {policies : ι → Policy}
    (finishes : ∀ player, ∃ user task, operations player = .complete user task ∨
      operations player = .remove user task) (schedule : List (Instant × ι)) {player : ι}
    {reply : Reply}
    (ended : ((Race.start world fun player =>
      ((operations player).reply (policies player)).run).run around schedule).result? player =
        some (.ok reply)) : world.store.Tells reply.content? := by
  let contract := Contract.deleting world.store
  have honours (player : ι) : ((operations player).reply (policies player)).run.Honours contract
      fun result => ∀ reply, result = .ok reply → world.store.Tells reply.content? := by
    obtain ⟨user, task, same⟩ := finishes player
    exact Operation.honours_deleting_reply (policies player) same
  have refuses (request : Call) (outage : Outage) :
      contract.promises (.call request) (.error outage) := by
    cases request <;> trivial
  have answers (action : Action) (now : World) (permitted : contract.Permits action)
      (kept : now.store.RecordsFrom world.store) :
      contract.promises action (World.answer around action now).1 ∧
        (World.answer around action now).2.store.RecordsFrom world.store :=
    Contract.answer_deleting action now permitted kept
  have kept := runAmid_keeps (·.RecordsFrom world.store) refuses answers
    (schedule.map fun turn => ⟨turn.1, turn.2, none⟩)
    (fun _ _ => id : (start world _).world.store.RecordsFrom world.store) honours
  rw [runAmid_map] at kept
  exact (kept.2 player).of_result? ended reply rfl

end
end Handoff
