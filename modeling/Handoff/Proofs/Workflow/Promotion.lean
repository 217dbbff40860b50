import Handoff.Proofs.Pairing.Paired
import Handoff.Proofs.Stored.Apart
import Handoff.Proofs.Stored.Reading
import Handoff.Proofs.Stored.Unrepeated
import Handoff.Workflow.Bump

/-!
# Bumping, end to end

Bumping succeeds exactly if the sender's entry is linked to an entry that still waits for the
receiver.  Then the receiver's entry stands first, and doing it again changes nothing.  Otherwise
nothing happens.
-/

namespace Handoff

/-- A sent tray and a received tray have different keys, whoever they belong to. -/
theorem Key.sent_tray_ne_received (user other : UserId) :
    Key.tray user .sent ≠ Key.tray other .received := by
  intro same
  simp only [Key.tray, String.append_assoc, String.append_right_inj] at same
  exact Key.sent_ne_received user other same

namespace Store

/-- The first entry for a task in a tray, if the tray can be read and has one. -/
def find? (store : Store) (user : UserId) (tray : Tray) (task : TaskId) : Option Entry :=
  match store.cell (Key.tray user tray) with
  | .entries list => EntryList.find? task list
  | .value _ => none

/-- The message that is told about a bumped task: that of the receiver's record, or else that of the
sender's. -/
def messageOfEither (store : Store) (receiverTask senderTask : TaskId) : Option String :=
  ((store.content? receiverTask).or (store.content? senderTask)).map Task.message

/-- The entry for a task has come to the front of a tray, with its link.  The other entries stand
in their old order, and nothing has changed under other keys. -/
structure Promoted (before : Store) (key : String) (task : TaskId) (after : Store) : Prop where
  front : ∃ list entry, before.cell key = .entries list ∧ entry ∈ list ∧ entry.task = task ∧
    after.cell key = .entries (entry :: list.filter (·.task != task))
  kept : ∀ other, other ≠ key → after.get? other = before.get? other

variable {store : Store} {user : UserId} {tray : Tray} {task : TaskId} {entry : Entry}
  {list : List Entry}

theorem find?_eq_some_iff : store.find? user tray task = some entry ↔
    ∃ list, store.cell (Key.tray user tray) = .entries list ∧
      EntryList.find? task list = some entry := by
  unfold find?
  cases store.cell (Key.tray user tray) <;> simp

theorem find?_of_cell (shown : store.cell (Key.tray user tray) = .entries list) :
    store.find? user tray task = EntryList.find? task list := by
  rw [find?, shown]

theorem Unrepeated.of_cell (unrepeated : store.Unrepeated)
    (shown : store.cell (Key.tray user tray) = .entries list) : EntryList.Unrepeated list :=
  unrepeated.of_shows (read_of_cell_eq_entries shown)

theorem Unrepeated.lists_iff (unrepeated : store.Unrepeated) :
    store.Lists user tray entry ∧ entry.task = task ↔
      store.find? user tray task = some entry := by
  rw [find?_eq_some_iff]
  constructor
  · rintro ⟨⟨list, shown, mem⟩, same⟩
    exact ⟨list, shown, (unrepeated.of_cell shown).find?_eq_some_iff.mpr ⟨mem, same⟩⟩
  · rintro ⟨list, shown, found⟩
    obtain ⟨mem, same⟩ := (unrepeated.of_cell shown).find?_eq_some_iff.mp found
    exact ⟨⟨list, shown, mem⟩, same⟩

/-- The store with an entry at the front of a received tray. -/
def promote (store : Store) (user : UserId) (entry : Entry) (list : List Entry) : Store :=
  store.insert (Key.tray user .received)
    (EntryList.encode (entry :: EntryList.erase entry.task list))

theorem cell_promote (shown : store.cell (Key.tray user .received) = .entries list)
    (mem : entry ∈ list) : (store.promote user entry list).cell (Key.tray user .received) =
      .entries (entry :: EntryList.erase entry.task list) := by
  have linked := wellLinked_of_cell_eq_entries shown
  have well : EntryList.WellLinked (entry :: EntryList.erase entry.task list) := by
    intro other other_mem
    rcases List.mem_cons.mp other_mem with rfl | old
    · exact linked other mem
    · exact linked other (List.mem_of_mem_eraseP old)
  rw [promote, store.cell_insert_encode (Key.isTray_tray user .received) well, Function.update_self]

theorem get?_promote_of_ne {key : String} (other : key ≠ Key.tray user .received) :
    (store.promote user entry list).get? key = store.get? key :=
  store.get?_insert_of_ne _ other

theorem content?_promote (task : TaskId) :
    (store.promote user entry list).content? task = store.content? task := by
  unfold content?
  rw [get?_promote_of_ne (Key.record_ne_tray task user .received)]

theorem messageOfEither_promote (receiverTask senderTask : TaskId) :
    (store.promote user entry list).messageOfEither receiverTask senderTask =
      store.messageOfEither receiverTask senderTask := by
  simp only [messageOfEither, content?_promote]

theorem find?_sent_promote (other : UserId) (task : TaskId) :
    (store.promote user entry list).find? other .sent task = store.find? other .sent task := by
  unfold find?
  rw [cell_congr (get?_promote_of_ne (Key.sent_tray_ne_received other user))]

/-- Where no tray repeats a task, the entry has come to the front and nothing else has changed. -/
theorem Unrepeated.promoted (unrepeated : store.Unrepeated)
    (shown : store.cell (Key.tray user .received) = .entries list)
    (found : EntryList.find? task list = some entry) :
    store.Promoted (Key.tray user .received) task (store.promote user entry list) where
  front := by
    obtain rfl := EntryList.task_eq_of_find? found
    have mem := EntryList.mem_of_find? found
    refine ⟨list, entry, shown, mem, rfl, ?_⟩
    rw [cell_promote shown mem, (unrepeated.of_cell shown).erase_eq_filter]
  kept _ other := get?_promote_of_ne other

theorem get?_promote_promote (key : String) :
    ((store.promote user entry list).promote user entry
      (entry :: EntryList.erase entry.task list)).get? key =
        (store.promote user entry list).get? key := by
  have same : EntryList.erase entry.task (entry :: EntryList.erase entry.task list) =
      EntryList.erase entry.task list := by
    simp [EntryList.erase]
  by_cases here : key = Key.tray user .received
  · subst here
    simp [promote, same]
  · rw [get?_promote_of_ne here]

end Store

variable {around : Surroundings} {world : World} {user : UserId} {tray : Tray} {task : TaskId}

/-- An entry is brought to the front of a tray that can be written. -/
theorem Trays.run_bump {conditions : Conditions} {entry : Entry} {list : List Entry}
    (budget : Nat) (free : conditions.barred (Key.tray user .received) = false)
    (shown : world.store.cell (Key.tray user .received) = .entries list)
    (found : EntryList.find? task list = some entry) :
    conditions.run (bump budget user .received task).run world =
      (.ok (), { world with store := world.store.promote user entry list }) := by
  obtain rfl := EntryList.task_eq_of_find? found
  rw [bump, run_alter budget free shown,
    (Change.bump_eq_ok_iff user .received entry.task).mpr ⟨entry, found, rfl⟩]
  rfl

namespace Workflow

open Conditions (calm)

/-- The message is that of the first of the two records that can be read. -/
theorem run_messageOfEither (conditions : Conditions) (world : World)
    (receiverTask senderTask : TaskId) :
    conditions.run (messageOfEither receiverTask senderTask) world =
      (world.store.messageOfEither receiverTask senderTask, world) := by
  obtain ⟨theirs, their_run, their_content⟩ := Records.run_load conditions world receiverTask
  obtain ⟨ours, our_run, our_content⟩ := Records.run_load conditions world senderTask
  unfold messageOfEither Store.messageOfEither
  rw [Conditions.run_after, their_run, ← their_content, ← our_content]
  cases theirs with
  | ok content => rfl
  | error failure =>
      dsimp only
      rw [Conditions.run_after, Conditions.run_after]
      have noted : conditions.run (Program.perform (.note .receiverCopyUnreadable)) world =
          ((), world) := rfl
      rw [noted, our_run]
      cases ours <;> rfl

theorem run_bump_of_found (policy : Policy) {link : Link} {entry : Entry} {list : List Entry}
    (sent : world.store.find? user .sent task = some ⟨task, some link⟩)
    (shown : world.store.cell (Key.tray link.user .received) = .entries list)
    (found : EntryList.find? link.task list = some entry) :
    (bump policy user task).run.run around world =
      (.ok ⟨world.store.messageOfEither link.task task, link.user, link.task⟩,
        { world with store := world.store.promote link.user entry list }) := by
  obtain ⟨mine, mine_shown, mine_found⟩ := Store.find?_eq_some_iff.mp sent
  have located : EntryList.locate? task mine =
      some (⟨task, some link⟩, mine.findIdx (·.task == task)) := by
    simp [EntryList.locate?, mine_found]
  rw [← Conditions.run_calm, bump, Conditions.run_bind, Trays.run_find? task mine_shown, located]
  dsimp only
  rw [Conditions.run_bind, Trays.run_bump policy.budget rfl shown found]
  dsimp only
  rw [Conditions.run_bind, Conditions.run_lift, run_messageOfEither, Store.messageOfEither_promote]
  rfl

/-- What has been bumped is bumped again with the same result. -/
theorem run_bump_again (policy : Policy) {link : Link} {entry : Entry} {list : List Entry}
    (sent : world.store.find? user .sent task = some ⟨task, some link⟩)
    (shown : world.store.cell (Key.tray link.user .received) = .entries list)
    (found : EntryList.find? link.task list = some entry) :
    let promoted := world.store.promote link.user entry list
    (bump policy user task).run.run around { world with store := promoted } =
      (.ok ⟨world.store.messageOfEither link.task task, link.user, link.task⟩,
        { world with
          store := promoted.promote link.user entry
            (entry :: EntryList.erase entry.task list) }) := by
  intro promoted
  have first : EntryList.find? link.task (entry :: EntryList.erase entry.task list) =
      some entry := by
    simp [EntryList.find?, EntryList.task_eq_of_find? found]
  rw [run_bump_of_found policy ((Store.find?_sent_promote user task).trans sent)
    (Store.cell_promote shown (EntryList.mem_of_find? found)) first,
    Store.messageOfEither_promote]

/-- Bumping finds what it is about, or it fails without effect. -/
theorem run_bump_cases (around : Surroundings) (policy : Policy) (world : World) (user : UserId)
    (task : TaskId) :
    (∃ link list entry, world.store.find? user .sent task = some ⟨task, some link⟩ ∧
        world.store.cell (Key.tray link.user .received) = .entries list ∧
        EntryList.find? link.task list = some entry) ∨
      ∃ failure, (bump policy user task).run.run around world = (.error failure, world) ∧
        (failure.kind = .invalidOperation ↔
          world.store.find? user .sent task = some ⟨task, none⟩) ∧
        ∀ link, world.store.find? user .sent task = some ⟨task, some link⟩ →
          world.store.find? link.user .received link.task = none := by
  rw [← Conditions.run_calm, bump, Conditions.run_bind]
  cases mine_shown : world.store.cell (Key.tray user .sent) with
  | value bytes =>
      obtain ⟨cause, run⟩ := Trays.run_find?_of_value (calm around) task mine_shown
      refine .inr ⟨_, by rw [run], ?_⟩
      simp [Store.find?, mine_shown, Failure.kind]
  | entries mine =>
      rw [Trays.run_find? task mine_shown]
      dsimp only
      cases mine_found : EntryList.find? task mine with
      | none =>
          refine .inr ⟨.notSent task user, ?_, ?_⟩
          · simp only [EntryList.locate?, mine_found]
            rfl
          · simp [Store.find?, mine_shown, mine_found, Failure.kind]
      | some held =>
          obtain ⟨own, link⟩ := held
          obtain rfl : own = task := EntryList.task_eq_of_find? mine_found
          simp only [EntryList.locate?, mine_found]
          cases link with
          | none =>
              refine .inr ⟨.noReceiver own, rfl, ?_⟩
              simp [Store.find?, mine_shown, mine_found, Failure.kind]
          | some link =>
              have sent : world.store.find? user .sent own = some ⟨own, some link⟩ := by
                rw [Store.find?_of_cell mine_shown, mine_found]
              dsimp only [Option.map_some]
              rw [Conditions.run_bind, Trays.bump]
              cases shown : world.store.cell (Key.tray link.user .received) with
              | value bytes =>
                  obtain ⟨cause, run⟩ := Trays.run_alter_of_value (calm around)
                    policy.budget (.bump link.user .received link.task) shown
                  refine .inr ⟨_, by rw [run], ?_⟩
                  rw [sent]
                  simp [Store.find?, shown, Failure.kind]
              | entries list =>
                  cases found : EntryList.find? link.task list with
                  | some entry => exact .inl ⟨link, list, entry, sent, shown, found⟩
                  | none =>
                      refine .inr ⟨.entryMissing link.task .received link.user, ?_, ?_⟩
                      · rw [Trays.run_alter policy.budget rfl shown]
                        simp only [Change.bump, found]
                      · rw [sent]
                        simp [Store.find?, shown, found, Failure.kind]

/-- Where no tray repeats a task, bumping succeeds exactly if the sender's entry is linked to an
entry in the receiver's received tray.  That entry comes to the front, what is told is the message
of the first of the two records that can be read, and bumping again tells the same and changes
nothing.  A bump that fails changes nothing, and it is not allowed exactly if the sender's entry has
no link. -/
theorem bump_of_unrepeated (around : Surroundings) (policy : Policy) (world : World)
    (user : UserId) (task : TaskId) (unrepeated : world.store.Unrepeated) :
    let bump := (bump policy user task).run
    let first := bump.run around world
    let second := bump.run around first.2
    ((∃ promotion, first.1 = .ok promotion) ↔
      ∃ link entry, world.store.Lists user .sent ⟨task, some link⟩ ∧
        world.store.Lists link.user .received entry ∧ entry.task = link.task) ∧
    (∀ promotion, first.1 = .ok promotion →
      world.store.Lists user .sent ⟨task, some ⟨promotion.partner, promotion.partnerTask⟩⟩ ∧
      world.store.Promoted (Key.tray promotion.partner .received) promotion.partnerTask
        first.2.store ∧
      promotion.message = world.store.messageOfEither promotion.partnerTask task ∧
      second.1 = first.1 ∧ ∀ key, second.2.store.get? key = first.2.store.get? key) ∧
    ∀ failure, first.1 = .error failure → first.2 = world ∧
      (failure.kind = .invalidOperation ↔ world.store.Lists user .sent ⟨task, none⟩) := by
  have sent_iff (link : Option Link) : world.store.Lists user .sent ⟨task, link⟩ ↔
      world.store.find? user .sent task = some ⟨task, link⟩ := by
    rw [← unrepeated.lists_iff, and_iff_left rfl]
  have waiting_iff (link : Link) : (∃ entry, world.store.Lists link.user .received entry ∧
      entry.task = link.task) ↔
        ∃ entry, world.store.find? link.user .received link.task = some entry :=
    exists_congr fun entry => unrepeated.lists_iff
  simp only [exists_and_left, sent_iff, waiting_iff]
  rcases run_bump_cases around policy world user task with
    ⟨link, list, entry, sent, shown, found⟩ | ⟨failure, run, kind, nowhere⟩
  · have waiting : world.store.find? link.user .received link.task = some entry := by
      rw [Store.find?_of_cell shown, found]
    rw [run_bump_of_found policy sent shown found]
    rw [run_bump_again policy sent shown found]
    refine ⟨?_, ?_, ?_⟩
    · exact iff_of_true ⟨_, rfl⟩ ⟨link, sent, entry, waiting⟩
    · rintro promotion ⟨⟩
      exact ⟨sent, unrepeated.promoted shown found, rfl, rfl, Store.get?_promote_promote⟩
    · rintro failure ⟨⟩
  · rw [run]
    refine ⟨?_, ?_, ?_⟩
    · refine iff_of_false (by rintro ⟨_, ⟨⟩⟩) ?_
      rintro ⟨link, sent, entry, waiting⟩
      cases (nowhere link sent).symm.trans waiting
    · rintro promotion ⟨⟩
    · rintro other ⟨⟩
      exact ⟨rfl, kind⟩

/-- Neither of the two records can be read, and the entry comes to the front without a message. -/
theorem bump_without_records :
    let world : World :=
      ⟨(Store.empty.insert (Key.tray "ann" .sent)
        (EntryList.encode [.linked "mine" "bob" "theirs"])).insert (Key.tray "bob" .received)
        (EntryList.encode [.unlinked "other", .linked "theirs" "ann" "mine"]), ⟨0⟩, 0⟩
    let bumped := (bump .standard "ann" "mine").run.run .strokes world
    world.store.Unrepeated ∧ bumped.1 = .ok ⟨none, "bob", "theirs"⟩ ∧
      world.store.Promoted (Key.tray "bob" .received) "theirs" bumped.2.store := by
  intro world bumped
  have unrepeated : world.store.Unrepeated :=
    (Store.unrepeated_empty.insert_tray _ (by simp [EntryList.Unrepeated])).insert_tray _
      (by simp [EntryList.Unrepeated])
  have told : bumped.1 = .ok ⟨none, "bob", "theirs"⟩ := by decide +kernel
  have bumping := bump_of_unrepeated .strokes .standard world "ann" "mine" unrepeated
  clear_value world
  exact ⟨unrepeated, told, (bumping.2.1 _ told).2.1⟩

end Workflow
end Handoff
