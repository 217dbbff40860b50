import Handoff.Proofs.Pairing.Residue
import Handoff.Proofs.Pairing.Paired
import Handoff.Proofs.Race.Sharing

/-!
# A shared task at the beginning of a race

In a world that operations have reached, a sender shares a task with a receiver.  Nobody else's
entries and records have to do with the task.
-/

namespace Handoff

open Scene (Holds Comprises)

/-- A task that a sender shares with a receiver, and the tasks that a race for it is about. -/
structure Pair (community : Community) (around : Surroundings) (world : World) where
  sender : UserId
  task : TaskId
  receiver : UserId
  /-- The receiver's record. -/
  copy : TaskId
  accepted : Bool
  /-- The two records, and those that are made later. -/
  mine : TaskId → Bool
  sender_member : community.member sender
  receiver_member : community.member receiver
  task_mine : mine task = true
  copy_mine : mine copy = true
  later_mine : ∀ n, world.issued ≤ n → mine (around.newTaskId n) = true
  differs : task ≠ copy
  later_ne_task : ∀ n, world.issued ≤ n → around.newTaskId n ≠ task
  later_ne_copy : ∀ n, world.issued ≤ n → around.newTaskId n ≠ copy
  task_named : task ≠ ""
  copy_named : copy ≠ ""
  holds : Holds community mine world.scene (Holding.shared sender task receiver copy accepted).share
    world.scene
  /-- No other entry is linked to the sender's. -/
  sole : ∀ user tray entry, community.member user → world.store.Lists user tray entry →
    entry.link = some ⟨sender, task⟩ → entry.task = copy

namespace Pair

variable {community : Community} {around : Surroundings} {world : World}
  (pair : Pair community around world)

def sent : Entry := .linked pair.task pair.receiver pair.copy

def received : Entry := .linked pair.copy pair.sender pair.task

theorem received_wellLinked : pair.received.WellLinked :=
  Entry.wellLinked_linked _ (community.named _ pair.sender_member) pair.task_named

def ownedKey : String := Key.tray pair.receiver .owned

def receivedKey : String := Key.tray pair.receiver .received

def sentKey : String := Key.tray pair.sender .sent

theorem receivedKey_ne_ownedKey : pair.receivedKey ≠ pair.ownedKey :=
  fun same => absurd (Key.tray_injective same) (by simp)

theorem sentKey_ne_ownedKey : pair.sentKey ≠ pair.ownedKey := fun same =>
  absurd (community.distinct _ _ _ _ pair.sender_member pair.receiver_member same).2 (by simp)

theorem sentKey_ne_receivedKey : pair.sentKey ≠ pair.receivedKey := fun same =>
  absurd (community.distinct _ _ _ _ pair.sender_member pair.receiver_member same).2 (by simp)

end Pair

theorem Scene.Holds.lists_iff {community : Community} {mine : TaskId → Bool} {old : Scene}
    {share : Share} {world : World} {user : UserId} {tray : Tray} {entry : Entry}
    (holds : Holds community mine old share world.scene) (member : community.member user)
    (ours : mine entry.task = true) :
    world.store.Lists user tray entry ↔ entry ∈ share.entries user tray := by
  obtain ⟨list, _, shown, _, _, inside⟩ := holds.trays user tray member
  rw [← inside, List.mem_filter]
  constructor
  · rintro ⟨found, found_shown, mem⟩
    cases shown.symm.trans found_shown
    exact ⟨mem, ours⟩
  · exact fun mem => ⟨list, shown, mem.1⟩

theorem Scene.Holds.lists_iff_of_not {community : Community} {mine : TaskId → Bool}
    {before after : World} {share : Share} {user : UserId} {tray : Tray} {entry : Entry}
    (holds : Holds community mine before.scene share after.scene) (member : community.member user)
    (theirs : mine entry.task = false) :
    after.store.Lists user tray entry ↔ before.store.Lists user tray entry := by
  obtain ⟨list, rest, shown, rest_shown, outside, _⟩ := holds.trays user tray member
  have same : entry ∈ list ↔ entry ∈ rest := by
    have filtered : entry ∈ list.filter (!mine ·.task) ↔ entry ∈ rest.filter (!mine ·.task) := by
      rw [outside]
    simpa [theirs] using filtered
  constructor
  · rintro ⟨found, found_shown, mem⟩
    cases shown.symm.trans found_shown
    exact ⟨rest, rest_shown, same.mp mem⟩
  · rintro ⟨found, found_shown, mem⟩
    cases rest_shown.symm.trans found_shown
    exact ⟨list, shown, same.mpr mem⟩

theorem Scene.Holds.exists_record_iff {community : Community} {mine : TaskId → Bool} {old : Scene}
    {share : Share} {world : World} {task : TaskId}
    (holds : Holds community mine old share world.scene) (ours : mine task = true) :
    (∃ bytes, world.store.get? (Key.record task) = some bytes) ↔ share.stored task := by
  constructor
  · rintro ⟨bytes, found⟩
    by_contra missing
    cases found.symm.trans (Store.get?_eq_of_cell_eq_value (holds.absent task ours missing))
  · intro stored
    obtain ⟨bytes, _, shown, _⟩ := holds.recorded task ours stored
    exact ⟨bytes, Store.get?_eq_of_cell_eq_value shown⟩

theorem Holding.exists_shared {holding : Holding} {sender receiver : UserId} {task copy : TaskId}
    (held : .linked task receiver copy ∈ holding.entries sender .sent) :
    ∃ accepted, holding = .shared sender task receiver copy accepted := by
  cases holding with
  | gone => exact absurd held List.not_mem_nil
  | alone user other => cases (mem_entries_alone.mp held).2.1
  | shared user other another next accepted =>
      rcases mem_entries_shared.mp held with ⟨rfl, _, same⟩ | ⟨_, here, _⟩
      · cases same
        exact ⟨accepted, rfl⟩
      · exact absurd here (sent_ne_place accepted)

/-- Only the receiver's entry is linked to the sender's. -/
theorem Store.Paired.sole {community : Community} {store : Store} (paired : store.Paired community)
    {sender receiver user : UserId} {task copy : TaskId} {tray : Tray} {entry : Entry}
    (member : community.member sender)
    (listed : store.Lists sender .sent (.linked task receiver copy))
    (user_member : community.member user) (entry_listed : store.Lists user tray entry)
    (linked : entry.link = some ⟨sender, task⟩) : entry.task = copy := by
  by_cases sends : tray = .sent
  · subst sends
    obtain ⟨other, back, place, _, same, not_sent, back_listed⟩ :=
      paired.sent user entry user_member entry_listed
    cases linked.symm.trans same
    have place_eq := paired.one_place _ _ _ _ _ _ member member listed back_listed rfl
    exact absurd place_eq.2.symm not_sent
  · obtain ⟨_, back_listed⟩ := paired.linked user tray entry _ user_member entry_listed sends linked
    obtain ⟨list, shown, mem⟩ := listed
    obtain ⟨others, others_shown, back_mem⟩ := back_listed
    cases shown.symm.trans others_shown
    have unrepeated := paired.unrepeated sender .sent list member shown
    have same := List.inj_on_of_nodup_map unrepeated mem back_mem rfl
    cases same
    rfl

theorem World.Reached.paired {community : Community} {around : Surroundings} {policy : Policy}
    {world : World} (fresh : around.Fresh) (reached : world.Reached community around policy) :
    world.store.Paired community :=
  (reached.exists_comprises fresh).elim fun _ comprises => comprises.paired

/-- A task that a sender shares is shared with a receiver, and with nobody else. -/
theorem World.Reached.exists_pair {community : Community} {around : Surroundings}
    {policy : Policy} {world : World} {sender receiver : UserId} {task copy : TaskId}
    (fresh : around.Fresh) (reached : world.Reached community around policy)
    (member : community.member sender)
    (listed : world.store.Lists sender .sent (.linked task receiver copy)) :
    ∃ pair : Pair community around world, pair.sender = sender ∧ pair.task = task ∧
      pair.receiver = receiver ∧ pair.copy = copy := by
  obtain ⟨holdings, comprises⟩ := reached.exists_comprises fresh
  have paired := comprises.paired
  obtain ⟨holding, mem, held⟩ := (comprises.lists_iff member).mp listed
  obtain ⟨accepted, rfl⟩ := Holding.exists_shared held
  obtain ⟨left, right, rfl⟩ := List.append_of_mem mem
  have first := comprises.perm List.perm_middle
  obtain ⟨⟨_, receiver_member⟩, ⟨⟨m, _, task_eq⟩, n, _, copy_eq⟩, differs⟩ :=
    Holding.proper_shared_iff.mp (first.proper _ List.mem_cons_self)
  have later_ne {one : TaskId} (one_held : one ∈ [task, copy]) (k : Nat)
      (later : world.issued ≤ k) : around.newTaskId k ≠ one :=
    first.ne_fresh fresh (List.mem_flatMap.mpr ⟨_, List.mem_cons_self, one_held⟩) later
  have apart : around.newTaskId world.issued ∉ (left ++ right).flatMap Holding.tasks := by
    intro held
    refine first.ne_fresh fresh ?_ le_rfl rfl
    rw [List.flatMap_cons, List.mem_append]
    exact .inr held
  obtain ⟨mine, _, _, keeps⟩ := first.exists_keeps fresh apart
  exact ⟨⟨sender, task, receiver, copy, accepted, mine, member, receiver_member,
    keeps.ours task (by simp [Holding.tasks]), keeps.ours copy (by simp [Holding.tasks]),
    keeps.fresh_ours, differs, later_ne (by simp), later_ne (by simp), task_eq ▸ fresh.named m,
    copy_eq ▸ fresh.named n, keeps.holds,
    fun user tray entry user_member => paired.sole member listed user_member⟩, rfl, rfl, rfl, rfl⟩

end Handoff
