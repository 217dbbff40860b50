import Handoff.Proofs.Pairing.Runs

/-!
# Links are mutual

After any operations on an empty store, every link is linked back, every task is in one place, and
there are records for exactly the tasks that are listed.
-/

namespace Handoff

namespace Holding

variable {holding : Holding} {user other : UserId} {tray place : Tray} {entry next : Entry}
  {task : TaskId}

theorem exists_entry (held : task ∈ holding.tasks) :
    ∃ user tray entry, user ∈ holding.users ∧ entry ∈ holding.entries user tray ∧
      entry.task = task := by
  cases holding with
  | gone => exact absurd held List.not_mem_nil
  | alone holder task =>
      obtain rfl := List.mem_singleton.mp held
      exact ⟨holder, .owned, .unlinked _, by simp [users],
        mem_entries_alone.mpr ⟨rfl, rfl, rfl⟩, rfl⟩
  | shared sender task receiver copy accepted =>
      rcases List.mem_cons.mp held with rfl | later
      · exact ⟨sender, .sent, .linked _ receiver copy, by simp [users],
          mem_entries_shared.mpr (.inl ⟨rfl, rfl, rfl⟩), rfl⟩
      · obtain rfl := List.mem_singleton.mp later
        exact ⟨receiver, Holding.place accepted, .linked _ sender task, by simp [users],
          mem_entries_shared.mpr (.inr ⟨rfl, rfl, rfl⟩), rfl⟩

theorem place_eq (distinct : holding.tasks.Nodup) (held : entry ∈ holding.entries user tray)
    (next_held : next ∈ holding.entries other place) (same : entry.task = next.task) :
    user = other ∧ tray = place := by
  cases holding with
  | gone => exact absurd held List.not_mem_nil
  | alone holder task =>
      obtain ⟨rfl, rfl, _⟩ := mem_entries_alone.mp held
      obtain ⟨rfl, rfl, _⟩ := mem_entries_alone.mp next_held
      exact ⟨rfl, rfl⟩
  | shared sender task receiver copy accepted =>
      have differs : task ≠ copy := by simpa [tasks] using distinct
      rcases mem_entries_shared.mp held with ⟨rfl, rfl, rfl⟩ | ⟨rfl, rfl, rfl⟩ <;>
        rcases mem_entries_shared.mp next_held with ⟨rfl, rfl, rfl⟩ | ⟨rfl, rfl, rfl⟩
      · exact ⟨rfl, rfl⟩
      · exact absurd same differs
      · exact absurd same.symm differs
      · exact ⟨rfl, rfl⟩

theorem eq_owned (held : entry ∈ holding.entries user tray) (unlinked : entry.link = none) :
    tray = .owned := by
  cases holding with
  | gone => exact absurd held List.not_mem_nil
  | alone holder task => exact (mem_entries_alone.mp held).2.1
  | shared sender task receiver copy accepted =>
      rcases mem_entries_shared.mp held with ⟨_, _, rfl⟩ | ⟨_, _, rfl⟩
      · cases unlinked
      · cases unlinked

/-- The sender's entry is linked to the receiver's, which is linked back. -/
theorem exists_receiver (held : entry ∈ holding.entries user .sent) :
    ∃ receiver copy place, receiver ∈ holding.users ∧ entry.link = some ⟨receiver, copy⟩ ∧
      place ≠ .sent ∧ .linked copy user entry.task ∈ holding.entries receiver place := by
  cases holding with
  | gone => exact absurd held List.not_mem_nil
  | alone holder task => cases (mem_entries_alone.mp held).2.1
  | shared sender task receiver copy accepted =>
      rcases mem_entries_shared.mp held with ⟨rfl, _, rfl⟩ | ⟨_, here, _⟩
      · exact ⟨receiver, copy, Holding.place accepted, by simp [users], rfl,
          (sent_ne_place accepted).symm, mem_entries_shared.mpr (.inr ⟨rfl, rfl, rfl⟩)⟩
      · exact absurd here (sent_ne_place accepted)

/-- The receiver's entry is linked to the sender's, which is linked back. -/
theorem sender_mem {link : Link} (held : entry ∈ holding.entries user tray)
    (received : tray ≠ .sent) (linked : entry.link = some link) :
    link.user ∈ holding.users ∧
      .linked link.task user entry.task ∈ holding.entries link.user .sent := by
  cases holding with
  | gone => exact absurd held List.not_mem_nil
  | alone holder task =>
      obtain ⟨_, _, rfl⟩ := mem_entries_alone.mp held
      cases linked
  | shared sender task receiver copy accepted =>
      rcases mem_entries_shared.mp held with ⟨_, here, _⟩ | ⟨rfl, _, rfl⟩
      · exact absurd here received
      · cases linked
        exact ⟨by simp [users], mem_entries_shared.mpr (.inl ⟨rfl, rfl, rfl⟩)⟩

end Holding

namespace Store

/-- An entry is in a tray that can be read. -/
def Lists (store : Store) (user : UserId) (tray : Tray) (entry : Entry) : Prop :=
  ∃ list, store.cell (Key.tray user tray) = .entries list ∧ entry ∈ list

/-- The trays of the members can be read, their links are mutual, and they list exactly the tasks
that have a record. -/
structure Paired (community : Community) (store : Store) : Prop where
  readable : ∀ user tray, community.member user →
    ∃ list, store.cell (Key.tray user tray) = .entries list
  /-- No tray has two entries for a task. -/
  unrepeated : ∀ user tray list, community.member user →
    store.cell (Key.tray user tray) = .entries list → EntryList.Unrepeated list
  /-- A task is in one tray of one user. -/
  one_place : ∀ user other tray place entry next, community.member user →
    community.member other → store.Lists user tray entry → store.Lists other place next →
    entry.task = next.task → user = other ∧ tray = place
  /-- Only owned tasks have no link. -/
  owned : ∀ user tray entry, community.member user → store.Lists user tray entry →
    entry.link = none → tray = .owned
  /-- A task that has been sent is linked to an entry of the receiver that is linked back. -/
  sent : ∀ user entry, community.member user → store.Lists user .sent entry →
    ∃ receiver copy place, community.member receiver ∧ entry.link = some ⟨receiver, copy⟩ ∧
      place ≠ .sent ∧ store.Lists receiver place (.linked copy user entry.task)
  /-- Any other link is linked back from the sender's sent tray. -/
  linked : ∀ user tray entry link, community.member user → store.Lists user tray entry →
    tray ≠ .sent → entry.link = some link → community.member link.user ∧
      store.Lists link.user .sent (.linked link.task user entry.task)
  /-- The records are those of the listed tasks. -/
  recorded : ∀ task, (∃ bytes, store.get? (Key.record task) = some bytes) ↔
    ∃ user tray entry, community.member user ∧ store.Lists user tray entry ∧ entry.task = task
  /-- Each record lies under its own name. -/
  own : ∀ task bytes, store.get? (Key.record task) = some bytes →
    ∃ content, Task.decode bytes = .ok content ∧ content.id = task

namespace Paired

variable {community : Community} {store : Store} {user other : UserId} {tray place : Tray}
  {entry next : Entry} {link : Link}

theorem eq_of_task_eq (paired : store.Paired community) (member : community.member user)
    (other_member : community.member other) (lists : store.Lists user tray entry)
    (next_lists : store.Lists other place next) (same : entry.task = next.task) :
    entry = next := by
  obtain ⟨rfl, rfl⟩ := paired.one_place user other tray place entry next member other_member lists
    next_lists same
  obtain ⟨list, shown, mem⟩ := lists
  obtain ⟨others, others_shown, next_mem⟩ := next_lists
  cases shown.symm.trans others_shown
  exact (paired.unrepeated user tray list member shown).eq_of_task_eq mem next_mem same

theorem exists_records (paired : store.Paired community) (member : community.member user)
    (lists : store.Lists user tray entry) : ∃ content, store.Records entry.task content := by
  obtain ⟨bytes, found⟩ := (paired.recorded entry.task).mpr ⟨user, tray, entry, member, lists, rfl⟩
  obtain ⟨content, decoded, _⟩ := paired.own entry.task bytes found
  exact ⟨content, bytes, found, decoded⟩

/-- A link leads to another task. -/
theorem link_task_ne (paired : store.Paired community) (member : community.member user)
    (lists : store.Lists user tray entry) (linked : entry.link = some link) :
    link.task ≠ entry.task := by
  intro same
  by_cases sent : tray = .sent
  · subst sent
    obtain ⟨receiver, copy, place, receiver_member, leads, apart, back⟩ :=
      paired.sent user entry member lists
    cases linked.symm.trans leads
    exact apart (paired.one_place _ _ _ _ _ _ receiver_member member back lists same).2
  · obtain ⟨link_member, back⟩ := paired.linked user tray entry link member lists sent linked
    exact sent (paired.one_place _ _ _ _ _ _ member link_member lists back same.symm).2

end Paired
end Store

namespace Scene.Comprises

variable {community : Community} {around : Surroundings} {scene : Scene} {world : World}
  {holdings : List Holding} {user : UserId} {tray : Tray} {entry : Entry} {task : TaskId}

theorem lists_iff (comprises : Comprises community around holdings world.scene)
    (member : community.member user) :
    world.store.Lists user tray entry ↔
      ∃ holding ∈ holdings, entry ∈ holding.entries user tray := by
  obtain ⟨list, shown, perm⟩ := comprises.trays user tray member
  rw [← List.mem_flatMap, ← perm.mem_iff]
  constructor
  · rintro ⟨found, found_shown, mem⟩
    cases shown.symm.trans found_shown
    exact mem
  · exact fun mem => ⟨list, shown, mem⟩

theorem mem_tasks {bytes : Bytes} (comprises : Comprises community around holdings world.scene)
    (found : world.store.get? (Key.record task) = some bytes) :
    task ∈ holdings.flatMap Holding.tasks := by
  by_contra missing
  cases found.symm.trans (Store.get?_eq_of_cell_eq_value (comprises.absent task missing))

theorem eq_of_mem_tasks (comprises : Comprises community around holdings scene)
    {holding other : Holding} (mem : holding ∈ holdings) (other_mem : other ∈ holdings)
    (held : task ∈ holding.tasks) (other_held : task ∈ other.tasks) : holding = other := by
  obtain ⟨left, right, rfl⟩ := List.append_of_mem mem
  have distinct := (comprises.perm List.perm_middle).distinct
  rw [List.flatMap_cons, List.nodup_append] at distinct
  rcases List.mem_cons.mp (List.perm_middle.mem_iff.mp other_mem) with rfl | apart
  · rfl
  · have elsewhere := List.mem_flatMap.mpr ⟨other, apart, other_held⟩
    exact absurd rfl (distinct.2.2 task held task elsewhere)

/-- Where the trays consist of holdings, links are mutual. -/
theorem paired (comprises : Comprises community around holdings world.scene) :
    world.store.Paired community := by
  have member {holding : Holding} {user : UserId} (mem : holding ∈ holdings)
      (holds : user ∈ holding.users) : community.member user :=
    (comprises.proper holding mem).members user holds
  refine ⟨fun user tray here => ?_, fun user tray list _ => comprises.unrepeated _ list,
    fun user other tray place entry next here there listed next_listed same => ?_,
    fun user tray entry here listed unlinked => ?_, fun user entry here listed => ?_,
    fun user tray entry link here listed received linked => ?_, fun task => ?_,
    fun task bytes found => ?_⟩
  · obtain ⟨list, shown, _⟩ := comprises.trays user tray here
    exact ⟨list, shown⟩
  · obtain ⟨holding, mem, held⟩ := (comprises.lists_iff here).mp listed
    obtain ⟨another, another_mem, next_held⟩ := (comprises.lists_iff there).mp next_listed
    obtain rfl : holding = another :=
      comprises.eq_of_mem_tasks mem another_mem (Holding.task_mem_of_mem held)
        (same ▸ Holding.task_mem_of_mem next_held)
    exact Holding.place_eq (comprises.proper holding mem).distinct held next_held same
  · obtain ⟨holding, _, held⟩ := (comprises.lists_iff here).mp listed
    exact Holding.eq_owned held unlinked
  · obtain ⟨holding, mem, held⟩ := (comprises.lists_iff here).mp listed
    obtain ⟨receiver, copy, place, holds, linked, received, back⟩ := Holding.exists_receiver held
    exact ⟨receiver, copy, place, member mem holds, linked, received,
      (comprises.lists_iff (member mem holds)).mpr ⟨holding, mem, back⟩⟩
  · obtain ⟨holding, mem, held⟩ := (comprises.lists_iff here).mp listed
    obtain ⟨holds, back⟩ := Holding.sender_mem held received linked
    exact ⟨member mem holds, (comprises.lists_iff (member mem holds)).mpr ⟨holding, mem, back⟩⟩
  · constructor
    · rintro ⟨bytes, found⟩
      obtain ⟨holding, mem, held⟩ := List.mem_flatMap.mp (comprises.mem_tasks found)
      obtain ⟨user, tray, entry, holds, listed, rfl⟩ := Holding.exists_entry held
      exact ⟨user, tray, entry, member mem holds,
        (comprises.lists_iff (member mem holds)).mpr ⟨holding, mem, listed⟩, rfl⟩
    · rintro ⟨user, tray, entry, here, listed, rfl⟩
      obtain ⟨holding, mem, held⟩ := (comprises.lists_iff here).mp listed
      obtain ⟨bytes, _, shown, _⟩ := comprises.recorded entry.task
        (List.mem_flatMap.mpr ⟨holding, mem, Holding.task_mem_of_mem held⟩)
      exact ⟨bytes, Store.get?_eq_of_cell_eq_value shown⟩
  · obtain ⟨value, content, shown, decoded, own⟩ :=
      comprises.recorded task (comprises.mem_tasks found)
    cases found.symm.trans (Store.get?_eq_of_cell_eq_value shown)
    exact ⟨content, decoded, own⟩

end Scene.Comprises

namespace World

/-- After any operations of members on an empty store, links are mutual and there are records for
exactly the listed tasks. -/
theorem paired_of_steps {community : Community} {around : Surroundings} (fresh : around.Fresh)
    (policy : Policy) (turns : List (Instant × Operation))
    (members : ∀ turn ∈ turns, ∀ user ∈ turn.2.users, community.member user) (clock : Instant)
    (issued : Nat) :
    (steps around policy ⟨.empty, clock, issued⟩ turns).store.Paired community := by
  obtain ⟨holdings, comprises⟩ :=
    exists_comprises_steps fresh policy turns members (comprises_empty clock issued)
  exact comprises.paired

/-- Links are mutual after a task has been sent and accepted, and another operation has failed. -/
theorem paired_of_sent_and_accepted :
    ((World.mk .empty ⟨0⟩ 0).steps .strokes .standard
      [(⟨1⟩, .send "ann" "bob" "Call" "" none), (⟨2⟩, .accept "bob" "||"),
        (⟨3⟩, .remove "ann" "||")]).store.Paired .plain := by
  refine paired_of_steps Surroundings.fresh_strokes .standard _ ?_ ⟨0⟩ 0
  simp [Operation.users, Community.plain, UserId.Plain]

end World
end Handoff
