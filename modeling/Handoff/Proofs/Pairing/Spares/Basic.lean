import Handoff.Proofs.Pairing.Paired

/-!
# What an operation may touch

An operation of one user leaves the trays and records of another as they are, except for entries
that are linked to the first.
-/

namespace Handoff

namespace EntryList

/-- What may become of the entries in a tray of somebody else, on behalf of a user. -/
inductive Touched (user : UserId) (tray : Tray) (list : List Entry) : List Entry → Prop
  | kept : Touched user tray list list
  /-- An entry that is linked to the user has been taken out. -/
  | lost {entry : Entry} (first : find? entry.task list = some entry)
    (linked : entry.partner = some user) : Touched user tray list (erase entry.task list)
  /-- A received entry that is linked to the user has come to the front. -/
  | raised {entry : Entry} (received : tray = .received)
    (first : find? entry.task list = some entry) (linked : entry.partner = some user) :
    Touched user tray list (entry :: erase entry.task list)
  /-- A new entry that is linked to the user has been received. -/
  | given {entry : Entry} (received : tray = .received) (absent : find? entry.task list = none)
    (linked : entry.partner = some user) : Touched user tray list (list ++ [entry])

variable {list next : List Entry} {entry : Entry} {task : TaskId} {user : UserId} {tray : Tray}

/-- Erasing an entry that is dropped anyway does not show. -/
theorem filter_erase_of_find? {keep : Entry → Bool} (first : find? task list = some entry)
    (dropped : keep entry = false) : (erase task list).filter keep = list.filter keep := by
  induction list with
  | nil => cases first
  | cons head rest induction =>
      by_cases same : head.task = task
      · obtain rfl : head = entry := by simpa [find?, same] using first
        simp [erase, same, dropped]
      · have later : find? task rest = some entry := by simpa [find?, same] using first
        have others : (rest.eraseP (·.task == task)).filter keep = rest.filter keep :=
          induction later
        simp [erase, same, List.filter_cons, others]

theorem keep_of_filter_eq {keep : TaskId → Bool} (only : list.filter (keep ·.task) = [entry]) :
    keep entry.task = true := by
  have mem : entry ∈ list.filter (keep ·.task) := by simp [only]
  exact (List.mem_filter.mp mem).2

/-- The only kept entry is the first one for its task, and erasing it leaves the others. -/
theorem filter_not_eq_erase {keep : TaskId → Bool}
    (only : list.filter (keep ·.task) = [entry]) :
    list.filter (!keep ·.task) = erase entry.task list := by
  have kept := keep_of_filter_eq only
  have outside : (erase entry.task list).filter (!keep ·.task) = list.filter (!keep ·.task) :=
    filter_erase_of_not (fun task => !keep task) (by simp [kept])
  have inside : (erase entry.task list).filter (keep ·.task) = [] := by
    rw [filter_erase kept, only]
    simp [erase]
  rw [← outside]
  exact filter_not_eq_self inside

theorem Touched.filter (touched : Touched user tray list next) :
    next.filter (·.partner != some user) = list.filter (·.partner != some user) := by
  cases touched with
  | kept => rfl
  | lost first linked => exact filter_erase_of_find? first (by simp [linked])
  | raised _ first linked =>
      rw [List.filter_cons_of_neg (by simp [linked])]
      exact filter_erase_of_find? first (by simp [linked])
  | given _ _ linked => simp [linked]

end EntryList

namespace Scene

open EntryList (Touched)

/-- An entry is in a tray that can be read. -/
def Lists (scene : Scene) (user : UserId) (tray : Tray) (entry : Entry) : Prop :=
  ∃ list, scene.cells (Key.tray user tray) = .entries list ∧ entry ∈ list

/-- A record could be read, and has got another message and another description. -/
def Rewritten (before : Scene) (task : TaskId) (after : Scene) : Prop :=
  ∃ bytes content message description,
    before.cells (Key.record task) = .value (some bytes) ∧ Task.decode bytes = .ok content ∧
      after.cells (Key.record task) =
        .value (some (content.withContent message description).encode)

/-- A user has touched nothing of another but what is linked to them. -/
structure Spares (user other : UserId) (before after : Scene) : Prop where
  /-- Only entries that are linked to the user come, go or move, so that the others are where they
  were, in the same order. -/
  trays : ∀ tray, ∃ list next, before.cells (Key.tray other tray) = .entries list ∧
    after.cells (Key.tray other tray) = .entries next ∧ Touched user tray list next ∧
      next.filter (·.partner != some user) = list.filter (·.partner != some user)
  /-- A record stays as it is, unless its entry is linked to the user; then the entry may be gone, or
  the record may have got other texts. -/
  records : ∀ tray entry, before.Lists other tray entry →
    after.cells (Key.record entry.task) = before.cells (Key.record entry.task) ∨
      entry.partner = some user ∧
        (¬after.Lists other tray entry ∨ before.Rewritten entry.task after)

variable {community : Community} {around : Surroundings} {mine : TaskId → Bool}
  {before scene after : Scene} {holding changed : Holding} {user other : UserId} {tray : Tray}
  {entry : Entry}

theorem Appended.cells_record (appended : before.Appended user tray entry after) (task : TaskId) :
    after.cells (Key.record task) = before.cells (Key.record task) :=
  appended.cells_of_ne (Key.record_ne_tray task user tray)

theorem Removed.cells_record (removed : before.Removed user tray entry after) (task : TaskId) :
    after.cells (Key.record task) = before.cells (Key.record task) :=
  removed.cells_of_ne (Key.record_ne_tray task user tray)

theorem save_cells_record (scene : Scene) {content : Task} {task : TaskId}
    (differs : Key.record task ≠ Key.record content.id) :
    (scene.save content).cells (Key.record task) = scene.cells (Key.record task) :=
  put_cells_of_ne _ _ differs

/-- All trays but one are as they were. -/
theorem spares_of_touched (place : Tray)
    (readable : ∀ tray, ∃ list, before.cells (Key.tray other tray) = .entries list)
    (trays : ∀ tray, tray ≠ place →
      after.cells (Key.tray other tray) = before.cells (Key.tray other tray))
    (touched : ∃ list next, before.cells (Key.tray other place) = .entries list ∧
      after.cells (Key.tray other place) = .entries next ∧ Touched user place list next)
    (records : ∀ tray entry, before.Lists other tray entry →
      after.cells (Key.record entry.task) = before.cells (Key.record entry.task)) :
    before.Spares user other after := by
  refine ⟨fun tray => ?_, fun tray entry listed => .inl (records tray entry listed)⟩
  by_cases here : tray = place
  · obtain ⟨list, next, shown, next_shown, touched⟩ := touched
    exact ⟨list, next, here ▸ shown, here ▸ next_shown, here ▸ touched, touched.filter⟩
  · obtain ⟨list, shown⟩ := readable tray
    exact ⟨list, list, shown, (trays tray here).trans shown, .kept, rfl⟩

/-- Nothing that belongs to the other user has changed. -/
theorem spares_of_cells_eq
    (readable : ∀ tray, ∃ list, before.cells (Key.tray other tray) = .entries list)
    (trays : ∀ tray, after.cells (Key.tray other tray) = before.cells (Key.tray other tray))
    (records : ∀ tray entry, before.Lists other tray entry →
      after.cells (Key.record entry.task) = before.cells (Key.record entry.task)) :
    before.Spares user other after := by
  obtain ⟨list, shown⟩ := readable .received
  exact spares_of_touched .received readable (fun tray _ => trays tray)
    ⟨list, list, shown, (trays .received).trans shown, .kept⟩ records

/-! ## What follows from how tasks are held -/

/-- What a tray listed and lists of one task, while all else in it stays. -/
theorem Keeps.exists_lists (keeps : Keeps community around mine scene holding scene)
    (kept : Keeps community around mine scene changed after) (member : community.member other)
    (tray : Tray) : ∃ list next, scene.cells (Key.tray other tray) = .entries list ∧
      after.cells (Key.tray other tray) = .entries next ∧
      next.filter (!mine ·.task) = list.filter (!mine ·.task) ∧
      list.filter (mine ·.task) = holding.entries other tray ∧
      next.filter (mine ·.task) = changed.entries other tray := by
  obtain ⟨next, list, next_shown, shown, outside, inside⟩ := kept.holds.trays other tray member
  obtain ⟨found, _, found_shown, _, _, held⟩ := keeps.holds.trays other tray member
  cases shown.symm.trans found_shown
  exact ⟨list, next, shown, next_shown, outside, held, inside⟩

/-- A task that the other user no longer holds has been taken out of their tray. -/
theorem Keeps.touched_of_gone (keeps : Keeps community around mine scene holding scene)
    (kept : Keeps community around mine scene changed after) (member : community.member other)
    (linked : ∀ entry ∈ holding.entries other tray, entry.partner = some user)
    (gone : changed.entries other tray = []) :
    ∃ list next, scene.cells (Key.tray other tray) = .entries list ∧
      after.cells (Key.tray other tray) = .entries next ∧ Touched user tray list next := by
  obtain ⟨list, next, shown, next_shown, outside, held, inside⟩ :=
    keeps.exists_lists kept member tray
  rw [EntryList.filter_not_eq_self (inside.trans gone)] at outside
  have few : (holding.entries other tray).length ≤ 1 := holding.few_share other tray
  refine ⟨list, next, shown, next_shown, ?_⟩
  cases entries_eq : holding.entries other tray with
  | nil =>
      rw [outside, EntryList.filter_not_eq_self (held.trans entries_eq)]
      exact .kept
  | cons entry rest =>
      obtain rfl : rest = [] := by simpa [entries_eq] using few
      rw [entries_eq] at held linked
      rw [outside, EntryList.filter_not_eq_erase held]
      refine .lost ?_ (linked entry List.mem_cons_self)
      rw [← EntryList.find?_filter (EntryList.keep_of_filter_eq held), held]
      simp [EntryList.find?]

theorem Holds.mem_of_lists {share : Share} {old : Scene}
    (holds : Holds community mine old share scene) (member : community.member user)
    (ours : mine entry.task = true) (listed : scene.Lists user tray entry) :
    entry ∈ share.entries user tray := by
  obtain ⟨list, shown, mem⟩ := listed
  obtain ⟨found, _, found_shown, _, _, inside⟩ := holds.trays user tray member
  cases shown.symm.trans found_shown
  rw [← inside]
  exact List.mem_filter.mpr ⟨mem, ours⟩

/-- The record of an entry of the other user stays, unless the entry is taken from them. -/
theorem Keeps.record_spared (keeps : Keeps community around mine scene holding scene)
    (kept : Keeps community around mine scene changed after) (member : community.member other)
    (linked : ∀ entry ∈ holding.entries other tray, entry.partner = some user)
    (gone : holding.entries other tray = [] ∨ changed.entries other tray = [])
    (listed : scene.Lists other tray entry) :
    after.cells (Key.record entry.task) = scene.cells (Key.record entry.task) ∨
      entry.partner = some user ∧ ¬after.Lists other tray entry := by
  cases ours : mine entry.task with
  | false => exact .inl (kept.holds.record_eq ours)
  | true =>
      have held : entry ∈ holding.entries other tray :=
        keeps.holds.mem_of_lists member ours listed
      refine .inr ⟨linked entry held, fun still => ?_⟩
      have still_held : entry ∈ changed.entries other tray :=
        kept.holds.mem_of_lists member ours still
      rcases gone with none_before | none_after
      · exact List.not_mem_nil (none_before ▸ held)
      · exact List.not_mem_nil (none_after ▸ still_held)

/-- A task that the other user no longer holds is all that is taken from them. -/
theorem Keeps.spares_of_gone (keeps : Keeps community around mine scene holding scene)
    (kept : Keeps community around mine scene changed after) (member : community.member other)
    (linked : ∀ tray, ∀ entry ∈ holding.entries other tray, entry.partner = some user)
    (gone : ∀ tray, changed.entries other tray = []) : scene.Spares user other after := by
  constructor
  · intro tray
    obtain ⟨list, next, shown, next_shown, touched⟩ :=
      keeps.touched_of_gone kept member (linked tray) (gone tray)
    exact ⟨list, next, shown, next_shown, touched, touched.filter⟩
  · intro tray entry listed
    exact (keeps.record_spared kept member (linked tray) (.inr (gone tray)) listed).imp_right
      (And.imp_right .inl)

end Scene
end Handoff
