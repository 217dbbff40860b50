import Handoff.Proofs.Program.Service
import Handoff.Proofs.Stored.Trays

/-!
# What operations on records and trays ensure

Each operation fails and leaves the world as it was, or does its work with one call.  It is told why
a change of a tray fails: one of its calls is refused, the tray cannot be read, or the change is
refused for what it holds.
-/

namespace Handoff

/-- A call that writes under a key is carried out. -/
def Service.Writes (service : Service) (key : String) : Prop :=
  ∃ request, request.isWrite = true ∧ request.key = key ∧ service.serves request

/-- Why a change of a tray fails. -/
inductive Service.Spoils {β : Type} (service : Service) (world : World) (key : String)
    (change : Change β) : Prop
  | refused (request : Call) (about : request.key = key) (refuses : service.refuses request)
  | unreadable (hidden : ∀ list, world.store.cell key ≠ .entries list)
  | rejected (list : List Entry) (failure : Failure) (shown : world.store.cell key = .entries list)
    (failed : change list = .error failure)

theorem World.scene_insert_encode (world : World) {key : String} (isTray : Key.isTray key = true)
    {list : List Entry} (well : EntryList.WellLinked list) :
    World.scene { world with store := world.store.insert key (EntryList.encode list) } =
      world.scene.put key (.entries list) :=
  congrArg (Scene.mk · world.clock world.issued)
    (Store.cell_insert_encode world.store isTray well)

variable {service : Service} {step : Store → Store → Prop} {world : World} {bad : World → Prop}

namespace Records

open Attempt (Ensures)

variable {task : TaskId}

theorem ensures_save {content : Task} {good : Unit → World → Prop}
    (refused : service.refuses (.set (Key.record content.id) content.encode) → bad world)
    (saved : ∀ after, after.scene = world.scene.save content →
      service.Writes (Key.record content.id) → step world.store after.store ∧ good () after) :
    Ensures service step good bad (save content) world := by
  apply Attempt.ensures_call refused
  intro serves
  have cells := Store.cell_insert_record world.store content.id content.encode
  obtain ⟨moves, known⟩ :=
    saved { world with store := world.store.insert (Key.record content.id) content.encode }
      (congrArg (Scene.mk · world.clock world.issued) cells) ⟨_, rfl, rfl, serves⟩
  exact ⟨.inr moves, known⟩

theorem ensures_delete {good : Unit → World → Prop}
    (refused : service.refuses (.delete (Key.record task)) → bad world)
    (deleted : ∀ after, after.scene = world.scene.discard task →
      step world.store after.store ∧ good () after) :
    Ensures service step good bad (delete task) world := by
  apply Attempt.ensures_call refused
  intro _
  have cells := Store.cell_erase_record world.store task
  obtain ⟨moves, known⟩ := deleted { world with store := world.store.erase (Key.record task) }
    (congrArg (Scene.mk · world.clock world.issued) cells)
  exact ⟨.inr moves, known⟩

theorem ensures_load {good : Task → World → Prop} (failing : bad world)
    (read : ∀ bytes content, world.store.get? (Key.record task) = some bytes →
      Task.decode bytes = .ok content → good content world) :
    Ensures service step good bad (load task) world := by
  apply Ensures.bind
  apply Attempt.ensures_get fun _ => failing
  cases found : world.store.get? (Key.record task) with
  | none => exact Attempt.ensures_throw failing
  | some bytes =>
      cases decoded : Task.decode bytes with
      | error cause =>
          simp only [decoded]
          exact Attempt.ensures_throw failing
      | ok content =>
          simp only [decoded]
          exact Attempt.ensures_pure (read bytes content found decoded)

theorem ensures_take {good : Task → World → Prop} (failing : bad world)
    (taken : ∀ content after, after.scene = world.scene.discard task →
      step world.store after.store ∧ good content after) :
    Ensures service step good bad (take task) world := by
  apply Ensures.bind
  apply ensures_load failing
  intro bytes content _ _
  apply Ensures.bind
  apply ensures_delete fun _ => failing
  intro after left
  obtain ⟨moves, known⟩ := taken content after left
  exact ⟨moves, Attempt.ensures_pure known⟩

end Records

namespace Trays

open Attempt (Ensures)

variable {key : String} {user : UserId} {tray : Tray} {task : TaskId} {entry : Entry}

theorem ensures_load {good : List Entry × Option Bytes → World → Prop}
    (isTray : Key.isTray key = true)
    (refused : service.refuses (.get key) → bad world)
    (unreadable : (∀ list, world.store.cell key ≠ .entries list) → bad world)
    (loaded : ∀ list, world.store.cell key = .entries list →
      good (list, world.store.get? key) world) :
    Ensures service step good bad (load key) world := by
  apply Ensures.bind
  apply Attempt.ensures_get refused
  cases shown : world.store.cell key with
  | value value =>
      obtain ⟨bytes, cause, _, found, failed⟩ := Store.unreadable_of_cell_eq_value isTray shown
      rw [found]
      simp only [failed]
      apply Attempt.ensures_throw
      apply unreadable
      intro list entries
      cases shown.symm.trans entries
  | entries list =>
      have known := loaded list shown
      rcases Store.read_of_cell_eq_entries shown with ⟨absent, rfl⟩ | ⟨bytes, form, found, decoded⟩
      · rw [absent] at known ⊢
        exact Attempt.ensures_pure known
      · rw [found] at known ⊢
        simp only [decoded]
        cases form with
        | entries => exact Attempt.ensures_pure known
        | names =>
            apply Ensures.bind
            apply Attempt.ensures_note
            exact Attempt.ensures_pure known

/-- A tray is changed in the first round, if it is changed. -/
theorem ensures_alter {β : Type} {budget : Nat} {change : Change β} {good : β → World → Prop}
    (keeps : change.KeepsLinks)
    (failing : service.Spoils world (Key.tray user tray) change → bad world)
    (changed : ∀ list result others after, world.store.cell (Key.tray user tray) = .entries list →
      change list = .ok (result, others) →
      after.scene = world.scene.put (Key.tray user tray) (.entries others) →
      service.Writes (Key.tray user tray) → step world.store after.store ∧ good result after) :
    Ensures service step good bad (alter budget user tray change) world := by
  obtain ⟨left, some_round⟩ := exists_rounds budget
  rw [alter]
  nth_rewrite 2 [some_round]
  rw [changeWithin]
  apply Ensures.bind
  apply ensures_load (Key.isTray_tray user tray)
  · exact fun refuses => failing (.refused _ rfl refuses)
  · exact fun hidden => failing (.unreadable hidden)
  intro list shown
  apply Ensures.bind
  apply Attempt.ensures_ofExcept
  · rintro ⟨result, others⟩ done
    apply Ensures.bind
    apply Attempt.ensures_call
    · exact fun refuses => failing (.refused _ rfl refuses)
    · intro serves
      have well := keeps list result others (Store.wellLinked_of_cell_eq_entries shown) done
      obtain ⟨moves, known⟩ := changed list result others _ shown done
        (world.scene_insert_encode (Key.isTray_tray user tray) well) ⟨_, rfl, rfl, serves⟩
      simp only [Store.perform, ↓reduceIte]
      exact ⟨.inr moves, Attempt.ensures_pure known⟩
  · exact fun failure failed => failing (.rejected list failure shown failed)

theorem ensures_append {budget : Nat} {good : Unit → World → Prop} (well : entry.WellLinked)
    (failing : service.Spoils world (Key.tray user tray) (.append user tray entry) → bad world)
    (appended : ∀ after, world.scene.Appended user tray entry after.scene →
      service.Writes (Key.tray user tray) → step world.store after.store ∧ good () after) :
    Ensures service step good bad (append budget user tray entry) world := by
  apply ensures_alter (Change.keepsLinks_append user tray well) failing
  intro list result others after shown done left
  obtain ⟨absent, rfl⟩ := (Change.append_eq_ok_iff user tray).mp done
  exact appended after ⟨list, shown, absent, left⟩

theorem ensures_remove {budget : Nat} {good : Entry → World → Prop}
    (failing : service.Spoils world (Key.tray user tray) (.remove user tray task) → bad world)
    (removed : ∀ entry after, entry.task = task → entry.WellLinked →
      world.scene.Removed user tray entry after.scene → service.Writes (Key.tray user tray) →
      step world.store after.store ∧ good entry after) :
    Ensures service step good bad (remove budget user tray task) world := by
  apply ensures_alter (Change.keepsLinks_remove user tray task) failing
  intro list entry others after shown done left
  obtain ⟨found, rfl⟩ := (Change.remove_eq_ok_iff user tray task).mp done
  obtain rfl := EntryList.task_eq_of_find? found
  exact removed entry after rfl
    (Store.wellLinked_of_cell_eq_entries shown entry (EntryList.mem_of_find? found))
    ⟨list, shown, found, left⟩

theorem ensures_pop {budget : Nat} {good : Entry → World → Prop}
    (failing : service.Spoils world (Key.tray user tray) (.pop user tray) → bad world)
    (popped : ∀ first rest after,
      world.store.cell (Key.tray user tray) = .entries (first :: rest) →
      after.scene = world.scene.put (Key.tray user tray) (.entries rest) →
      step world.store after.store ∧ good first after) :
    Ensures service step good bad (pop budget user tray) world := by
  apply ensures_alter (Change.keepsLinks_pop user tray) failing
  intro list first rest after shown done left _
  cases list with
  | nil => cases done
  | cons first rest =>
      cases done
      exact popped first rest after shown left

theorem ensures_bump {budget : Nat} {good : Unit → World → Prop}
    (failing : service.Spoils world (Key.tray user tray) (.bump user tray task) → bad world)
    (bumped : ∀ entry after, entry.task = task → world.scene.Bumped user tray entry after.scene →
      step world.store after.store ∧ good () after) :
    Ensures service step good bad (bump budget user tray task) world := by
  apply ensures_alter (Change.keepsLinks_bump user tray task) failing
  intro list result others after shown done left _
  obtain ⟨entry, found, rfl⟩ := (Change.bump_eq_ok_iff user tray task).mp done
  obtain rfl := EntryList.task_eq_of_find? found
  exact bumped entry after rfl ⟨list, shown, found, left⟩

/-! ## Searching -/

theorem ensures_find? {good : Option (Entry × Nat) → World → Prop} (failing : bad world)
    (found : ∀ list entry position, world.store.cell (Key.tray user tray) = .entries list →
      EntryList.find? task list = some entry → good (some (entry, position)) world)
    (absent : ∀ list, world.store.cell (Key.tray user tray) = .entries list →
      EntryList.find? task list = none → good none world) :
    Ensures service step good bad (find? user tray task) world := by
  apply Ensures.bind
  apply Ensures.bind
  apply ensures_load (Key.isTray_tray user tray) (fun _ => failing) fun _ => failing
  intro list shown
  apply Attempt.ensures_pure
  apply Attempt.ensures_pure
  cases first : EntryList.find? task list with
  | none =>
      rw [EntryList.locate?, first]
      exact absent list shown first
  | some entry =>
      rw [EntryList.locate?, first]
      exact found list entry _ shown first

/-- A search ends with an entry that is the first one for its task in its tray, or there is none in
any of the trays. -/
theorem ensures_locateIn {good : Option Located → World → Prop} (failing : bad world)
    (found : ∀ located list, world.store.cell (Key.tray user located.tray) = .entries list →
      EntryList.find? task list = some located.entry → good (some located) world)
    {trays : List Tray}
    (absent : (∀ tray ∈ trays, ∃ list, world.store.cell (Key.tray user tray) = .entries list ∧
      EntryList.find? task list = none) → good none world) :
    Ensures service step good bad (locateIn user task trays) world := by
  induction trays with
  | nil => exact Attempt.ensures_pure (absent (List.forall_mem_nil _))
  | cons tray trays induction =>
      apply Ensures.bind
      apply ensures_find? failing
      · intro list entry position shown first
        exact Attempt.ensures_pure (found ⟨tray, entry, position⟩ list shown first)
      · intro list shown first
        apply induction
        intro others
        apply absent
        exact List.forall_mem_cons.mpr ⟨⟨list, shown, first⟩, others⟩

theorem ensures_locate? {good : Option Located → World → Prop} (failing : bad world)
    (found : ∀ located list, world.store.cell (Key.tray user located.tray) = .entries list →
      EntryList.find? task list = some located.entry → good (some located) world)
    (absent : (∀ tray, ∃ list, world.store.cell (Key.tray user tray) = .entries list ∧
      EntryList.find? task list = none) → good none world) :
    Ensures service step good bad (locate? user task) world :=
  ensures_locateIn failing found fun each => absent fun tray => each tray tray.mem_all

end Trays
end Handoff
