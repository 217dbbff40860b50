import Handoff.Proofs.Backing.Roll
import Handoff.Proofs.Workflow.Service

/-!
# Writes that leave every entry its record

From a sound scene each write leads to a sound scene, if an entry is put in only after its record
and the record on the other side are stored, and a record is deleted only after its entry is gone.
This goes for what is undone as well: whatever has been noted is undone in an order that keeps to
this.
-/

namespace Handoff

namespace Store

/-- A record can be read and lies under its own name. -/
def Stores (store : Store) (task : TaskId) : Prop :=
  ∃ content, store.Records task content ∧ content.id = task

/-- Every entry of a tray that can be read has a record of its own. -/
def Backed (store : Store) : Prop :=
  ∀ key list entry, store.cell key = .entries list → entry ∈ list → store.Stores entry.task

/-- Only trays of members have entries. -/
def Enclosed (community : Community) (store : Store) : Prop :=
  ∀ key list, store.cell key = .entries list → list ≠ [] →
    ∃ user tray, community.member user ∧ key = Key.tray user tray

/-- Every new entry that has a link points to a record that has been there and stays there. -/
def Pointed (before after : Store) : Prop :=
  ∀ key list entry link, after.cell key = .entries list → entry ∈ list → entry.link = some link →
    (∀ others, before.cell key = .entries others → entry ∉ others) →
    before.Stores link.task ∧ after.Stores link.task

theorem pointed_refl (store : Store) : store.Pointed store :=
  fun _ list _ _ shown mem _ new => absurd mem (new list shown)

/-- A change of a store that leaves every entry its record. -/
structure Sequel (community : Community) (before after : Store) : Prop where
  backed : after.Backed
  enclosed : after.Enclosed community
  pointed : before.Pointed after

end Store

/-- An entry may be put into a tray of a user: its record is stored, and the one on the other
side. -/
structure Entry.Supported (community : Community) (stored : Set TaskId) (user : UserId)
    (entry : Entry) : Prop where
  member : community.member user
  own : entry.task ∈ stored
  other : ∀ link, entry.link = some link → link.task ∈ stored
  well : entry.WellLinked

variable {community : Community} {conditions : Conditions} {listed : Set (String × TaskId)}
  {recorded : Set TaskId} {world after : World} {user : UserId} {tray : Tray} {entry : Entry}
  {task : TaskId} {key : String} {bad : World → Prop} {budget : Nat}

namespace Entry

variable {other : TaskId} {partner : UserId}

theorem supported_unlinked (member : community.member user) (own : task ∈ recorded) :
    (unlinked task).Supported community recorded user :=
  ⟨member, own, nofun, wellLinked_unlinked task⟩

theorem supported_linked (member : community.member user)
    (partner_member : community.member partner)
    (named : other ≠ "") (own : task ∈ recorded) (other_stored : other ∈ recorded) :
    (linked task partner other).Supported community recorded user := by
  refine ⟨member, own, ?_, wellLinked_linked task (community.named _ partner_member) named⟩
  rintro link ⟨⟩
  exact other_stored

theorem Supported.mono {stored : Set TaskId}
    (supported : entry.Supported community recorded user) (subset : recorded ⊆ stored) :
    entry.Supported community stored user :=
  ⟨supported.member, subset supported.own, fun link linked => subset (supported.other link linked),
    supported.well⟩

end Entry

theorem Service.not_refuses_of_writes (writes : (under conditions).Writes key) (request : Call)
    (about : request.key = key) : ¬(under conditions).refuses request := by
  obtain ⟨written, write, here, free⟩ := writes
  simp only [under, write, here, Bool.true_and] at free
  simp [under, about, free]

namespace Scene.Sound

theorem stores (sound : world.scene.Sound community listed recorded)
    (stored : task ∈ recorded) : world.store.Stores task := by
  rw [← sound.recorded_eq] at stored
  obtain ⟨bytes, content, shown, decoded, own⟩ := stored
  exact ⟨content, ⟨bytes, Store.get?_eq_of_cell_eq_value shown, decoded⟩, own⟩

theorem id_eq {bytes : Bytes} {content : Task}
    (sound : world.scene.Sound community listed recorded) (stored : task ∈ recorded)
    (found : world.store.get? (Key.record task) = some bytes)
    (decoded : Task.decode bytes = .ok content) : content.id = task := by
  obtain ⟨record, ⟨others, others_found, others_decoded⟩, own⟩ := sound.stores stored
  cases found.symm.trans others_found
  cases decoded.symm.trans others_decoded
  exact own

theorem store_backed (sound : world.scene.Sound community listed recorded) :
    world.store.Backed := by
  intro key list entry shown mem
  apply sound.stores
  apply sound.backed key
  exact (sound.mem_listed_iff shown).mpr (List.mem_map_of_mem mem)

theorem store_enclosed (sound : world.scene.Sound community listed recorded) :
    world.store.Enclosed community := by
  intro key list shown nonempty
  obtain ⟨entry, mem⟩ := List.exists_mem_of_ne_nil list nonempty
  exact sound.enclosed key entry.task ((sound.mem_listed_iff shown).mpr (List.mem_map_of_mem mem))

/-- A write leads to a sound scene, and new entries point to records. -/
theorem sequel (sound : after.scene.Sound community listed recorded)
    (points : ∀ key list entry link, after.scene.cells key = .entries list → entry ∈ list →
      entry.link = some link →
      (∃ others, world.scene.cells key = .entries others ∧ entry ∈ others) ∨
        world.store.Stores link.task ∧ link.task ∈ recorded) :
    world.store.Sequel community after.store := by
  refine ⟨sound.store_backed, sound.store_enclosed, ?_⟩
  intro key list entry link shown mem linked new
  rcases points key list entry link shown mem linked with
    ⟨others, others_shown, old⟩ | ⟨already, stored⟩
  · exact absurd old (new others others_shown)
  · exact ⟨already, sound.stores stored⟩

theorem sequel_of_subset (sound : after.scene.Sound community listed recorded)
    (old : ∀ key list, after.scene.cells key = .entries list →
      ∃ others, world.scene.cells key = .entries others ∧ list ⊆ others) :
    world.store.Sequel community after.store := by
  apply sound.sequel
  intro key list entry link shown mem _
  obtain ⟨others, others_shown, subset⟩ := old key list shown
  exact .inl ⟨others, others_shown, subset mem⟩

theorem sequel_put {list others : List Entry}
    (sound : after.scene.Sound community listed recorded)
    (shown : world.scene.cells key = .entries others)
    (left : after.scene = world.scene.put key (.entries list)) (subset : list ⊆ others) :
    world.store.Sequel community after.store := by
  apply sound.sequel_of_subset
  intro place found found_shown
  rw [left, put_cells] at found_shown
  split at found_shown
  · rename_i here
    cases found_shown
    exact ⟨others, here ▸ shown, subset⟩
  · exact ⟨found, found_shown, List.Subset.refl found⟩

theorem sequel_putRecord {value : Option Bytes}
    (sound : after.scene.Sound community listed recorded)
    (left : after.scene = world.scene.put (Key.record task) (.value value)) :
    world.store.Sequel community after.store := by
  apply sound.sequel_of_subset
  intro place found found_shown
  rw [left, put_cells] at found_shown
  split at found_shown
  · cases found_shown
  · exact ⟨found, found_shown, List.Subset.refl found⟩

/-! ## What each write ensures -/

theorem ensures_append {good : Unit → World → Prop}
    (sound : world.scene.Sound community listed recorded)
    (supported : entry.Supported community recorded user) (failing : bad world)
    (goes : ∀ after, after.scene.Sound community
        (insert (Key.tray user tray, entry.task) listed) recorded →
      (Service.under conditions).Writes (Key.tray user tray) → good () after) :
    Attempt.Ensures (.under conditions) (Store.Sequel community) good bad
      (Trays.append budget user tray entry) world := by
  apply Trays.ensures_append supported.well fun _ => failing
  intro after appended writes
  have later := sound.appended supported.member supported.own appended
  refine ⟨later.sequel fun key list other link shown mem linked => ?_, goes after later writes⟩
  obtain ⟨others, others_shown, _, left⟩ := appended
  rw [left, put_cells] at shown
  split at shown
  · rename_i here
    cases shown
    rcases List.mem_append.mp mem with old | new
    · exact .inl ⟨others, here ▸ others_shown, old⟩
    · obtain rfl := List.mem_singleton.mp new
      have stored := supported.other link linked
      exact .inr ⟨sound.stores stored, stored⟩
  · exact .inl ⟨list, shown, mem⟩

theorem ensures_remove {good : Entry → World → Prop}
    (sound : world.scene.Sound community listed recorded)
    (failing : (Service.under conditions).Spoils world (Key.tray user tray)
      (.remove user tray task) → bad world)
    (goes : ∀ entry after, entry.task = task → entry.WellLinked →
      world.scene.Removed user tray entry after.scene →
      after.scene.Sound community (listed \ {(Key.tray user tray, task)}) recorded →
      good entry after) :
    Attempt.Ensures (.under conditions) (Store.Sequel community) good bad
      (Trays.remove budget user tray task) world := by
  apply Trays.ensures_remove failing
  intro entry after same well removed _
  have later := sound.removed removed
  subst same
  refine ⟨?_, goes entry after rfl well removed later⟩
  obtain ⟨list, shown, _, left⟩ := removed
  exact later.sequel_put shown left List.eraseP_sublist.subset

theorem ensures_bump {good : Unit → World → Prop}
    (sound : world.scene.Sound community listed recorded) (failing : bad world)
    (goes : ∀ after, after.scene.Sound community listed recorded → good () after) :
    Attempt.Ensures (.under conditions) (Store.Sequel community) good bad
      (Trays.bump budget user tray task) world := by
  apply Trays.ensures_bump fun _ => failing
  intro entry after _ bumped
  have later := sound.bumped bumped
  refine ⟨?_, goes after later⟩
  obtain ⟨list, shown, found, left⟩ := bumped
  exact later.sequel_put shown left (EntryList.perm_cons_erase found).symm.subset

theorem ensures_save {content : Task} {good : Unit → World → Prop}
    (sound : world.scene.Sound community listed recorded) (named : content.OriginNamed)
    (failing : bad world)
    (goes : ∀ after, after.scene.Sound community listed (insert content.id recorded) →
      good () after) :
    Attempt.Ensures (.under conditions) (Store.Sequel community) good bad (Records.save content)
      world := by
  apply Records.ensures_save fun _ => failing
  intro after left _
  have later : after.scene.Sound community listed (insert content.id recorded) :=
    left ▸ sound.saved named
  exact ⟨later.sequel_putRecord left, goes after later⟩

theorem ensures_delete {good : Unit → World → Prop}
    (sound : world.scene.Sound community listed recorded) (unlisted : ∀ key, (key, task) ∉ listed)
    (failing : bad world)
    (goes : ∀ after, after.scene.Sound community listed (recorded \ {task}) → good () after) :
    Attempt.Ensures (.under conditions) (Store.Sequel community) good bad (Records.delete task)
      world := by
  apply Records.ensures_delete fun _ => failing
  intro after left
  have later : after.scene.Sound community listed (recorded \ {task}) :=
    left ▸ sound.discarded unlisted
  exact ⟨later.sequel_putRecord left, goes after later⟩

theorem ensures_dropRecord {ends : Option Task → World → Prop}
    (sound : world.scene.Sound community listed recorded) (unlisted : ∀ key, (key, task) ∉ listed)
    (goes : ∀ content after left, after.scene.Sound community listed left → ends content after) :
    (Workflow.dropRecord task).Ensures (.under conditions) (Store.Sequel community) ends world := by
  apply Workflow.ensures_dropRecord (goes none world recorded sound)
  intro content after left
  have later : after.scene.Sound community listed (recorded \ {task}) :=
    left ▸ sound.discarded unlisted
  exact ⟨later.sequel_putRecord left, goes (some content) after _ later⟩

/-- An entry that is listed can be taken out, unless a call is refused. -/
theorem not_spoils (sound : world.scene.Sound community listed recorded)
    (there : (Key.tray user tray, task) ∈ listed)
    (free : ∀ request : Call, request.key = Key.tray user tray →
      ¬(Service.under conditions).refuses request) :
    ¬(Service.under conditions).Spoils world (Key.tray user tray) (.remove user tray task) := by
  rw [← sound.listed_eq] at there
  obtain ⟨list, shown, mem⟩ := there
  rintro (⟨request, about, refuses⟩ | hidden | ⟨others, failure, others_shown, failed⟩)
  · exact free request about refuses
  · exact hidden list shown
  · cases shown.symm.trans others_shown
    obtain ⟨entry, entry_mem, same⟩ := List.mem_map.mp mem
    cases found : EntryList.find? task list with
    | none => exact EntryList.find?_eq_none_iff.mp found entry entry_mem same
    | some first =>
        have done := (Change.remove_eq_ok_iff user tray task).mpr ⟨found, rfl⟩
        cases done.symm.trans failed

end Scene.Sound

/-! ## Undoing -/

/-- From any scene with this roll, the noted actions can be undone. -/
def Undoes (community : Community) (conditions : Conditions) (budget : Nat) (noted : List Undo)
    (listed : Set (String × TaskId)) (recorded : Set TaskId) : Prop :=
  ∀ world : World, world.scene.Sound community listed recorded →
    (Undo.applyEach budget noted.reverse).Ensures (.under conditions) (Store.Sequel community)
      (fun _ _ => True) world

variable {noted : List Undo}

theorem undoes_nil : Undoes community conditions budget [] listed recorded :=
  fun _ _ => trivial

theorem undoes_deleteRecord (unlisted : ∀ key, (key, task) ∉ listed)
    (kept : Undoes community conditions budget noted listed recorded)
    (deleted : Undoes community conditions budget noted listed (recorded \ {task})) :
    Undoes community conditions budget (noted ++ [.deleteRecord task]) listed recorded := by
  intro world sound
  apply Undo.ensures_applyEach_append
  apply sound.ensures_delete unlisted (kept world sound)
  exact deleted

/-- An entry that was put in is taken out, since its tray could be written. -/
theorem undoes_takeOut (writes : (Service.under conditions).Writes (Key.tray user tray))
    (there : (Key.tray user tray, task) ∈ listed)
    (taken : Undoes community conditions budget noted (listed \ {(Key.tray user tray, task)})
      recorded) :
    Undoes community conditions budget (noted ++ [.takeOut user tray task]) listed recorded := by
  intro world sound
  apply Undo.ensures_applyEach_append
  apply Attempt.Ensures.bind
  apply sound.ensures_remove
  · have free := Service.not_refuses_of_writes writes
    exact fun spoils => absurd spoils (sound.not_spoils there free)
  · exact fun entry after _ _ _ later => taken after later

theorem undoes_takeOut_new (writes : (Service.under conditions).Writes (Key.tray user tray))
    (unlisted : (Key.tray user tray, task) ∉ listed)
    (kept : Undoes community conditions budget noted listed recorded) :
    Undoes community conditions budget (noted ++ [.takeOut user tray task])
      (insert (Key.tray user tray, task) listed) recorded := by
  apply undoes_takeOut writes (Set.mem_insert _ _)
  rwa [Set.insert_sdiff_self_of_notMem unlisted]

/-- An entry that was taken out is put back while its record and the one on the other side are
stored. -/
theorem undoes_putBack (supported : entry.Supported community recorded user)
    (kept : Undoes community conditions budget noted listed recorded)
    (put : Undoes community conditions budget noted
      (insert (Key.tray user tray, entry.task) listed) recorded) :
    Undoes community conditions budget (noted ++ [.putBack user tray entry]) listed recorded := by
  intro world sound
  apply Undo.ensures_applyEach_append
  apply sound.ensures_append supported (kept world sound)
  exact fun after later _ => put after later

end Handoff
