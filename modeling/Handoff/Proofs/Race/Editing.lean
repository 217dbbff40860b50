import Handoff.Proofs.Pairing.Spares.Steps
import Handoff.Proofs.Race.Pair
import Handoff.Proofs.Race.Plan
import Handoff.Workflow.Edit

/-!
# Edits of a shared task from both sides

An edit writes the user's record first and the other one afterwards, and writes both whatever it
reads of their texts.  So each record ends with the texts of the edit that wrote it last.  Edits
from the two sides write the records in opposite orders, and if they cross, the two records end
with different texts.
-/

namespace Handoff

namespace Store

theorem Records.unique {store : Store} {task : TaskId} {content other : Task}
    (records : store.Records task content) (again : store.Records task other) :
    content = other := by
  obtain ⟨bytes, found, decoded⟩ := records
  obtain ⟨others, other_found, other_decoded⟩ := again
  cases found.symm.trans other_found
  cases decoded.symm.trans other_decoded
  rfl

theorem Records.originNamed {store : Store} {task : TaskId} {content : Task}
    (records : store.Records task content) : content.OriginNamed := by
  obtain ⟨bytes, _, decoded⟩ := records
  exact Task.originNamed_of_decode decoded

/-- A value that a key may have while records get other texts and all else stays as it was. -/
structure Revised (store : Store) (key : String) (value : Option Bytes) : Prop where
  kept : (∀ task, key ≠ Key.record task) → value = store.get? key
  record : ∀ task old, key = Key.record task → store.Records task old →
    ∃ bytes message description, value = some bytes ∧
      Task.decode bytes = .ok (old.withContent message description)

theorem revised_get? (store : Store) (key : String) : store.Revised key (store.get? key) := by
  refine ⟨fun _ => rfl, ?_⟩
  rintro task old rfl ⟨bytes, found, decoded⟩
  exact ⟨bytes, old.message, old.description, found, decoded⟩

variable {store : Store} {task : TaskId} {old : Task}

theorem Records.revised (records : store.Records task old) (message description : String) :
    store.Revised (Key.record task) (some (old.withContent message description).encode) := by
  refine ⟨fun other => absurd rfl (other task), fun another content same other_records => ?_⟩
  obtain rfl := Key.record_injective same
  obtain rfl := records.unique other_records
  have named := records.originNamed.withContent message description
  exact ⟨_, message, description, rfl, Task.decode_encode_of_originNamed named⟩

end Store

/-! ## What an edit writes -/

open Attempt (Plans plans_pure plans_lift)

/-- The write that gives a record other texts. -/
def Task.revision (old : Task) (message description : String) : String × Bytes :=
  (Key.record old.id, (old.withContent message description).encode)

namespace Workflow

variable {store : Store} {old next : Task} (message description : String)

theorem plans_revise (records : store.Records old.id old) :
    Plans store.Revised (fun _ => True) (revise old.id message description)
      [old.revision message description] := by
  have loading : Plans store.Revised
      (fun content => ∃ message description, content = old.withContent message description)
      (Records.load old.id) [] := by
    refine Records.plans_load fun value revised => ?_
    obtain ⟨bytes, message, description, found, decoded⟩ := revised.record old.id old rfl records
    exact ⟨bytes, _, found, decoded, message, description, rfl⟩
  refine loading.bind_nil fun content some_texts => ?_
  obtain ⟨_, _, rfl⟩ := some_texts
  exact (Records.plans_save (old.withContent message description)).bind fun _ _ =>
    plans_pure trivial

theorem plans_reviseOther {link : Link} (named : link.task = next.id)
    (records : store.Records next.id next) :
    (reviseOther message description (some link)).Plans store.Revised (fun _ => True)
      [next.revision message description] := by
  have revising := plans_revise message description records
  rw [← named] at revising
  refine Program.Plans.bind revising fun result fits => ?_
  obtain ⟨_, rfl, _⟩ := fits
  exact Program.plans_pure trivial

/-- An edit writes the record of the user's entry and then the one that the entry is linked to. -/
theorem plans_edit {community : Community} (paired : store.Paired community) {user other : UserId}
    {tray : Tray} (member : community.member user)
    (listed : store.Lists user tray (.linked old.id other next.id))
    (records : store.Records old.id old) (next_records : store.Records next.id next) :
    Plans store.Revised (fun _ => True) (edit user old.id message description)
      [old.revision message description, next.revision message description] := by
  choose lists shown using fun tray => paired.readable user tray member
  have shows (tray : Tray) (value : Option Bytes)
      (revised : store.Revised (Key.tray user tray) value) : Trays.Shows value (lists tray) := by
    rw [revised.kept fun task => (Key.record_ne_tray task user tray).symm]
    exact Store.read_of_cell_eq_entries (shown tray)
  have found : EntryList.find? old.id (lists tray) ≠ none := by
    obtain ⟨list, list_shown, mem⟩ := listed
    cases (shown tray).symm.trans list_shown
    exact fun absent => EntryList.find?_eq_none_iff.mp absent _ mem rfl
  refine (plans_locate shows found).bind_nil fun located first => ?_
  have same : located.entry = .linked old.id other next.id :=
    paired.eq_of_task_eq member member
      ⟨_, shown located.tray, EntryList.mem_of_find? first⟩ listed
      (EntryList.task_eq_of_find? first)
  refine (plans_revise message description records).bind fun previous _ => ?_
  rw [same]
  exact (plans_lift (plans_reviseOther message description rfl next_records)).bind fun _ _ =>
    plans_pure trivial

end Workflow
namespace Editing

variable {ι : Type} {around : Surroundings} {community : Community} {world : World}

/-- Calls that edit a shared task.  Each call is made from the first side or from the other one, and
has texts of its own. -/
def programs (user other : UserId) (task copy : TaskId) (first : ι → Bool)
    (message description : ι → String) (player : ι) : Program (Except Failure Revision) :=
  (if first player then Workflow.edit user task (message player) (description player)
    else Workflow.edit other copy (message player) (description player)).run

/-- What a call writes: the record of its own side, and then the other one. -/
def plan (old next : Task) (first : Bool) (message description : String) :
    List (String × Bytes) :=
  if first then [old.revision message description, next.revision message description]
  else [next.revision message description, old.revision message description]

theorem mem_plan_iff {old next : Task} {first : Bool} {message description : String}
    {write : String × Bytes} :
    write ∈ plan old next first message description ↔
      ∃ content ∈ [old, next], write = content.revision message description := by
  unfold plan
  cases first <;> simp [or_comm]

section
variable {old next : Task} {first : ι → Bool} {message description : ι → String}
  {user other : UserId} {tray : Tray}

theorem planned_start (paired : world.store.Paired community) (member : community.member user)
    (listed : world.store.Lists user tray (.linked old.id other next.id))
    (records : world.store.Records old.id old) (next_records : world.store.Records next.id next) :
    (Race.start world (programs user other old.id next.id first message description)).Planned
      world.store.Revised (fun result => ∃ revision, result = .ok revision ∧ True)
      fun player => plan old next (first player) (message player) (description player) := by
  obtain ⟨other_member, place, back⟩ := paired.exists_back member listed rfl
  refine ⟨world.store.revised_get?, fun player => ?_⟩
  unfold plan
  simp only [Race.start, programs]
  cases first player with
  | true => exact Workflow.plans_edit _ _ paired member listed records next_records
  | false => exact Workflow.plans_edit _ _ paired other_member back next_records records

variable [DecidableEq ι]

/-- If all calls have made their writes, each of the two records has a last writer, whose texts it
has. -/
theorem exists_lastWriter [Nonempty ι] (differs : next.id ≠ old.id)
    {race : Race ι (Except Failure Revision)} {schedule : List (Instant × ι)}
    (written : Race.Written around
      (fun player => plan old next (first player) (message player) (description player))
      (fun _ => []) schedule race)
    {content : Task} (mem : content ∈ [old, next]) (named : content.OriginNamed) :
    ∃ last, Race.lastWriter? around (Key.record content.id) schedule race = some last ∧
      (race.run around schedule).world.store.Records content.id
        (content.withContent (message last) (description last)) := by
  obtain ⟨player⟩ := ‹Nonempty ι›
  have made := written.written player (content.revision (message player) (description player))
    (mem_plan_iff.mpr ⟨content, mem, rfl⟩)
  obtain ⟨last, is_last⟩ := Option.ne_none_iff_exists'.mp (made.resolve_left List.not_mem_nil)
  obtain ⟨value, value_mem, found⟩ := written.stored _ last is_last
  obtain ⟨other, other_mem, same⟩ := mem_plan_iff.mp value_mem
  obtain ⟨same_key, rfl⟩ := Prod.mk.inj same
  obtain rfl : content = other := by
    have same_id := Key.record_injective same_key
    simp only [List.mem_cons, List.not_mem_nil, or_false] at mem other_mem
    rcases mem with rfl | rfl <;> rcases other_mem with rfl | rfl
    · rfl
    · exact absurd same_id.symm differs
    · exact absurd same_id differs
    · rfl
  exact ⟨last, is_last, _, found,
    Task.decode_encode_of_originNamed (named.withContent (message last) (description last))⟩

end

/-- Any number of calls edit a shared task from either side, in whatever way they are interleaved.
Once all have returned, all have succeeded, and each of the two records has the texts of the call
that was the last to write it.  So the records say the same if and only if these two calls have the
same texts, as they do if they are one call. -/
theorem same_texts_iff_of_edited [DecidableEq ι] [Nonempty ι] (fresh : around.Fresh)
    {policy : Policy} (reached : world.Reached community around policy) {user other : UserId}
    {tray : Tray} {task copy : TaskId} (member : community.member user)
    (listed : world.store.Lists user tray (.linked task other copy)) (first : ι → Bool)
    (message description : ι → String) (schedule : List (Instant × ι))
    (results : ι → Except Failure Revision) :
    let race := Race.start world (programs user other task copy first message description)
    let after := race.run around schedule
    (∀ player, after.result? player = some (results player)) →
      (∀ player, (results player).isOk = true) ∧
      ∃ old next last other_last, world.store.Records task old ∧ world.store.Records copy next ∧
        Race.lastWriter? around (Key.record task) schedule race = some last ∧
        Race.lastWriter? around (Key.record copy) schedule race = some other_last ∧
        after.world.store.Records task (old.withContent (message last) (description last)) ∧
        after.world.store.Records copy
          (next.withContent (message other_last) (description other_last)) ∧
        ∀ one two, after.world.store.Records task one → after.world.store.Records copy two →
          ((one.message = two.message ∧ one.description = two.description) ↔
            message last = message other_last ∧ description last = description other_last) := by
  intro race after all_ended
  have paired := reached.paired fresh
  have recorded {owner : UserId} {tray : Tray} {entry : Entry} (member : community.member owner)
      (listed : world.store.Lists owner tray entry) :
      ∃ content, world.store.Records entry.task content ∧ content.id = entry.task := by
    obtain ⟨bytes, found⟩ :=
      (paired.recorded entry.task).mpr ⟨owner, tray, entry, member, listed, rfl⟩
    obtain ⟨content, decoded, own⟩ := paired.own _ bytes found
    exact ⟨content, ⟨bytes, found, decoded⟩, own⟩
  obtain ⟨other_member, place, back⟩ := paired.exists_back member listed rfl
  obtain ⟨old, records, own⟩ := recorded member listed
  obtain ⟨next, next_records, next_own⟩ := recorded other_member back
  have differs := paired.link_task_ne member listed rfl
  simp only [Entry.linked] at own next_own differs records next_records
  subst own next_own
  have allowed (player : ι) :
      ∀ write ∈ plan old next (first player) (message player) (description player),
        world.store.Revised write.1 (some write.2) := by
    intro write mem
    obtain ⟨content, content_mem, rfl⟩ := mem_plan_iff.mp mem
    simp only [List.mem_cons, List.not_mem_nil, or_false] at content_mem
    rcases content_mem with rfl | rfl
    · exact records.revised _ _
    · exact next_records.revised _ _
  obtain ⟨left, ended, written⟩ :=
    (planned_start paired member listed records next_records).run allowed schedule
  have all_done (player : ι) : left player = [] ∧ (results player).isOk = true := by
    obtain ⟨nothing, revision, same, _⟩ := (ended.programs player).ended (all_ended player)
    exact ⟨nothing, by rw [same]; rfl⟩
  obtain rfl : left = fun _ => [] := funext fun player => (all_done player).1
  obtain ⟨last, is_last, stored⟩ :=
    exists_lastWriter differs written List.mem_cons_self records.originNamed
  obtain ⟨other_last, is_other_last, next_stored⟩ := exists_lastWriter differs written
    (List.mem_cons_of_mem _ List.mem_cons_self) next_records.originNamed
  refine ⟨fun player => (all_done player).2, old, next, last, other_last, records, next_records,
    is_last, is_other_last, stored, next_stored, fun one two one_records two_records => ?_⟩
  obtain rfl := one_records.unique stored
  obtain rfl := two_records.unique next_stored
  rfl

/-- The texts of the two records are those of `ann`, who edits after `bob`. -/
theorem same_texts_of_edited_in_turn :
    let world := (World.mk .empty ⟨0⟩ 0).steps .strokes .standard
      [(⟨1⟩, .send "ann" "bob" "Call" "" none)]
    let message (anns : Bool) := if anns then "A" else "B"
    let schedule := List.replicate 20 (⟨2⟩, false) ++ List.replicate 20 (⟨3⟩, true)
    let results (anns : Bool) : Except Failure Revision :=
      .ok (if anns then ⟨some "bob", .sent, "B"⟩ else ⟨some "ann", .received, "Call"⟩)
    let race := Race.start world (programs "ann" "bob" "|" "||" id message fun _ => "")
    let after := race.run .strokes schedule
    (∀ anns, after.result? anns = some (results anns)) ∧
      ∀ one two, after.world.store.Records "|" one → after.world.store.Records "||" two →
        one.message = two.message ∧ one.description = two.description := by
  intro world message schedule results
  have reached : world.Reached .plain .strokes .standard :=
    ⟨[(⟨1⟩, .send "ann" "bob" "Call" "" none)], ⟨0⟩, 0,
      by simp [Operation.users, Community.plain, UserId.Plain], rfl⟩
  have ann : Community.plain.member "ann" := by simp [Community.plain, UserId.Plain]
  have sent : world.store.Lists "ann" .sent (.linked "|" "bob" "||") :=
    ⟨[.linked "|" "bob" "||"], by decide +kernel, by decide⟩
  have settled := same_texts_iff_of_edited Surroundings.fresh_strokes reached ann sent id message
    (fun _ => "") schedule results
  have ann_is_last (task : TaskId) (mem : task ∈ ["|", "||"]) :
      Race.lastWriter? .strokes (Key.record task) schedule
        (Race.start world (programs "ann" "bob" "|" "||" id message fun _ => "")) = some true := by
    revert task
    decide +kernel
  dsimp only at settled ⊢
  refine (and_iff_left_of_imp fun ended => ?_).mpr (by decide +kernel)
  obtain ⟨_, _, _, last, other_last, _, _, is_last, is_other_last, _, _, same_iff⟩ := settled ended
  have same : last = true := Option.some.inj (is_last.symm.trans (ann_is_last "|" (by simp)))
  have other_same : other_last = true :=
    Option.some.inj (is_other_last.symm.trans (ann_is_last "||" (by simp)))
  intro one two records two_records
  rw [same_iff one two records two_records, same, other_same]
  exact ⟨rfl, rfl⟩

/-- If `bob` edits after `ann` has written her record and before she has read his, both calls
succeed and the two records have different texts. -/
theorem texts_apart_of_crossed :
    let world := (World.mk .empty ⟨0⟩ 0).steps .strokes .standard
      [(⟨1⟩, .send "ann" "bob" "Call" "" none)]
    let message (anns : Bool) := if anns then "A" else "B"
    let after := (Race.start world (programs "ann" "bob" "|" "||" id message fun _ => "")).run
      .strokes (List.replicate 4 (⟨2⟩, true) ++ List.replicate 20 (⟨3⟩, false) ++
        List.replicate 20 (⟨4⟩, true))
    (∀ anns, (after.result? anns).map Except.isOk = some true) ∧
      after.world.store.get? (Key.record "|") = some (Task.encode ⟨"|", "B", "", ⟨1⟩, none⟩) ∧
      after.world.store.get? (Key.record "||") =
        some (Task.encode ⟨"||", "A", "", ⟨1⟩, none⟩) := by
  decide +kernel

end Editing
end Handoff
