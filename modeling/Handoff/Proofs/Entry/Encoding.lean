import Handoff.Entry.Encoding
import Handoff.Proofs.Json.Written

/-!
# Reading stored trays back

An entry is well linked if its link names a user and a task.  Only such entries are read from a
stored tray, and a stored list of such entries is read back as it was written.
-/

namespace Handoff

open Json

namespace Entry

/-- A link of the entry names a user and a task. -/
def WellLinked (entry : Entry) : Prop :=
  ∀ link, entry.link = some link → link.user ≠ "" ∧ link.task ≠ ""

theorem wellLinked_unlinked (task : TaskId) : (unlinked task).WellLinked := by
  intro link some_link
  cases some_link

theorem wellLinked_linked (task : TaskId) {user : UserId} {other : TaskId} (user_ne : user ≠ "")
    (other_ne : other ≠ "") : (linked task user other).WellLinked := by
  intro link some_link
  cases some_link
  exact ⟨user_ne, other_ne⟩

def fields (entry : Entry) : List (Outline × Outline) :=
  let other := entry.link.getD ⟨"", ""⟩
  [(.text (some "task_id"), .text (some entry.task))]
    ++ (if other.user.isEmpty then []
        else [(.text (some "foreign_user_id"), .text (some other.user))])
    ++ (if other.task.isEmpty then []
        else [(.text (some "foreign_task_id"), .text (some other.task))])

theorem writesMember_text (name text : String) :
    WritesMember (name, quote text) (.text (some name), .text (some text)) :=
  ⟨rfl, writes_quote text⟩

theorem writes_encode (entry : Entry) : Writes entry.encode (.object entry.fields) := by
  refine (writesWhole_object ?_).inside
  unfold members fields
  refine List.rel_append (List.rel_append ?_ ?_) ?_
  · exact .cons (writesMember_text _ _) .nil
  · split
    · exact .nil
    · exact .cons (writesMember_text _ _) .nil
  · split
    · exact .nil
    · exact .cons (writesMember_text _ _) .nil

theorem read_fields (entry : Entry) :
    read (.object entry.fields) =
      ofFields entry.task (entry.link.getD ⟨"", ""⟩).user (entry.link.getD ⟨"", ""⟩).task := by
  generalize other_eq : entry.link.getD ⟨"", ""⟩ = other
  have user_empty : other.user.isEmpty = true → other.user = "" := by simp
  have task_empty : other.task.isEmpty = true → other.task = "" := by simp
  unfold fields
  rw [other_eq]
  by_cases user : other.user.isEmpty = true <;> by_cases task : other.task.isEmpty = true <;>
    simp_all [read, Draft.read, Draft.empty, Draft.finish, Outline.readKey, Outline.readText, once,
      required, bind, Except.bind, pure, Except.pure]

theorem read_fields_of_wellLinked {entry : Entry} (well : entry.WellLinked) :
    read (.object entry.fields) = .ok entry := by
  rw [read_fields]
  obtain ⟨task, link⟩ := entry
  cases link with
  | none => rfl
  | some link =>
      obtain ⟨user_ne, task_ne⟩ := well link rfl
      have user : link.user.isEmpty = false := by simpa using user_ne
      have other : link.task.isEmpty = false := by simpa using task_ne
      simp [ofFields, user, other, linked]

/-- Both parts of a link are empty, or none is. -/
theorem wellLinked_of_ofFields {task : TaskId} {user : UserId} {other : TaskId} {entry : Entry}
    (read_eq : ofFields task user other = .ok entry) : entry.WellLinked := by
  unfold ofFields at read_eq
  split at read_eq
  · cases read_eq
    exact wellLinked_unlinked task
  · rename_i user_empty other_empty
    cases read_eq
    exact wellLinked_linked task (by simpa using user_empty) (by simpa using other_empty)
  · cases read_eq

theorem wellLinked_of_read {value : Outline} {entry : Entry} (read_eq : read value = .ok entry) :
    entry.WellLinked := by
  cases value with
  | object members =>
      obtain ⟨draft, _, finished⟩ := bind_eq_ok.mp read_eq
      obtain ⟨task, _, of_fields⟩ := bind_eq_ok.mp finished
      exact wellLinked_of_ofFields of_fields
  | array items =>
      obtain ⟨task, _, rest⟩ := bind_eq_ok.mp read_eq
      obtain ⟨user, _, rest⟩ := bind_eq_ok.mp rest
      obtain ⟨other, _, rest⟩ := bind_eq_ok.mp rest
      obtain ⟨_, _, of_fields⟩ := bind_eq_ok.mp rest
      exact wellLinked_of_ofFields of_fields
  | _ => cases read_eq

end Entry

namespace EntryList

/-- Every entry of the list is well linked. -/
def WellLinked (entries : List Entry) : Prop := ∀ entry ∈ entries, entry.WellLinked

theorem writesWhole_encode (entries : List Entry) :
    WritesWhole (encode entries) (.array (entries.map fun entry => .object entry.fields)) := by
  refine writesWhole_array (List.forall₂_map_left_iff.mpr (List.forall₂_map_right_iff.mpr ?_))
  exact List.forall₂_same.mpr fun entry _ => entry.writes_encode

/-- A stored list of well-linked entries is read back as it was written. -/
theorem decode_encode {entries : List Entry} (well : WellLinked entries) :
    decode (encode entries) = .ok (entries, .entries) := by
  have read_back : Json.decode (readItems Entry.read) (encode entries) = .ok entries := by
    rw [(writesWhole_encode entries).decode_eq]
    exact mapM_map_eq_ok fun entry mem => Entry.read_fields_of_wellLinked (well entry mem)
  rw [decode, read_back]

theorem wellLinked_of_decode {bytes : Bytes} {entries : List Entry} {form : TrayForm}
    (decoded : decode bytes = .ok (entries, form)) : WellLinked entries := by
  unfold decode at decoded
  split at decoded
  · rename_i items read_eq
    cases decoded
    have items_read := read_of_decode_ok read_eq
    cases shape : (outline bytes).1 with
    | array values =>
        rw [shape] at items_read
        exact forall_mem_of_mapM_ok (fun _ _ => Entry.wellLinked_of_read) items_read
    | _ =>
        rw [shape] at items_read
        cases items_read
  · split at decoded
    · cases decoded
      intro entry mem
      obtain ⟨task, _, rfl⟩ := List.mem_map.mp mem
      exact Entry.wellLinked_unlinked task
    · cases decoded

end EntryList

end Handoff
