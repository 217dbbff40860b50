import Handoff.Proofs.Task.Fields
import Handoff.Proofs.Task.View

/-!
# Views that are read as tasks

The reader of tasks passes over what a view tells of the other copy, so a text that is read as a
view is also read as a task, the one that the view shows.
-/

namespace Handoff

open Json

namespace Json.Outline

variable {value : Outline}

theorem isWhole_of_readText {text : String} (read_eq : value.readText = .ok text) :
    value.isWhole = true := by
  rw [readText_eq_ok_iff.mp read_eq]
  rfl

theorem isWhole_of_readNatural {expected : String} {n : Nat}
    (read_eq : value.readNatural expected = .ok n) : value.isWhole = true := by
  cases value with
  | number numeral => rfl
  | _ => cases read_eq

theorem isWhole_of_readUnit (read_eq : value.readUnit = .ok ()) : value.isWhole = true := by
  cases value with
  | null => rfl
  | _ => cases read_eq

theorem isWhole_of_readOptional {α : Type} {read : Outline → Except Error α} {field : Option α}
    (each : ∀ a, read value = .ok a → value.isWhole = true)
    (read_eq : value.readOptional read = .ok field) : value.isWhole = true := by
  unfold readOptional at read_eq
  split at read_eq
  · rfl
  · cases found : read value with
    | ok a => exact each a found
    | error e =>
        rw [found] at read_eq
        cases read_eq

/-- Apart from a text, a tray is read from an object with one member, which is null. -/
theorem isWhole_of_readTray {tray : Tray} (read_eq : Tray.read value = .ok tray) :
    value.isWhole = true := by
  unfold Tray.read at read_eq
  split at read_eq
  · rfl
  · obtain ⟨name, -, read_eq⟩ := bind_eq_ok.mp read_eq
    obtain ⟨found, -, read_eq⟩ := bind_eq_ok.mp read_eq
    obtain ⟨_, unit, read_eq⟩ := bind_eq_ok.mp read_eq
    split at read_eq
    · rename_i only
      rw [List.isEmpty_iff.mp only]
      simp [isWhole, membersWhole, isWhole_of_readUnit unit]
    · cases read_eq
  · cases read_eq

end Json.Outline

namespace TaskView

/-- The reader of tasks passes over whole members of other names. -/
theorem read_of_isWhole {name : String} {value : Outline} (unknown : name ∉ Task.fieldNames.flatten)
    (whole : value.isWhole = true) (task : Task.Draft) :
    task.read (.text (some name), value) = .ok task :=
  Task.Draft.read_eq_ok_iff.mpr (.inr (.inr (.inr (.inr (.inr ⟨unknown, whole, rfl⟩)))))

/-- A member of a view is set aside for the reader of tasks, or this reader passes over it. -/
theorem Draft.read_cases {draft next : Draft} {member : Outline × Outline}
    (read_eq : draft.read member = .ok next) :
    next.rest = member :: draft.rest ∨
      next.rest = draft.rest ∧ ∀ task : Task.Draft, task.read member = .ok task := by
  obtain ⟨key, value⟩ := member
  obtain ⟨name, key_eq, read_eq⟩ := bind_eq_ok.mp read_eq
  obtain rfl := readKey_eq_ok_iff.mp key_eq
  split at read_eq
  case h_4 =>
    split at read_eq
    · cases read_eq
      exact .inl rfl
    · cases read_eq
  all_goals
    obtain ⟨_, _, read_eq⟩ := bind_eq_ok.mp read_eq
    obtain ⟨field, field_read, read_eq⟩ := bind_eq_ok.mp read_eq
    cases read_eq
    refine .inr ⟨rfl, read_of_isWhole (by decide) (Outline.isWhole_of_readOptional ?_ field_read)⟩
  · exact fun _ => Outline.isWhole_of_readText
  · exact fun _ => Outline.isWhole_of_readTray
  · exact fun _ => Outline.isWhole_of_readNatural

/-- The reader of tasks makes the same of all members and of those that are set aside. -/
theorem foldlM_read_rest {members : List (Outline × Outline)} {draft : Draft}
    (read_all : members.foldlM Draft.read .empty = .ok draft) (start : Task.Draft) :
    members.foldlM Task.Draft.read start = draft.rest.reverse.foldlM Task.Draft.read start := by
  induction members using List.reverseRecOn generalizing draft with
  | nil =>
      cases read_all
      rfl
  | append_singleton members member induction =>
      obtain ⟨before, read_before, read_member⟩ := foldlM_concat_eq_ok_iff.mp read_all
      rw [List.foldlM_append, induction read_before]
      obtain aside | ⟨same, passes⟩ := Draft.read_cases read_member
      · rw [aside, List.reverse_cons, List.foldlM_append]
      · have passed (task : Task.Draft) : [member].foldlM Task.Draft.read task = pure task := by
          rw [List.foldlM_cons, passes]
          rfl
        simp only [same, passed, bind_pure]

/-- Whatever is read as a view is read as the task of this view, too. -/
theorem decode_task_of_decode {bytes : Bytes} {view : TaskView}
    (decoded : decode bytes = .ok view) : Task.decode bytes = .ok view.task := by
  obtain ⟨value, seen, read_eq⟩ := exists_outline_of_decode_ok decoded
  rw [Task.decode, decode_of_outline_eq seen]
  cases value with
  | object members =>
      obtain ⟨draft, read_all, finished⟩ := bind_eq_ok.mp read_eq
      obtain ⟨task, task_read, finished⟩ := bind_eq_ok.mp finished
      cases finished
      rw [← task_read, Task.read, Task.ofMembers, foldlM_read_rest read_all]
      rfl
  | _ => cases read_eq

/-- A view with older names, a null user, a tray in its longer form, the latest moment and a member
that nobody knows. -/
theorem decode_task_of_odd_view :
    let bytes := Utf8.encode ("\x7b\"foreign_list\":\x7b\"sent\":null\x7d,\"post_id\":null," ++
      "\"x\":[1],\"id\":\"1\",\"foreign_user\":null,\"message\":\"A\"," ++
      "\"create_at\":18446744073709551615\x7d")
    let task : Task := ⟨"1", "A", "", ⟨18446744073709551615⟩, none⟩
    decode bytes = .ok ⟨task, none, some .sent, none⟩ ∧ Task.decode bytes = .ok task := by
  intro bytes task
  have shown : decode bytes = .ok ⟨task, none, some .sent, none⟩ := by decide +kernel
  exact ⟨shown, decode_task_of_decode shown⟩

end TaskView
end Handoff
