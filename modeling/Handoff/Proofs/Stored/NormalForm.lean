import Handoff.Proofs.Entry.Encoding
import Handoff.Proofs.Task.View

/-!
# What is read is written in one form

A text can spell a tray, a task, a view or counts in many ways: in an older form, as an array, with
older names of fields, with other fields, other escapes or more space.  Writing what was read of it
chooses one spelling, from which the same is read again, so to read and to write once more changes
nothing.
-/

namespace Handoff

namespace Json

variable {α : Type}

/-- What is written of what is read from a text. -/
def rewrite (decode : Bytes → Except Error α) (encode : α → Bytes) (bytes : Bytes) :
    Except Error Bytes :=
  (decode bytes).map encode

/-- A text that was written of what was read stays as it is if something is read from it again of
which the same would be written. -/
theorem rewrite_eq_self {decode : Bytes → Except Error α} {encode : α → Bytes}
    {bytes written : Bytes}
    (again : ∀ a, decode bytes = .ok a → ∃ b, decode (encode a) = .ok b ∧ encode b = encode a)
    (rewritten : rewrite decode encode bytes = .ok written) :
    rewrite decode encode written = .ok written := by
  unfold rewrite at rewritten
  cases decoded : decode bytes with
  | error cause =>
      rw [decoded] at rewritten
      cases rewritten
  | ok a =>
      rw [decoded] at rewritten
      cases rewritten
      obtain ⟨b, read_again, same⟩ := again a decoded
      rw [rewrite, read_again, ← same]
      rfl

end Json

open Json

/-- Each kind of value is read back as it is once it has been read from some text. -/
theorem EntryList.decode_encode_of_decode {bytes : Bytes} {entries : List Entry} {form : TrayForm}
    (decoded : decode bytes = .ok (entries, form)) :
    decode (encode entries) = .ok (entries, .entries) :=
  decode_encode (wellLinked_of_decode decoded)

theorem Task.decode_encode_of_decode {bytes : Bytes} {task : Task}
    (decoded : decode bytes = .ok task) : decode task.encode = .ok task :=
  decode_encode_of_originNamed (originNamed_of_decode decoded)

theorem TaskView.decode_encode_of_decode {bytes : Bytes} {view : TaskView}
    (decoded : decode bytes = .ok view) : decode view.encode = .ok view := by
  obtain ⟨fits, named⟩ := fits_and_originNamed_of_decode decoded
  exact decode_encode_of_originNamed fits named

theorem Tally.decode_encode_of_decode {bytes : Bytes} {tally : Tally}
    (decoded : decode bytes = .ok tally) : decode tally.encode = .ok tally :=
  decode_encode (fits_of_decode decoded)

/-- The four kinds of values that are written, each read from a text and written again. -/
def rewrites : List (Bytes → Except Json.Error Bytes) :=
  [rewrite EntryList.decode fun tray => EntryList.encode tray.1, rewrite Task.decode Task.encode,
    rewrite TaskView.decode TaskView.encode, rewrite Tally.decode Tally.encode]

/-- Whatever is read from a text as a tray in either form, as a task, as a view or as counts, is
read again from what is written of it, a tray then in the newer form; and to read and to write that
once more changes nothing. -/
theorem decode_encode_and_rewrite_eq_self (bytes : Bytes) :
    (∀ entries form, EntryList.decode bytes = .ok (entries, form) →
      EntryList.decode (EntryList.encode entries) = .ok (entries, .entries)) ∧
    (∀ task, Task.decode bytes = .ok task → Task.decode task.encode = .ok task) ∧
    (∀ view, TaskView.decode bytes = .ok view → TaskView.decode view.encode = .ok view) ∧
    (∀ tally, Tally.decode bytes = .ok tally → Tally.decode tally.encode = .ok tally) ∧
    ∀ rewrite ∈ rewrites, ∀ written, rewrite bytes = .ok written →
      rewrite written = .ok written := by
  refine ⟨fun _ _ => EntryList.decode_encode_of_decode, fun _ => Task.decode_encode_of_decode,
    fun _ => TaskView.decode_encode_of_decode, fun _ => Tally.decode_encode_of_decode, ?_⟩
  unfold rewrites
  simp only [List.forall_mem_cons]
  refine ⟨fun _ => rewrite_eq_self ?_, fun _ => rewrite_eq_self ?_, fun _ => rewrite_eq_self ?_,
    fun _ => rewrite_eq_self ?_, by simp⟩
  · exact fun tray decoded => ⟨_, EntryList.decode_encode_of_decode decoded, rfl⟩
  · exact fun task decoded => ⟨task, Task.decode_encode_of_decode decoded, rfl⟩
  · exact fun view decoded => ⟨view, TaskView.decode_encode_of_decode decoded, rfl⟩
  · exact fun tally decoded => ⟨tally, Tally.decode_encode_of_decode decoded, rfl⟩

/-- A tray in the older form, a task with older names of fields and a field that nobody knows, a
view that has both, and counts that are written as an array. -/
theorem decode_encode_of_odd_texts :
    let tray := Utf8.encode "[ \"\\u0061\", \"b\" ] "
    let task := Utf8.encode
      "\x7b\"post_id\":null,\"x\":[1],\"message\":\"\\u0041\",\"id\":\"1\",\"create_at\":7\x7d"
    let view := Utf8.encode
      "\x7b\"foreign_list\":\"sent\",\"x\":[1],\"message\":\"A\",\"id\":\"1\",\"create_at\":7\x7d"
    let entries : List Entry := [.unlinked "a", .unlinked "b"]
    let call : Task := ⟨"1", "A", "", ⟨7⟩, none⟩
    let shown : TaskView := ⟨call, none, some .sent, none⟩
    (EntryList.decode tray = .ok (entries, .names) ∧
      EntryList.decode (EntryList.encode entries) = .ok (entries, .entries)) ∧
    (Task.decode task = .ok call ∧ Task.decode call.encode = .ok call) ∧
    (TaskView.decode view = .ok shown ∧ TaskView.decode shown.encode = .ok shown) ∧
    (Tally.decode (Utf8.encode "[1, 2, 3]") = .ok ⟨1, 2, 3⟩ ∧
      Tally.decode (Tally.encode ⟨1, 2, 3⟩) = .ok ⟨1, 2, 3⟩) ∧
    ∃ written, rewrite Task.decode Task.encode task = .ok written ∧ written ≠ task ∧
      rewrite Task.decode Task.encode written = .ok written := by
  intro tray task view entries call shown
  have tray_read : EntryList.decode tray = .ok (entries, .names) := by decide +kernel
  have task_read : Task.decode task = .ok call := by decide +kernel
  have view_read : TaskView.decode view = .ok shown := by decide +kernel
  have tally_read : Tally.decode (Utf8.encode "[1, 2, 3]") = .ok ⟨1, 2, 3⟩ := by decide +kernel
  have rewritten : rewrite Task.decode Task.encode task = .ok call.encode := by
    rw [rewrite, task_read]
    rfl
  have listed : rewrite Task.decode Task.encode ∈ rewrites := by simp [rewrites]
  obtain ⟨of_tray, -, -, -, -⟩ := decode_encode_and_rewrite_eq_self tray
  obtain ⟨-, of_task, -, -, of_rewrites⟩ := decode_encode_and_rewrite_eq_self task
  obtain ⟨-, -, of_view, -, -⟩ := decode_encode_and_rewrite_eq_self view
  obtain ⟨-, -, -, of_tally, -⟩ := decode_encode_and_rewrite_eq_self (Utf8.encode "[1, 2, 3]")
  exact ⟨⟨tray_read, of_tray _ _ tray_read⟩, ⟨task_read, of_task _ task_read⟩,
    ⟨view_read, of_view _ view_read⟩, ⟨tally_read, of_tally _ tally_read⟩,
    ⟨call.encode, rewritten, by decide +kernel, of_rewrites _ listed _ rewritten⟩⟩

end Handoff
