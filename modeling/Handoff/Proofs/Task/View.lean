import Handoff.Proofs.Task.Encoding
import Handoff.Proofs.Tray.Encoding
import Handoff.Task.View

/-!
# Reading task views back

The fields of the task in a view are set aside until the view has been read, and the task is then
read from them.  They never stand in place of the fields of the other copy, so a view is read back
as its task would be by itself, together with what is known of the other copy.
-/

namespace Handoff

open Json

namespace TaskView

/-- The position, if there is one, fits 64 bits. -/
def Fits (view : TaskView) : Prop :=
  ∀ position, view.partnerPosition = some position → position ≤ maxSignificand

/-! ## What is set aside -/

/-- The member is none of the fields of the other copy, and its value is sound. -/
def SetAside (member : Outline × Outline) : Prop :=
  ∃ name, member.1 = .text (some name) ∧
    name ∉ ["foreign_user", "foreign_list", "foreign_position"] ∧
    member.2.isSound maxDepth = true

theorem Draft.read_of_setAside (draft : Draft) {member : Outline × Outline}
    (aside : SetAside member) :
    draft.read member = .ok { draft with rest := member :: draft.rest } := by
  obtain ⟨key, value⟩ := member
  obtain ⟨name, rfl, other, sound⟩ := aside
  simp only [List.mem_cons, List.not_mem_nil, or_false, not_or] at other
  simp [Draft.read, Outline.readKey, other, sound, bind, Except.bind, pure, Except.pure]

theorem Draft.foldlM_read_of_setAside (draft : Draft) {members : List (Outline × Outline)}
    (aside : ∀ member ∈ members, SetAside member) :
    members.foldlM Draft.read draft = .ok { draft with rest := members.reverse ++ draft.rest } := by
  induction members generalizing draft with
  | nil => rfl
  | cons member members induction =>
      obtain ⟨first, others⟩ := List.forall_mem_cons.mp aside
      rw [List.foldlM_cons, draft.read_of_setAside first]
      change members.foldlM Draft.read { draft with rest := member :: draft.rest } = _
      rw [induction _ others]
      simp

theorem setAside_of_mem_fields (task : Task) : ∀ member ∈ task.fields, SetAside member := by
  have text (name contents : String)
      (other : name ∉ ["foreign_user", "foreign_list", "foreign_position"]) :
      ∀ member ∈ [(Outline.text (some name), Outline.text (some contents))], SetAside member :=
    List.forall_mem_singleton.mpr ⟨name, rfl, other, rfl⟩
  have instant : (numeralOf task.createdAt.millis.toNat).value?.isSome = true := by
    rw [value?_numeralOf (Task.millis_le_maxSignificand task.createdAt)]
    rfl
  unfold Task.fields
  simp only [List.forall_mem_append]
  refine ⟨⟨⟨?_, ?_⟩, ?_⟩, ?_⟩
  · exact List.forall_mem_cons.mpr
      ⟨⟨"id", rfl, by decide, rfl⟩, text "message" task.message (by decide)⟩
  · split
    · simp
    · exact text "description" task.description (by decide)
  · exact List.forall_mem_singleton.mpr ⟨"created_at", rfl, by decide, instant⟩
  · split
    · simp
    · exact text "origin_post_id" _ (by decide)

/-! ## Views that are read back -/

/-- The outline of what is known of the other copy. -/
def partnerFields (view : TaskView) : List (Outline × Outline) :=
  view.partner.toList.map (fun name => (.text (some "foreign_user"), .text (some name)))
    ++ view.partnerTray.toList.map
      (fun tray => (.text (some "foreign_list"), .text (some tray.name)))
    ++ view.partnerPosition.toList.map
      (fun position => (.text (some "foreign_position"), .number (numeralOf position)))

def fields (view : TaskView) : List (Outline × Outline) := view.task.fields ++ view.partnerFields

theorem writesWhole_encode (view : TaskView) : WritesWhole view.encode (.object view.fields) := by
  have known {α : Type} (name : String) {write : α → Bytes} {shape : α → Outline}
      (writes : ∀ a, Writes (write a) (shape a)) (value : Option α) :
      List.Forall₂ WritesMember (value.toList.map fun a => (name, write a))
        (value.toList.map fun a => (.text (some name), shape a)) :=
    List.forall₂_map_left_iff.mpr (List.forall₂_map_right_iff.mpr
      (List.forall₂_same.mpr fun a _ => ⟨rfl, writes a⟩))
  apply writesWhole_object
  unfold members fields partnerFields
  rw [List.append_assoc, List.append_assoc, List.append_assoc]
  refine List.rel_append view.task.writesMembers (List.rel_append ?_ (List.rel_append ?_ ?_))
  · exact known "foreign_user" writes_quote view.partner
  · exact known "foreign_list" Tray.writes_encode view.partnerTray
  · exact known "foreign_position" writes_natural view.partnerPosition

theorem foldlM_read_partnerFields {view : TaskView} (fits : view.Fits)
    (rest : List (Outline × Outline)) :
    view.partnerFields.foldlM Draft.read ⟨rest, none, none, none⟩ =
      .ok ⟨rest, view.partner.map some, view.partnerTray.map some,
        view.partnerPosition.map some⟩ := by
  obtain ⟨task, partner, tray, position⟩ := view
  have position_read (n : Nat) (found : position = some n) :
      Outline.readNatural "usize" (.number (numeralOf n)) = .ok n :=
    readNatural_numeralOf (fits n found) "usize"
  have tray_read := Tray.read_name
  unfold partnerFields
  cases partner <;> cases tray <;> cases position <;>
    simp [Draft.read, Outline.readKey, Outline.readText, Outline.readOptional, once, Except.map,
      tray_read, position_read, bind, Except.bind, pure, Except.pure]

/-- What is read of a written view: everything, but an origin that is the empty text. -/
theorem read_fields {view : TaskView} (fits : view.Fits) :
    read (.object view.fields) =
      .ok { view with task := { view.task with origin := Task.namedOrigin view.task.origin } } := by
  have task_read : view.task.fields.foldlM Draft.read Draft.empty =
      .ok ⟨view.task.fields.reverse, none, none, none⟩ := by
    rw [Draft.empty.foldlM_read_of_setAside (setAside_of_mem_fields view.task)]
    simp [Draft.empty]
  have all_read : view.fields.foldlM Draft.read Draft.empty =
      .ok ⟨view.task.fields.reverse, view.partner.map some, view.partnerTray.map some,
        view.partnerPosition.map some⟩ := by
    rw [fields, List.foldlM_append, task_read]
    exact foldlM_read_partnerFields fits _
  have joined {α : Type} (value : Option α) : (value.map some).join = value := by
    cases value <;> rfl
  rw [read, all_read]
  simp [Draft.finish, Task.ofMembers_fields, joined, bind, Except.bind, pure, Except.pure]

theorem decode_encode {view : TaskView} (fits : view.Fits) :
    decode view.encode =
      .ok { view with task := { view.task with origin := Task.namedOrigin view.task.origin } } := by
  rw [decode, view.writesWhole_encode.decode_eq]
  exact read_fields fits

/-- A written view is read back as it is if its origin is not the empty text. -/
theorem decode_encode_of_originNamed {view : TaskView} (fits : view.Fits)
    (named : view.task.OriginNamed) : decode view.encode = .ok view := by
  rw [decode_encode fits, Task.namedOrigin_eq_self named]

/-! ## Views that have been read -/

/-- The position that has been read, if it has, fits 64 bits. -/
def Draft.Fits (draft : Draft) : Prop :=
  ∀ position, draft.partnerPosition.join = some position → position ≤ maxSignificand

theorem le_of_readOptional {value : Outline} {position : Option Nat} {n : Nat}
    (read_eq : value.readOptional (Outline.readNatural "usize") = .ok position)
    (found : position = some n) : n ≤ maxSignificand := by
  subst found
  unfold Outline.readOptional at read_eq
  split at read_eq
  · cases read_eq
  · cases counted : value.readNatural "usize" with
    | ok m =>
        rw [counted] at read_eq
        cases read_eq
        exact le_of_readNatural counted
    | error e =>
        rw [counted] at read_eq
        cases read_eq

theorem Draft.fits_of_read {draft next : Draft} {member : Outline × Outline}
    (read_eq : draft.read member = .ok next) (fits : draft.Fits) : next.Fits := by
  obtain ⟨name, _, read_eq⟩ := bind_eq_ok.mp read_eq
  split at read_eq
  case h_3 =>
    obtain ⟨_, _, read_eq⟩ := bind_eq_ok.mp read_eq
    obtain ⟨position, position_read, read_eq⟩ := bind_eq_ok.mp read_eq
    cases read_eq
    exact fun n => le_of_readOptional position_read
  case h_4 =>
    split at read_eq
    · cases read_eq
      exact fits
    · cases read_eq
  all_goals
    obtain ⟨_, _, read_eq⟩ := bind_eq_ok.mp read_eq
    obtain ⟨_, _, read_eq⟩ := bind_eq_ok.mp read_eq
    cases read_eq
    exact fits

theorem fits_and_originNamed_of_decode {bytes : Bytes} {view : TaskView}
    (decoded : decode bytes = .ok view) : view.Fits ∧ view.task.OriginNamed := by
  have read_eq := read_of_decode_ok decoded
  cases shape : (outline bytes).1 with
  | object members =>
      rw [shape] at read_eq
      obtain ⟨draft, read_all, finished⟩ := bind_eq_ok.mp read_eq
      have start : Draft.empty.Fits := by
        rintro n ⟨⟩
      have fits := keeps_of_foldlM_ok (fun _ _ _ => Draft.fits_of_read) read_all start
      obtain ⟨task, task_read, finished⟩ := bind_eq_ok.mp finished
      cases finished
      exact ⟨fits, Task.originNamed_of_ofMembers task_read⟩
  | _ =>
      rw [shape] at read_eq
      cases read_eq

end TaskView

/-- Every task is read back from what is written of it, and so are every view with a position of 64
bits and all counts of 64 bits; but an origin that is the empty text is read as none. -/
theorem decode_encode_eq_readBack :
    (∀ task : Task, Task.decode task.encode = .ok task.readBack) ∧
    (∀ view : TaskView, view.Fits →
      TaskView.decode view.encode = .ok { view with task := view.task.readBack }) ∧
    ∀ tally : Tally, tally.Fits → Tally.decode tally.encode = .ok tally := by
  refine ⟨fun task => ?_, fun view fits => ?_, fun tally => Tally.decode_encode⟩
  · rw [Task.readBack_eq]
    exact task.decode_encode
  · rw [Task.readBack_eq]
    exact TaskView.decode_encode fits

/-- The latest moment, a text beyond ASCII, an empty user, an empty origin and the largest numbers
of 64 bits. -/
theorem decode_encode_of_largest :
    let task : Task := ⟨"", "\x00\"\\é😀", "", ⟨18446744073709551615⟩, some ""⟩
    let view : TaskView := ⟨task, some "", some .received, some 18446744073709551615⟩
    let tally : Tally := ⟨18446744073709551615, 0, 18446744073709551615⟩
    Task.decode task.encode = .ok { task with origin := none } ∧
    TaskView.decode view.encode = .ok { view with task := { task with origin := none } } ∧
    Tally.decode tally.encode = .ok tally := by
  intro task view tally
  obtain ⟨of_task, of_view, of_tally⟩ := decode_encode_eq_readBack
  have view_fits : view.Fits := by
    rintro position ⟨⟩
    exact Nat.le_refl _
  have tally_fits : tally.Fits := Tally.fits_mk (Nat.le_refl _) (Nat.zero_le _) (Nat.le_refl _)
  exact ⟨of_task task, of_view view view_fits, of_tally tally tally_fits⟩

end Handoff
