import Handoff.Proofs.Json.Written

/-!
# The outlines of JSON texts

Every JSON text of a value has the outline of this value, however its spaces, escapes and digits
were chosen, so a decoder makes of the text what its reader makes of the value.
-/

namespace Handoff.Json

theorem Renders.spells_name {name : Option String} {bytes : Bytes}
    (named : Renders (.text name) bytes) : Spells bytes [.text name] := by
  generalize same : Outline.text name = value at named
  induction named with
  | text written =>
      cases same
      exact spells_text written
  | unpaired written mem apart =>
      cases same
      exact spells_unpaired written mem apart
  | spaced blank_before _ blank_after induction =>
      have inner := (blank_before.spells.append (induction same)).append blank_after.spells
      simpa using inner
  | _ => cases same

/-- Every JSON text of a value has tokens that are read as this value. -/
theorem Renders.exists_tokens {value : Outline} {bytes : Bytes} (rendered : Renders value bytes) :
    ∃ ts, SpellsSettled bytes ts ∧ Reads ts value := by
  have whole {value : Outline} {bytes : Bytes} (whole : WritesWhole bytes value) :
      ∃ ts, SpellsSettled bytes ts ∧ Reads ts value := by
    obtain ⟨ts, spells, reads⟩ := whole
    exact ⟨ts, spells.settled, reads⟩
  have inside {value : Outline} {bytes : Bytes}
      (read : ∃ ts, SpellsSettled bytes ts ∧ Reads ts value) : Writes bytes value := by
    obtain ⟨ts, spells, reads⟩ := read
    exact ⟨ts, spells.inside, reads⟩
  induction rendered with
  | null => exact whole ⟨[.null], fun _ => rfl, fun _ _ => rfl⟩
  | bool b => exact whole ⟨[.bool b], fun _ => by cases b <;> rfl, fun _ _ => rfl⟩
  | number written => exact ⟨_, written.spellsSettled, fun _ _ => rfl⟩
  | text written => exact whole ⟨_, spells_text written, fun _ _ => rfl⟩
  | unpaired written mem apart =>
      exact whole ⟨_, spells_unpaired written mem apart, fun _ _ => rfl⟩
  | emptyArray blank =>
      have spells := spells_openArray.append (blank.spells.append spells_closeArray)
      exact whole ⟨_, spells, fun _ _ => rfl⟩
  | array _ _ induction =>
      refine whole (writesWhole_array ?_)
      rw [List.forall₂_map_left_iff, List.forall₂_map_right_iff, List.forall₂_same]
      exact fun item mem => inside (induction item mem)
  | emptyObject blank =>
      have spells := spells_openObject.append (blank.spells.append spells_closeObject)
      exact whole ⟨_, spells, fun _ _ => rfl⟩
  | object _ named _ _ induction =>
      refine whole (writesWhole_members ?_)
      rw [List.forall₂_map_left_iff, List.forall₂_map_right_iff, List.forall₂_same]
      exact fun member mem => spellsMember_of_colon rfl
        ((named member mem).spells_name.append spells_colon) (inside (induction member mem))
  | spaced blank_before _ blank_after induction =>
      obtain ⟨ts, spells, reads⟩ := induction
      exact ⟨ts, spells.spaced blank_before blank_after, reads⟩

theorem Renders.outline_eq {value : Outline} {bytes : Bytes} (rendered : Renders value bytes) :
    outline bytes = (value, false) := by
  obtain ⟨ts, spells, reads⟩ := rendered.exists_tokens
  rw [outline, spells.tokens_eq, reads [] false]
  rfl

/-- A JSON text is decoded to what the reader makes of its value. -/
theorem Renders.decode_eq {α : Type} {value : Outline} {bytes : Bytes}
    (rendered : Renders value bytes) (read : Outline → Except Error α) :
    decode read bytes = read value :=
  decode_of_outline_eq rendered.outline_eq read

theorem Renders.isWhole {value : Outline} {bytes : Bytes} (rendered : Renders value bytes) :
    value.isWhole = true := by
  have items_whole {items : List (Outline × Bytes)}
      (each : ∀ item ∈ items, item.1.isWhole = true) :
      Outline.areWhole (items.map Prod.fst) = true := by
    induction items with
    | nil => rfl
    | cons item items induction =>
        obtain ⟨first, rest⟩ := List.forall_mem_cons.mp each
        rw [List.map_cons, Outline.areWhole, first, induction rest]
        rfl
  have members_whole {members : List MemberText}
      (each : ∀ member ∈ members, member.value.isWhole = true) :
      Outline.membersWhole (members.map MemberText.outline) = true := by
    induction members with
    | nil => rfl
    | cons member members induction =>
        obtain ⟨first, rest⟩ := List.forall_mem_cons.mp each
        rw [List.map_cons, MemberText.outline, Outline.membersWhole, first, induction rest]
        rfl
  induction rendered with
  | array _ _ induction => exact items_whole induction
  | object _ _ _ _ induction => exact members_whole induction
  | spaced _ _ _ induction => exact induction
  | _ => rfl

theorem Outline.isWhole_of_mem {members : List (Outline × Outline)}
    (whole : (Outline.object members).isWhole = true) :
    ∀ member ∈ members, member.2.isWhole = true := by
  rw [isWhole] at whole
  induction members with
  | nil => simp
  | cons member members induction =>
      rw [membersWhole, Bool.and_eq_true] at whole
      exact List.forall_mem_cons.mpr ⟨whole.1, induction whole.2⟩

end Handoff.Json
