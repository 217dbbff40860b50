import Handoff.Proofs.Json.Members
import Handoff.Proofs.Json.Rendering
import Handoff.Proofs.Task.Encoding

/-!
# The forms of stored tasks

A task is read from any object that gives each of its fields once, under the newer or the older name
of the field, in whatever order and among whatever other members.
-/

namespace Handoff.Task

open Json

def fieldNames : List (List String) :=
  [["id"], ["message"], ["description"], ["created_at", "create_at"], ["origin_post_id", "post_id"]]

/-- The members give each field of the task once, and other members have other names.  An empty
description may be left out, and that there is no origin may be said in three ways. -/
structure IsGiven (task : Task) (members : List (Outline × Outline)) : Prop where
  named : ∀ member ∈ members, ∃ name, member.1 = .text (some name)
  id : valuesOf ["id"] members = [.text (some task.id)]
  message : valuesOf ["message"] members = [.text (some task.message)]
  description : GivesText members "description" task.description
  createdAt : valuesOf ["created_at", "create_at"] members =
    [.number (numeralOf task.createdAt.millis.toNat)]
  origin : match task.origin with
    | some place => valuesOf ["origin_post_id", "post_id"] members = [.text (some place)]
    | none => valuesOf ["origin_post_id", "post_id"] members ∈ [[], [.null], [.text (some "")]]

theorem Draft.read_eq_ok_iff {draft next : Draft} {name : String} {value : Outline} :
    draft.read (.text (some name), value) = .ok next ↔
      name = "id" ∧ draft.id = none ∧
          (∃ text, value.readText = .ok text ∧ next = { draft with id := some text }) ∨
        name = "message" ∧ draft.message = none ∧
          (∃ text, value.readText = .ok text ∧ next = { draft with message := some text }) ∨
        name = "description" ∧ draft.description = none ∧
          (∃ text, value.readText = .ok text ∧ next = { draft with description := some text }) ∨
        (name = "created_at" ∨ name = "create_at") ∧ draft.createdAt = none ∧
          (∃ moment, readInstant value = .ok moment ∧
            next = { draft with createdAt := some moment }) ∨
        (name = "origin_post_id" ∨ name = "post_id") ∧ draft.origin = none ∧
          (∃ origin, readOrigin value = .ok origin ∧ next = { draft with origin := some origin }) ∨
        name ∉ fieldNames.flatten ∧ value.isWhole = true ∧ next = draft := by
  simp only [Draft.read, Outline.readKey, ok_bind]
  split
  case h_8 =>
    rw [skip_eq_ok_iff]
    simp_all [fieldNames]
  all_goals
    rw [once_read_eq_ok_iff]
    simp [fieldNames]

def slots : List (Slot Draft) :=
  [⟨["id"], Outline.readText, Draft.id⟩, ⟨["message"], Outline.readText, Draft.message⟩,
    ⟨["description"], Outline.readText, Draft.description⟩,
    ⟨["created_at", "create_at"], readInstant, Draft.createdAt⟩,
    ⟨["origin_post_id", "post_id"], readOrigin, Draft.origin⟩]

theorem readsInto_slots : ReadsInto slots (fun value => value.isWhole = true) Draft.read where
  named draft member next read_eq := by
    obtain ⟨name, key_eq, -⟩ := bind_eq_ok.mp read_eq
    exact ⟨name, readKey_eq_ok_iff.mp key_eq⟩
  takes_iff draft name value := by
    by_cases known : name ∈ fieldNames.flatten
    · simp only [fieldNames, List.flatten_cons, List.flatten_nil, List.cons_append, List.nil_append,
        List.mem_cons, List.not_mem_nil, or_false] at known
      rcases known with rfl | rfl | rfl | rfl | rfl | rfl | rfl <;>
        simp [Draft.read_eq_ok_iff, takes_iff, slots, fieldNames]
    · simp only [fieldNames, List.flatten_cons, List.flatten_nil, List.cons_append, List.nil_append,
        List.mem_cons, List.not_mem_nil, or_false, not_or] at known
      simp [Draft.read_eq_ok_iff, takes_iff, slots, known, fieldNames]
  fills draft name value next read_eq := by
    obtain ⟨rfl, -, a, read_value, rfl⟩ | ⟨rfl, -, a, read_value, rfl⟩ |
      ⟨rfl, -, a, read_value, rfl⟩ | ⟨rfl | rfl, -, a, read_value, rfl⟩ |
      ⟨rfl | rfl, -, a, read_value, rfl⟩ | ⟨unknown, -, rfl⟩ := Draft.read_eq_ok_iff.mp read_eq
    case inr.inr.inr.inr.inr => simp_all [slots, fieldNames]
    all_goals simp [slots, read_value, Except.toOption]

/-- What it takes to read all members: each field is given once at most, and other values are
whole. -/
theorem foldlM_read_eq_ok_iff {members : List (Outline × Outline)} {draft : Draft} :
    members.foldlM Draft.read .empty = .ok draft ↔
      (∀ member ∈ members, Suits slots (fun value => value.isWhole = true) member) ∧
      ∀ slot ∈ slots, Given slot.names slot.read members (slot.field draft) := by
  refine readsInto_slots.foldlM_eq_ok_iff (by simp [slots, Draft.empty]) fun draft other same => ?_
  obtain ⟨_, _, _, _, _⟩ := draft
  simp only [slots, List.forall_mem_cons] at same
  simp [same]

theorem IsGiven.exists_origin {task : Task} {members : List (Outline × Outline)}
    (given : task.IsGiven members) (named : task.OriginNamed) :
    ∃ origin, Given ["origin_post_id", "post_id"] readOrigin members origin ∧
      origin.join = task.origin := by
  have shape := given.origin
  cases origin_eq : task.origin with
  | some place =>
      rw [origin_eq] at shape
      have nonempty : namedOrigin (some place) = some place :=
        namedOrigin_eq_self (origin_eq ▸ named)
      refine ⟨some (some place), ⟨_, shape, ?_⟩, rfl⟩
      simp [readOrigin, Outline.readOptional, Outline.readText, Except.map, nonempty]
  | none =>
      rw [origin_eq] at shape
      simp only [List.mem_cons, List.not_mem_nil, or_false] at shape
      rcases shape with absent | null | empty
      · exact ⟨none, absent, rfl⟩
      · exact ⟨some none, ⟨_, null, rfl⟩, rfl⟩
      · exact ⟨some none, ⟨_, empty, rfl⟩, rfl⟩

/-- Members that give a task are read as this task. -/
theorem ofMembers_of_isGiven {task : Task} {members : List (Outline × Outline)}
    (named : task.OriginNamed) (given : task.IsGiven members)
    (whole : ∀ member ∈ members, member.2.isWhole = true) : ofMembers members = .ok task := by
  obtain ⟨description, given_description, described⟩ := givesText_iff.mp given.description
  obtain ⟨origin, given_origin, origin_eq⟩ := given.exists_origin named
  have read_createdAt := readInstant_numeralOf task.createdAt
  have read_all : members.foldlM Draft.read .empty =
      .ok ⟨some task.id, some task.message, description, some task.createdAt, origin⟩ := by
    refine foldlM_read_eq_ok_iff.mpr ⟨fun member mem => ?_, ?_⟩
    · obtain ⟨name, named⟩ := given.named member mem
      exact ⟨name, named, .inr (whole member mem)⟩
    · simp only [slots, List.forall_mem_cons]
      exact ⟨⟨_, given.id, rfl⟩, ⟨_, given.message, rfl⟩, given_description,
        ⟨_, given.createdAt, read_createdAt⟩, given_origin, by simp⟩
  rw [ofMembers, read_all, ok_bind]
  simp [Draft.finish, required, described, origin_eq, bind, Except.bind, pure, Except.pure]

/-- Members that are read as a task give each field at most once. -/
theorem length_valuesOf_le_of_ofMembers {members : List (Outline × Outline)} {task : Task}
    (read_eq : ofMembers members = .ok task) :
    ∀ names ∈ fieldNames, (valuesOf names members).length ≤ 1 := by
  obtain ⟨draft, read_all, -⟩ := bind_eq_ok.mp read_eq
  intro names mem
  obtain ⟨slot, slot_mem, rfl⟩ := List.mem_map.mp (show names ∈ slots.map Slot.names from mem)
  exact ((foldlM_read_eq_ok_iff.mp read_all).2 slot slot_mem).length_le

/-- A JSON text of an object is read as the task that its members give, in whatever order, under
newer or older names, among whatever other members and however it is spelled.  It is refused if a
field comes twice, be it under two names. -/
theorem decode_of_renders_object {members : List (Outline × Outline)} {bytes : Bytes}
    (rendered : Renders (.object members) bytes) :
    (∀ task : Task, task.origin ≠ some "" → task.IsGiven members → decode bytes = .ok task) ∧
    ∀ names ∈ fieldNames, 2 ≤ (valuesOf names members).length →
      ∃ cause, decode bytes = .error cause := by
  have decoded : decode bytes = ofMembers members := rendered.decode_eq read
  rw [decoded]
  constructor
  · exact fun task named given =>
      ofMembers_of_isGiven named given (Outline.isWhole_of_mem rendered.isWhole)
  · intro names mem twice
    cases read_eq : ofMembers members with
    | ok task =>
        have once := length_valuesOf_le_of_ofMembers read_eq names mem
        omega
    | error cause => exact ⟨cause, rfl⟩

/-- An object with two older names, the latest moment, an escape in a name and a number that is
passed over; and an object that gives its moment under both names. -/
theorem decode_of_odd_objects :
    let task : Task := ⟨"1", "", "", ⟨18446744073709551615⟩, none⟩
    let odd := Utf8.encode ("\x7b\"post_id\":null,\"x\": [-1.5e3],\"create_at\":" ++
      "18446744073709551615,\"\\u0069d\":\"1\",\"message\":\"\"\x7d")
    let twice := Utf8.encode "\x7b\"created_at\":1,\"create_at\":1\x7d"
    decode odd = .ok task ∧ ∃ cause, decode twice = .error cause := by
  intro task odd twice
  have space : IsSpace [0x20] := by simp [IsSpace]
  have nothing : IsSpace [] := by simp [IsSpace]
  have id_name : Renders (.text (some "id"))
      (quoted [[0x5c, 0x75, 0x30, 0x30, 0x36, 0x39], [0x64]]) :=
    @Renders.text "id" _ (.cons (.unit (rendersUnit_byte (by decide)))
      (.cons (.plain (by decide) (by decide) (by decide)) .nil))
  have numeral : RendersNumeral ⟨true, [1], [5], some (false, [3])⟩ _ :=
    .intro (by simp [AreDigits]) (by simp) (.present (by simp [AreDigits]))
      (.unsigned (.inl rfl) (by simp [AreDigits]))
  have other := (@Renders.array [(_, _)] (by simp) (by simpa using Renders.number numeral)).spaced
    space nothing
  have moment (n : Nat) := Renders.number (rendersNumeral_natural n)
  have odd_object := @Renders.object
    [⟨some "post_id", .null, _, _⟩, ⟨some "x", _, _, _⟩,
      ⟨some "create_at", .number (numeralOf 18446744073709551615), _, _⟩,
      ⟨some "id", .text (some "1"), _, _⟩, ⟨some "message", .text (some ""), _, _⟩] (by simp)
    (by simpa using ⟨renders_quote _, renders_quote _, renders_quote _, id_name, renders_quote _⟩)
    (by simpa using ⟨Renders.null, other, moment _, renders_quote _, renders_quote _⟩)
  have twice_object := @Renders.object
    [⟨some "created_at", .number (numeralOf 1), _, _⟩,
      ⟨some "create_at", .number (numeralOf 1), _, _⟩] (by simp)
    (by simpa using ⟨renders_quote _, renders_quote _⟩) (by simpa using ⟨moment 1, moment 1⟩)
  have odd_rendered : Renders (.object _) odd := odd_object
  have twice_rendered : Renders (.object _) twice := twice_object
  obtain ⟨of_odd, -⟩ := decode_of_renders_object odd_rendered
  obtain ⟨-, of_twice⟩ := decode_of_renders_object twice_rendered
  exact ⟨of_odd task (by decide) ⟨by simp [MemberText.outline], rfl, rfl, .inr ⟨rfl, rfl⟩, rfl,
    .tail _ (.head _)⟩, of_twice ["created_at", "create_at"] (by decide) (Nat.le_refl 2)⟩

end Handoff.Task
