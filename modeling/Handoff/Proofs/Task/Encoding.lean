import Handoff.Proofs.Json.Numeral
import Handoff.Task.Encoding

/-!
# Reading stored tasks back

A stored task is read back as it was written, but for an origin that is the empty text, which is
read as none.  No task that is created, copied or edited has such an origin.
-/

namespace Handoff

open Json

namespace Task

/-- The origin, if there is one, is not the empty text. -/
def OriginNamed (task : Task) : Prop := task.origin ≠ some ""

theorem namedOrigin_eq_self {origin : Option String} (named : origin ≠ some "") :
    namedOrigin origin = origin := by
  cases origin with
  | none => rfl
  | some place =>
      have nonempty : place ≠ "" := fun empty => named (congrArg some empty)
      simp [namedOrigin, Option.filter, nonempty]

theorem namedOrigin_ne_empty (origin : Option String) : namedOrigin origin ≠ some "" := by
  simp [namedOrigin, Option.filter_eq_some_iff]

theorem originNamed_create (id : TaskId) (now : Instant) (message description : String)
    (origin : Option String) : (create id now message description origin).OriginNamed :=
  namedOrigin_ne_empty origin

theorem originNamed_copy (task : Task) (id : TaskId) (now : Instant) :
    (task.copy id now).OriginNamed :=
  originNamed_create id now task.message task.description task.origin

theorem OriginNamed.withContent {task : Task} (named : task.OriginNamed)
    (message description : String) : (task.withContent message description).OriginNamed :=
  named

def fields (task : Task) : List (Outline × Outline) :=
  [(.text (some "id"), .text (some task.id)), (.text (some "message"), .text (some task.message))]
    ++ (if task.description.isEmpty then []
        else [(.text (some "description"), .text (some task.description))])
    ++ [(.text (some "created_at"), .number (numeralOf task.createdAt.millis.toNat))]
    ++ (match task.origin with
      | none => []
      | some place => [(.text (some "origin_post_id"), .text (some place))])

theorem writesMembers (task : Task) : List.Forall₂ WritesMember task.members task.fields := by
  have text (name contents : String) : List.Forall₂ WritesMember [(name, quote contents)]
      [(.text (some name), .text (some contents))] :=
    .cons ⟨rfl, writes_quote contents⟩ .nil
  unfold members fields
  refine List.rel_append (List.rel_append (List.rel_append ?_ ?_) ?_) ?_
  · exact List.rel_append (text "id" task.id) (text "message" task.message)
  · split
    · exact .nil
    · exact text "description" task.description
  · exact .cons ⟨rfl, writes_natural _⟩ .nil
  · cases task.origin with
    | none => exact .nil
    | some place => exact text "origin_post_id" place

theorem writesWhole_encode (task : Task) : WritesWhole task.encode (.object task.fields) :=
  writesWhole_object task.writesMembers

theorem millis_le_maxSignificand (moment : Instant) :
    moment.millis.toNat ≤ maxSignificand :=
  Nat.le_sub_one_of_lt moment.millis.toNat_lt_size

theorem readInstant_numeralOf (moment : Instant) :
    readInstant (.number (numeralOf moment.millis.toNat)) = .ok moment := by
  rw [readInstant, readNatural_numeralOf (millis_le_maxSignificand moment)]
  simp [Except.map]

/-- What is read of a stored task: everything, but an origin that is the empty text. -/
theorem ofMembers_fields (task : Task) :
    ofMembers task.fields = .ok { task with origin := namedOrigin task.origin } := by
  obtain ⟨id, message, description, createdAt, origin⟩ := task
  have description_empty : description.isEmpty = true → description = "" := by simp
  have instant := readInstant_numeralOf createdAt
  unfold fields
  by_cases described : description.isEmpty = true <;> cases origin <;>
    simp_all [ofMembers, Draft.read, Draft.empty, Draft.finish, Outline.readKey, Outline.readText,
      once, required, readOrigin, Outline.readOptional, namedOrigin, Except.map, bind, Except.bind,
      pure, Except.pure]

theorem decode_encode (task : Task) :
    decode task.encode = .ok { task with origin := namedOrigin task.origin } := by
  rw [decode, task.writesWhole_encode.decode_eq]
  exact ofMembers_fields task

/-- The task as it is read back, without an origin that is the empty text. -/
def readBack (task : Task) : Task :=
  if task.origin = some "" then { task with origin := none } else task

theorem readBack_eq (task : Task) :
    task.readBack = { task with origin := namedOrigin task.origin } := by
  unfold readBack
  split
  · rename_i empty
    rw [empty]
    rfl
  · rename_i named
    rw [namedOrigin_eq_self named]

/-- A stored task whose origin is not the empty text is read back as it was written. -/
theorem decode_encode_of_originNamed {task : Task} (named : task.OriginNamed) :
    decode task.encode = .ok task := by
  rw [decode_encode, namedOrigin_eq_self named]

theorem ne_empty_of_readOrigin {value : Outline} {origin : Option String}
    (read_eq : readOrigin value = .ok origin) : origin ≠ some "" := by
  unfold readOrigin at read_eq
  cases contents : value.readOptional Outline.readText with
  | ok place =>
      rw [contents] at read_eq
      cases read_eq
      exact namedOrigin_ne_empty place
  | error e =>
      rw [contents] at read_eq
      cases read_eq

/-- The fields that have been read hold no empty origin. -/
def Draft.OriginNamed (draft : Draft) : Prop := draft.origin ≠ some (some "")

theorem Draft.originNamed_of_read {draft next : Draft} {member : Outline × Outline}
    (read_eq : draft.read member = .ok next) (named : draft.OriginNamed) : next.OriginNamed := by
  obtain ⟨name, _, read_eq⟩ := bind_eq_ok.mp read_eq
  split at read_eq
  case h_6 | h_7 =>
    obtain ⟨_, _, read_eq⟩ := bind_eq_ok.mp read_eq
    obtain ⟨origin, read_origin, read_eq⟩ := bind_eq_ok.mp read_eq
    cases read_eq
    exact fun empty => ne_empty_of_readOrigin read_origin (Option.some.inj empty)
  case h_8 =>
    obtain ⟨_, _, read_eq⟩ := bind_eq_ok.mp read_eq
    cases read_eq
    exact named
  all_goals
    obtain ⟨_, _, read_eq⟩ := bind_eq_ok.mp read_eq
    obtain ⟨_, _, read_eq⟩ := bind_eq_ok.mp read_eq
    cases read_eq
    exact named

theorem originNamed_of_ofMembers {members : List (Outline × Outline)} {task : Task}
    (read_eq : ofMembers members = .ok task) : task.OriginNamed := by
  obtain ⟨draft, read_all, finished⟩ := bind_eq_ok.mp read_eq
  have start : Draft.empty.OriginNamed := by
    rintro ⟨⟩
  have named := keeps_of_foldlM_ok (fun _ _ _ => Draft.originNamed_of_read) read_all start
  obtain ⟨id, _, finished⟩ := bind_eq_ok.mp finished
  obtain ⟨message, _, finished⟩ := bind_eq_ok.mp finished
  obtain ⟨createdAt, _, finished⟩ := bind_eq_ok.mp finished
  cases finished
  intro empty
  exact named (Option.join_eq_some_iff.mp empty)

/-- Whatever is read as a task has no empty origin. -/
theorem originNamed_of_decode {bytes : Bytes} {task : Task} (decoded : decode bytes = .ok task) :
    task.OriginNamed := by
  have read_eq := read_of_decode_ok decoded
  cases shape : (outline bytes).1 with
  | object members =>
      rw [shape] at read_eq
      exact originNamed_of_ofMembers read_eq
  | array items =>
      rw [shape] at read_eq
      obtain ⟨id, _, read_eq⟩ := bind_eq_ok.mp read_eq
      obtain ⟨message, _, read_eq⟩ := bind_eq_ok.mp read_eq
      obtain ⟨description, _, read_eq⟩ := bind_eq_ok.mp read_eq
      obtain ⟨createdAt, _, read_eq⟩ := bind_eq_ok.mp read_eq
      obtain ⟨origin, origin_read, read_eq⟩ := bind_eq_ok.mp read_eq
      obtain ⟨_, _, read_eq⟩ := bind_eq_ok.mp read_eq
      cases read_eq
      unfold elementOr at origin_read
      split at origin_read
      · exact ne_empty_of_readOrigin origin_read
      · cases origin_read
        rintro ⟨⟩
  | _ =>
      rw [shape] at read_eq
      cases read_eq

end Task
end Handoff
