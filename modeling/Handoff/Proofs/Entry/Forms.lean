import Handoff.Proofs.Entry.Encoding
import Handoff.Proofs.Json.Members
import Handoff.Proofs.Json.Rendering
import Handoff.Proofs.Stored.Trays

/-!
# The two forms of stored trays

A JSON text is read as a tray if its value is an array of texts or an array of records.  A record is
an object with members of three names, or an array of up to three texts.  No item is both a text and
a record, so it would not matter which form is tried first.
-/

namespace Handoff

open Json

namespace Entry

def fieldNames : List String := ["task_id", "foreign_user_id", "foreign_task_id"]

/-- The value is a record of a task and of the two parts of a link. -/
inductive IsRecord : Outline → TaskId → UserId → TaskId → Prop
  | object {members : List (Outline × Outline)} {task : TaskId} {user : UserId} {other : TaskId}
      (known : ∀ member ∈ members, ∃ name ∈ fieldNames, member.1 = .text (some name))
      (task_given : valuesOf ["task_id"] members = [.text (some task)])
      (user_given : GivesText members "foreign_user_id" user)
      (other_given : GivesText members "foreign_task_id" other) :
      IsRecord (.object members) task user other
  | array {task : TaskId} (parts : List String) (few : parts.length ≤ 2) :
      IsRecord (.array ((task :: parts).map fun text => .text (some text))) task (parts.getD 0 "")
        (parts.getD 1 "")

/-- The value is a record of the entry: both parts of the link are empty and it has none, or neither
is and these are its link. -/
def IsRecordOf (value : Outline) (entry : Entry) : Prop :=
  ∃ user other, IsRecord value entry.task user other ∧
    (user = "" ∧ other = "" ∧ entry.link = none ∨
      user ≠ "" ∧ other ≠ "" ∧ entry.link = some ⟨user, other⟩)

theorem Draft.read_eq_ok_iff {draft next : Draft} {name : String} {value : Outline} :
    draft.read (.text (some name), value) = .ok next ↔
      name = "task_id" ∧ draft.task = none ∧
          (∃ text, value.readText = .ok text ∧ next = { draft with task := some text }) ∨
        name = "foreign_user_id" ∧ draft.otherUser = none ∧
          (∃ text, value.readText = .ok text ∧ next = { draft with otherUser := some text }) ∨
        name = "foreign_task_id" ∧ draft.otherTask = none ∧
          (∃ text, value.readText = .ok text ∧ next = { draft with otherTask := some text }) := by
  simp only [Draft.read, Outline.readKey, ok_bind]
  split
  · rw [once_read_eq_ok_iff]
    simp
  · rw [once_read_eq_ok_iff]
    simp
  · rw [once_read_eq_ok_iff]
    simp
  · rename_i no_task no_user no_other
    constructor
    · rintro ⟨⟩
    · rintro (⟨same, -⟩ | ⟨same, -⟩ | ⟨same, -⟩)
      · exact absurd same no_task
      · exact absurd same no_user
      · exact absurd same no_other

def slots : List (Slot Draft) :=
  [⟨["task_id"], Outline.readText, Draft.task⟩,
    ⟨["foreign_user_id"], Outline.readText, Draft.otherUser⟩,
    ⟨["foreign_task_id"], Outline.readText, Draft.otherTask⟩]

theorem readsInto_slots : ReadsInto slots (fun _ => False) Draft.read where
  named draft member next read_eq := by
    obtain ⟨name, key_eq, -⟩ := bind_eq_ok.mp read_eq
    exact ⟨name, readKey_eq_ok_iff.mp key_eq⟩
  takes_iff draft name value := by
    by_cases known : name ∈ fieldNames
    · simp only [fieldNames, List.mem_cons, List.not_mem_nil, or_false] at known
      rcases known with rfl | rfl | rfl <;> simp [Draft.read_eq_ok_iff, takes_iff, slots]
    · simp only [fieldNames, List.mem_cons, List.not_mem_nil, or_false, not_or] at known
      simp [Draft.read_eq_ok_iff, takes_iff, slots, known]
  fills draft name value next read_eq := by
    obtain ⟨rfl, -, text, read_text, rfl⟩ | ⟨rfl, -, text, read_text, rfl⟩ |
      ⟨rfl, -, text, read_text, rfl⟩ := Draft.read_eq_ok_iff.mp read_eq
    all_goals simp [slots, read_text, Except.toOption]

/-- What it takes to read all members: their names are known, and each field is given once at
most. -/
theorem foldlM_read_eq_ok_iff {members : List (Outline × Outline)} {draft : Draft} :
    members.foldlM Draft.read .empty = .ok draft ↔
      (∀ member ∈ members, ∃ name ∈ fieldNames, member.1 = .text (some name)) ∧
      Given ["task_id"] Outline.readText members draft.task ∧
      Given ["foreign_user_id"] Outline.readText members draft.otherUser ∧
      Given ["foreign_task_id"] Outline.readText members draft.otherTask := by
  have opened : ∀ slot ∈ slots, slot.field .empty = none := by simp [slots, Draft.empty]
  have determined (draft other : Draft)
      (same : ∀ slot ∈ slots, slot.field draft = slot.field other) : draft = other := by
    obtain ⟨_, _, _⟩ := draft
    simp only [slots, List.forall_mem_cons] at same
    simp [same]
  have suits (member : Outline × Outline) : Suits slots (fun _ => False) member ↔
      ∃ name ∈ fieldNames, member.1 = .text (some name) := by
    simp [Suits, slots, fieldNames, and_comm]
  rw [readsInto_slots.foldlM_eq_ok_iff opened determined]
  simp only [suits]
  simp [slots]

theorem ofFields_eq_ok_iff {task : TaskId} {user : UserId} {other : TaskId} {entry : Entry} :
    ofFields task user other = .ok entry ↔
      entry.task = task ∧ (user = "" ∧ other = "" ∧ entry.link = none ∨
        user ≠ "" ∧ other ≠ "" ∧ entry.link = some ⟨user, other⟩) := by
  have user_empty : user = "" ↔ user.isEmpty = true := by simp
  have other_empty : other = "" ↔ other.isEmpty = true := by simp
  obtain ⟨entry_task, link⟩ := entry
  simp only [ofFields, user_empty, other_empty, ne_eq]
  cases user.isEmpty <;> cases other.isEmpty <;> simp [unlinked, linked, eq_comm]

theorem finish_eq_ok_iff {draft : Draft} {entry : Entry} :
    draft.finish = .ok entry ↔ draft.task = some entry.task ∧
      ofFields entry.task (draft.otherUser.getD "") (draft.otherTask.getD "") = .ok entry := by
  unfold Draft.finish
  rw [bind_eq_ok]
  constructor
  · rintro ⟨task, required, fields⟩
    obtain rfl := (ofFields_eq_ok_iff.mp fields).1
    exact ⟨eq_some_of_required required, fields⟩
  · rintro ⟨given, fields⟩
    exact ⟨entry.task, by rw [given]; rfl, fields⟩

theorem read_object_eq_ok_iff {members : List (Outline × Outline)} {entry : Entry} :
    read (.object members) = .ok entry ↔ IsRecordOf (.object members) entry := by
  simp only [read, bind_eq_ok, foldlM_read_eq_ok_iff, finish_eq_ok_iff, ofFields_eq_ok_iff]
  constructor
  · rintro ⟨draft, ⟨known, task, user, other⟩, given, -, link⟩
    rw [given] at task
    obtain ⟨value, only, read_eq⟩ := task
    rw [readText_eq_ok_iff.mp read_eq] at only
    exact ⟨_, _, .object known only (givesText_iff.mpr ⟨_, user, rfl⟩)
      (givesText_iff.mpr ⟨_, other, rfl⟩), link⟩
  · rintro ⟨user, other, ⟨known, task_given, user_given, other_given⟩, link⟩
    obtain ⟨user, given_user, rfl⟩ := givesText_iff.mp user_given
    obtain ⟨other, given_other, rfl⟩ := givesText_iff.mp other_given
    exact ⟨⟨some entry.task, user, other⟩, ⟨known, ⟨_, task_given, rfl⟩, given_user, given_other⟩,
      rfl, trivial, link⟩

/-- Of an array, the first text is the task, and there are two more at most. -/
theorem read_array_eq_ok_iff {items : List Outline} {entry : Entry} :
    read (.array items) = .ok entry ↔ IsRecordOf (.array items) entry := by
  constructor
  · intro read_eq
    obtain ⟨task, task_read, read_eq⟩ := bind_eq_ok.mp read_eq
    obtain ⟨user, user_read, read_eq⟩ := bind_eq_ok.mp read_eq
    obtain ⟨other, other_read, read_eq⟩ := bind_eq_ok.mp read_eq
    obtain ⟨_, short, fields⟩ := bind_eq_ok.mp read_eq
    obtain ⟨rfl, link⟩ := ofFields_eq_ok_iff.mp fields
    refine ⟨user, other, ?_, link⟩
    rcases items with _ | ⟨first, _ | ⟨second, _ | ⟨third, _ | ⟨fourth, items⟩⟩⟩⟩
    · cases task_read
    · obtain rfl := readText_eq_ok_iff.mp task_read
      cases user_read
      cases other_read
      exact .array [] (by simp)
    · obtain rfl := readText_eq_ok_iff.mp task_read
      obtain rfl := readText_eq_ok_iff.mp user_read
      cases other_read
      exact .array [user] (by simp)
    · obtain rfl := readText_eq_ok_iff.mp task_read
      obtain rfl := readText_eq_ok_iff.mp user_read
      obtain rfl := readText_eq_ok_iff.mp other_read
      exact .array [user, other] (by simp)
    · simp [noMoreThan] at short
  · rintro ⟨user, other, record, link⟩
    have fields : ofFields entry.task user other = .ok entry := ofFields_eq_ok_iff.mpr ⟨rfl, link⟩
    generalize array_eq : Outline.array items = value at record ⊢
    cases record with
    | object => cases array_eq
    | array parts few =>
        rcases parts with _ | ⟨user, _ | ⟨other, _ | ⟨more, parts⟩⟩⟩
        · exact fields
        · exact fields
        · exact fields
        · simp at few

/-- Records are read, and nothing else is. -/
theorem read_eq_ok_iff {value : Outline} {entry : Entry} :
    read value = .ok entry ↔ IsRecordOf value entry := by
  cases value with
  | object members => exact read_object_eq_ok_iff
  | array items => exact read_array_eq_ok_iff
  | _ =>
      constructor
      · rintro ⟨⟩
      · rintro ⟨user, other, ⟨⟩, link⟩

end Entry

namespace EntryList

theorem readItems_eq_ok_iff {α : Type} {read : Outline → Except Error α} {value : Outline}
    {results : List α} :
    readItems read value = .ok results ↔
      ∃ items, value = .array items ∧
        List.Forall₂ (fun item a => read item = .ok a) items results := by
  cases value with
  | array items => simp [readItems, mapM_eq_ok_iff]
  | _ => simp [readItems]

def namesOutline (names : List String) : Outline := .array (names.map fun name => .text (some name))

theorem readNames_eq_ok_iff {value : Outline} {names : List String} :
    readItems Outline.readText value = .ok names ↔ value = namesOutline names := by
  have texts {items : List Outline} :
      List.Forall₂ (fun item name => Outline.readText item = .ok name) items names ↔
        items = names.map fun name => .text (some name) := by
    simp only [readText_eq_ok_iff]
    rw [← List.forall₂_map_right_iff (R := Eq), List.forall₂_eq_eq_eq]
  simp [readItems_eq_ok_iff, texts, namesOutline]

/-- The array of the records of some entries. -/
def AreRecordsOf (value : Outline) (entries : List Entry) : Prop :=
  ∃ items, value = .array items ∧ List.Forall₂ Entry.IsRecordOf items entries

theorem readRecords_eq_ok_iff {value : Outline} {entries : List Entry} :
    readItems Entry.read value = .ok entries ↔ AreRecordsOf value entries := by
  simp only [readItems_eq_ok_iff, Entry.read_eq_ok_iff, AreRecordsOf]

theorem names_eq_nil_of_records {names : List String} {entries : List Entry}
    (records : AreRecordsOf (namesOutline names) entries) : names = [] := by
  obtain ⟨items, same, each⟩ := records
  cases names with
  | nil => rfl
  | cons name names =>
      cases same
      obtain _ | ⟨⟨_, _, ⟨⟩, _⟩, _⟩ := each

theorem areRecordsOf_nil : AreRecordsOf (namesOutline []) [] := ⟨[], rfl, .nil⟩

/-- Reads the stored form of a list of entries, trying the older form first. -/
def decodeNamesFirst (bytes : Bytes) : Except Error (List Entry × TrayForm) :=
  match Json.decode (readItems Outline.readText) bytes with
  | .ok tasks => .ok (tasks.map Entry.unlinked, .names)
  | .error _ =>
    match Json.decode (readItems Entry.read) bytes with
    | .ok entries => .ok (entries, .entries)
    | .error e => .error e

section

variable {value : Outline} {bytes : Bytes}

theorem decode_of_records (rendered : Renders value bytes) {entries : List Entry}
    (recorded : AreRecordsOf value entries) :
    decode bytes = .ok (entries, .entries) ∧
      (value ≠ .array [] → decodeNamesFirst bytes = .ok (entries, .entries)) := by
  have records_read := readRecords_eq_ok_iff.mpr recorded
  simp only [decode, decodeNamesFirst, rendered.decode_eq, records_read]
  refine ⟨trivial, fun nonempty => ?_⟩
  cases names_read : readItems Outline.readText value with
  | ok names =>
      obtain rfl := readNames_eq_ok_iff.mp names_read
      rw [names_eq_nil_of_records recorded] at nonempty
      exact absurd rfl nonempty
  | error cause => rfl

theorem decode_of_names {names : List String} (rendered : Renders (namesOutline names) bytes)
    (nonempty : names ≠ []) :
    decode bytes = .ok (names.map Entry.unlinked, .names) ∧
      decodeNamesFirst bytes = .ok (names.map Entry.unlinked, .names) := by
  have names_read := readNames_eq_ok_iff.mpr (rfl : namesOutline names = namesOutline names)
  simp only [decode, decodeNamesFirst, rendered.decode_eq, names_read, and_true]
  cases records_read : readItems Entry.read (namesOutline names) with
  | ok entries =>
      exact absurd (names_eq_nil_of_records (readRecords_eq_ok_iff.mp records_read)) nonempty
  | error cause => rfl

/-- A text that has neither form is refused for what keeps it from having the newer one. -/
theorem decode_of_neither (rendered : Renders value bytes)
    (unnamed : ∀ names, value ≠ namesOutline names) {cause : Error}
    (refused : readItems Entry.read value = .error cause) :
    decode bytes = .error cause ∧ decodeNamesFirst bytes = .error cause := by
  simp only [decode, decodeNamesFirst, rendered.decode_eq, refused]
  cases names_read : readItems Outline.readText value with
  | ok names => exact absurd (readNames_eq_ok_iff.mp names_read) (unnamed names)
  | error other => exact ⟨rfl, rfl⟩

/-- Every value has the newer form, or the older one, or neither. -/
theorem forms_cases (value : Outline) :
    (∃ entries, AreRecordsOf value entries) ∨
      (∃ names, names ≠ [] ∧ value = namesOutline names) ∨
      (∀ names, value ≠ namesOutline names) ∧
        ∃ cause, readItems Entry.read value = .error cause := by
  cases records_read : readItems Entry.read value with
  | ok entries => exact .inl ⟨entries, readRecords_eq_ok_iff.mp records_read⟩
  | error cause =>
      by_cases named : ∃ names, value = namesOutline names
      · obtain ⟨names, rfl⟩ := named
        refine .inr (.inl ⟨names, ?_, rfl⟩)
        rintro rfl
        cases records_read.symm.trans (readRecords_eq_ok_iff.mpr areRecordsOf_nil)
      · exact .inr (.inr ⟨not_exists.mp named, cause, rfl⟩)

theorem decode_eq_ok_iff (rendered : Renders value bytes) {entries : List Entry} {form : TrayForm} :
    decode bytes = .ok (entries, form) ↔
      form = .names ∧ (∃ names, names ≠ [] ∧ value = namesOutline names ∧
        entries = names.map Entry.unlinked) ∨
      form = .entries ∧ AreRecordsOf value entries := by
  constructor
  · intro decoded
    obtain ⟨found, recorded⟩ | ⟨found, nonempty, rfl⟩ | ⟨unnamed, cause, refused⟩ :=
      forms_cases value
    · cases (decode_of_records rendered recorded).1.symm.trans decoded
      exact .inr ⟨rfl, recorded⟩
    · cases (decode_of_names rendered nonempty).1.symm.trans decoded
      exact .inl ⟨rfl, found, nonempty, rfl, rfl⟩
    · cases (decode_of_neither rendered unnamed refused).1.symm.trans decoded
  · rintro (⟨rfl, names, nonempty, rfl, rfl⟩ | ⟨rfl, recorded⟩)
    · exact (decode_of_names rendered nonempty).1
    · exact (decode_of_records rendered recorded).1

theorem decode_eq_error_iff (rendered : Renders value bytes) {cause : Error} :
    decode bytes = .error cause ↔
      (∀ names, value ≠ namesOutline names) ∧ readItems Entry.read value = .error cause := by
  constructor
  · intro decoded
    obtain ⟨found, recorded⟩ | ⟨found, nonempty, rfl⟩ | ⟨unnamed, other, refused⟩ :=
      forms_cases value
    · cases (decode_of_records rendered recorded).1.symm.trans decoded
    · cases (decode_of_names rendered nonempty).1.symm.trans decoded
    · cases (decode_of_neither rendered unnamed refused).1.symm.trans decoded
      exact ⟨unnamed, refused⟩
  · rintro ⟨unnamed, refused⟩
    exact (decode_of_neither rendered unnamed refused).1

theorem not_records_of_names {names : List String} {entries : List Entry}
    (nonempty : value ≠ .array []) (named : value = namesOutline names) :
    ¬AreRecordsOf value entries := by
  rintro recorded
  subst named
  rw [names_eq_nil_of_records recorded] at nonempty
  exact nonempty rfl

theorem decodeNamesFirst_eq_decode (rendered : Renders value bytes) (nonempty : value ≠ .array []) :
    decodeNamesFirst bytes = decode bytes := by
  obtain ⟨found, recorded⟩ | ⟨found, named, rfl⟩ | ⟨unnamed, cause, refused⟩ := forms_cases value
  · obtain ⟨decoded, first⟩ := decode_of_records rendered recorded
    rw [decoded, first nonempty]
  · obtain ⟨decoded, first⟩ := decode_of_names rendered named
    rw [decoded, first]
  · obtain ⟨decoded, first⟩ := decode_of_neither rendered unnamed refused
    rw [decoded, first]

/-- A JSON text, however it is spelled, is read as a tray if and only if its value is a nonempty
array of texts, which are then the tasks of entries in the older form, or an array of records, which
is then in the newer form.  Any other text is refused, for what keeps it from being an array of
records, and where it is stored, the tray is unreadable.  Only the empty array could be read in both
forms, so for any other text it makes no difference which form is tried first. -/
theorem decode_eq_ok_iff_of_renders (rendered : Renders value bytes) :
    (∀ entries form, decode bytes = .ok (entries, form) ↔
      form = .names ∧ (∃ names, names ≠ [] ∧ value = namesOutline names ∧
        entries = names.map Entry.unlinked) ∨
      form = .entries ∧ AreRecordsOf value entries) ∧
    (∀ cause, (decode bytes = .error cause ↔
        (∀ names, value ≠ namesOutline names) ∧ readItems Entry.read value = .error cause) ∧
      (decode bytes = .error cause → ∀ (conditions : Conditions) (world : World) (key : String),
        world.store.get? key = some bytes →
        conditions.run (Trays.load key).run world = (.error (.unreadableTray cause), world))) ∧
    (value ≠ .array [] →
      (∀ names entries, value = namesOutline names → ¬AreRecordsOf value entries) ∧
      decodeNamesFirst bytes = decode bytes) := by
  refine ⟨fun _ _ => decode_eq_ok_iff rendered, fun cause => ⟨decode_eq_error_iff rendered, ?_⟩,
    fun nonempty => ⟨fun _ _ => not_records_of_names nonempty,
      decodeNamesFirst_eq_decode rendered nonempty⟩⟩
  exact fun refused conditions world key found => Trays.run_load_of_unreadable found refused

end

/-- A tray in the older form with escapes and space in it; one in the newer form, the records of
which are an object with its members in another order and an array; and half a link, which keeps a
tray from being read. -/
theorem decode_of_odd_forms :
    let old := Utf8.encode "[ \"\\u0061\",\"\\/\" ] "
    let new := Utf8.encode
      "[\x7b\"foreign_task_id\":\"x\",\"task_id\":\"a\",\"foreign_user_id\":\"u\"\x7d,[\"b\"]]"
    let half := Utf8.encode "[[\"a\",\"u\"]]"
    let members : List (Outline × Outline) := [(.text (some "foreign_task_id"), .text (some "x")),
      (.text (some "task_id"), .text (some "a")),
      (.text (some "foreign_user_id"), .text (some "u"))]
    let records : Outline := .array [.object members, .array [.text (some "b")]]
    (Renders (namesOutline ["a", "/"]) old ∧
      decode old = .ok ([.unlinked "a", .unlinked "/"], .names) ∧
      decodeNamesFirst old = decode old) ∧
    (Renders records new ∧ decode new = .ok ([.linked "a" "u" "x", .unlinked "b"], .entries)) ∧
    decode half = .error (.partialLink "a") ∧
    ∀ (conditions : Conditions) (world : World) (key : String), world.store.get? key = some half →
      conditions.run (Trays.load key).run world =
        (.error (.unreadableTray (.partialLink "a")), world) := by
  intro old new half members records
  have space : IsSpace [0x20] := by simp [IsSpace]
  have nothing : IsSpace [] := by simp [IsSpace]
  have letter : Renders (.text (some "a")) (quoted [[0x5c, 0x75, 0x30, 0x30, 0x36, 0x31]]) :=
    @Renders.text "a" _ (.cons (.unit (rendersUnit_byte (by decide))) .nil)
  have slash : Renders (.text (some "/")) (quoted [[0x5c, 0x2f]]) :=
    @Renders.text "/" _ (.cons (.short (by decide)) .nil)
  have names := @Renders.array [(.text (some "a"), _), (.text (some "/"), _)] (by simp)
    (by simpa using ⟨letter.spaced space nothing, slash.spaced nothing space⟩)
  have rendered_old : Renders (namesOutline ["a", "/"]) old := names.spaced nothing space
  have object : Renders (.object members) _ := @Renders.object
    [⟨some "foreign_task_id", .text (some "x"), _, _⟩, ⟨some "task_id", .text (some "a"), _, _⟩,
      ⟨some "foreign_user_id", .text (some "u"), _, _⟩] (by simp)
    (by simpa using ⟨renders_quote _, renders_quote _, renders_quote _⟩)
    (by simpa using ⟨renders_quote _, renders_quote _, renders_quote _⟩)
  have array := @Renders.array [(.text (some "b"), _)] (by simp) (by simpa using renders_quote "b")
  have both := @Renders.array [(.object members, _), (.array [.text (some "b")], _)] (by simp)
    (by simpa using ⟨object, array⟩)
  have rendered_new : Renders records new := both
  have linked : Entry.IsRecordOf (.object members) (.linked "a" "u" "x") :=
    ⟨"u", "x", .object (by simp [members, Entry.fieldNames]) rfl (.inl rfl) (.inl rfl),
      .inr ⟨by decide, by decide, rfl⟩⟩
  have unlinked : Entry.IsRecordOf (.array [.text (some "b")]) (.unlinked "b") :=
    ⟨"", "", .array [] (by decide), .inl ⟨rfl, rfl, rfl⟩⟩
  have half_record := @Renders.array [(.text (some "a"), _), (.text (some "u"), _)] (by simp)
    (by simpa using ⟨renders_quote "a", renders_quote "u"⟩)
  have half_records := @Renders.array [(.array [.text (some "a"), .text (some "u")], _)] (by simp)
    (by simpa using half_record)
  have rendered_half : Renders _ half := half_records
  obtain ⟨of_old, -, either⟩ := decode_eq_ok_iff_of_renders rendered_old
  obtain ⟨of_new, -, -⟩ := decode_eq_ok_iff_of_renders rendered_new
  obtain ⟨-, of_half, -⟩ := decode_eq_ok_iff_of_renders rendered_half
  obtain ⟨refused_iff, unreadable⟩ := of_half (.partialLink "a")
  have refused : decode half = .error (.partialLink "a") := by
    refine refused_iff.mpr ⟨fun names same => ?_, rfl⟩
    cases names <;> simp [namesOutline] at same
  exact ⟨⟨rendered_old, (of_old _ _).mpr (.inl ⟨rfl, _, by decide, rfl, rfl⟩),
    (either (by simp [namesOutline])).2⟩, ⟨rendered_new,
    (of_new _ _).mpr (.inr ⟨rfl, _, rfl, .cons linked (.cons unlinked .nil)⟩)⟩, refused,
    unreadable refused⟩

end EntryList
end Handoff
