import Handoff.Proofs.Entry.Encoding

/-!
# What becomes of links that are stored

An empty part of a link is not stored.  So a link of two empty parts is read back as none, and an
entry with a link of which one part is empty cannot be read back.  Such an entry makes the whole
list unreadable, since entries are stored as objects and never pass for the names of the older form.
-/

namespace Handoff

open Json

namespace Link

/-- Both parts of a link are empty. -/
def isBlank (link : Link) : Bool := link.user.isEmpty && link.task.isEmpty

/-- One part of a link is empty and the other one is not. -/
def isHalf (link : Link) : Bool := link.user.isEmpty != link.task.isEmpty

end Link

namespace Entry

def isHalfLinked (entry : Entry) : Bool := entry.link.any Link.isHalf

/-- The entry without its link if both parts of that are empty. -/
def withoutBlankLink (entry : Entry) : Entry :=
  { entry with link := entry.link.filter (!·.isBlank) }

/-- An entry is read back unless it has half a link, and a blank link is read as none. -/
theorem read_fields_eq_ite (entry : Entry) :
    read (.object entry.fields) =
      if entry.isHalfLinked then .error (.partialLink entry.task)
      else .ok entry.withoutBlankLink := by
  rw [read_fields]
  obtain ⟨task, _ | link⟩ := entry
  · rfl
  · obtain ⟨user, other⟩ := link
    cases named : user.isEmpty <;> cases other_named : other.isEmpty <;>
      simp [ofFields, isHalfLinked, withoutBlankLink, Link.isHalf, Link.isBlank, linked, unlinked,
        Option.filter, named, other_named]

end Entry

namespace EntryList

/-- A list that cannot be read item by item fails as its first bad item does. -/
theorem mapM_eq_find? {α β : Type} {read : α → Except Error β} {bad : α → Bool} {cause : α → Error}
    {result : α → β} (each : ∀ a, read a = if bad a then .error (cause a) else .ok (result a))
    (items : List α) :
    items.mapM read = match items.find? bad with
      | some a => .error (cause a)
      | none => .ok (items.map result) := by
  induction items with
  | nil => rfl
  | cons a items induction =>
      rw [List.mapM_cons, each, induction]
      cases refused : bad a with
      | true => simp [refused, bind, Except.bind]
      | false =>
          rw [List.find?_cons_of_neg (by simp [refused])]
          cases items.find? bad with
          | none => rfl
          | some other => rfl

/-- No name is read from an entry, so a list of entries is not taken for one in the older form. -/
theorem exists_error_of_names {entries : List Entry} (nonempty : entries ≠ []) :
    ∃ cause, Json.decode (readItems Outline.readText) (encode entries) = .error cause := by
  rw [(writesWhole_encode entries).decode_eq]
  cases entries with
  | nil => exact absurd rfl nonempty
  | cons entry entries => exact ⟨_, rfl⟩

theorem decode_encode_eq (entries : List Entry) :
    decode (encode entries) = match entries.find? Entry.isHalfLinked with
      | some entry => .error (.partialLink entry.task)
      | none => .ok (entries.map Entry.withoutBlankLink, .entries) := by
  have current : Json.decode (readItems Entry.read) (encode entries) =
      (entries.map fun entry => Outline.object entry.fields).mapM Entry.read :=
    (writesWhole_encode entries).decode_eq _
  have each := mapM_eq_find? Entry.read_fields_eq_ite entries
  rw [decode, current, List.mapM_map, Function.comp_def, each]
  cases found : entries.find? Entry.isHalfLinked with
  | none => rfl
  | some entry =>
      obtain ⟨cause, refused⟩ :=
        exists_error_of_names (List.ne_nil_of_mem (List.mem_of_find?_eq_some found))
      simp only [refused]

/-- A list of any entries that has been stored is read back in the newer form, with the same entries
in the same order but for blank links, which become none; if an entry has half a link, the first of
these entries is reported instead.  Well-linked entries are read back as they are. -/
theorem decode_encode_of_any_links (entries : List Entry) :
    (decode (encode entries) = match entries.find? Entry.isHalfLinked with
      | some entry => .error (.partialLink entry.task)
      | none => .ok (entries.map Entry.withoutBlankLink, .entries)) ∧
    (WellLinked entries → decode (encode entries) = .ok (entries, .entries)) :=
  ⟨decode_encode_eq entries, decode_encode⟩

/-- Quotes, control characters and letters beyond ASCII come back, a blank link does not, and of two
entries with half a link the first one is reported. -/
theorem decode_encode_of_odd_links :
    let shared : List Entry := [.linked "a\"b" "ü\n" "\u0001", .unlinked ""]
    WellLinked shared ∧ decode (encode shared) = .ok (shared, .entries) ∧
      decode (encode [.linked "t" "" "", .unlinked "s"]) =
        .ok ([.unlinked "t", .unlinked "s"], .entries) ∧
      decode (encode [.unlinked "s", .linked "t" "" "u", .linked "v" "bob" ""]) =
        .error (.partialLink "t") := by
  intro shared
  have well : WellLinked shared := by
    simp [shared, WellLinked, Entry.WellLinked, Entry.linked, Entry.unlinked]
  exact ⟨well, (decode_encode_of_any_links shared).2 well, (decode_encode_of_any_links _).1,
    (decode_encode_of_any_links _).1⟩

end EntryList
end Handoff
