import Handoff.Json.Decode
import Handoff.Proofs.Json.Lexeme

/-!
# The outlines of written texts

`Writes bytes value` says that bytes inside a container are read as a value, and `WritesWhole` says
the same of a whole text.  Texts and natural numbers are written so, and arrays and objects of
written values again, so that a decoder of a written array or object sees exactly what was written.
-/

namespace Handoff.Json

/-- Wherever a value may stand, these tokens are read as this value. -/
def Reads (ts : List Token) (value : Outline) : Prop :=
  ∀ within mayClose,
    ts.foldl Stage.feed (.atValue within mayClose) = Stage.complete value within

/-- Inside a container, these bytes are read as this value. -/
def Writes (bytes : Bytes) (value : Outline) : Prop :=
  ∃ ts, SpellsInside bytes ts ∧ Reads ts value

/-- These bytes are read as this value, whatever follows them. -/
def WritesWhole (bytes : Bytes) (value : Outline) : Prop :=
  ∃ ts, Spells bytes ts ∧ Reads ts value

theorem WritesWhole.inside {bytes : Bytes} {value : Outline} (whole : WritesWhole bytes value) :
    Writes bytes value := by
  obtain ⟨ts, spells, reads⟩ := whole
  exact ⟨ts, spells.inside, reads⟩

/-- A whole text has the outline that was written, and nothing follows it. -/
theorem WritesWhole.outline_eq {bytes : Bytes} {value : Outline}
    (whole : WritesWhole bytes value) : outline bytes = (value, false) := by
  obtain ⟨ts, spells, reads⟩ := whole
  rw [outline, spells.tokens_eq, reads [] false]
  rfl

theorem decode_of_outline_eq {α : Type} {bytes : Bytes} {value : Outline}
    (seen : outline bytes = (value, false)) (read : Outline → Except Error α) :
    decode read bytes = read value := by
  rw [decode, seen]
  dsimp only
  cases read value with
  | ok result => rfl
  | error e => rfl

/-- A whole text is decoded to what the reader makes of the written value. -/
theorem WritesWhole.decode_eq {α : Type} {bytes : Bytes} {value : Outline}
    (whole : WritesWhole bytes value) (read : Outline → Except Error α) :
    decode read bytes = read value :=
  decode_of_outline_eq whole.outline_eq read

theorem writes_quote (text : String) : Writes (quote text) (.text (some text)) :=
  ⟨_, (spells_quote text).inside, fun _ _ => rfl⟩

theorem writes_natural (n : Nat) : Writes (natural n) (.number (numeralOf n)) :=
  ⟨_, spellsInside_natural n, fun _ _ => rfl⟩

theorem SpellsInside.comma {left right : Bytes} {ts us : List Token}
    (first : SpellsInside left ts) (second : SpellsInside right us) :
    SpellsInside (left ++ 0x2c :: right) (ts ++ .comma :: us) := by
  intro found next ends
  have split : left ++ 0x2c :: right ++ [next] = (left ++ [0x2c]) ++ (right ++ [next]) := by simp
  have passed : Lexer.run ⟨ts.reverse ++ found, .between⟩ [0x2c] =
      ⟨.comma :: (ts.reverse ++ found), .between⟩ := rfl
  rw [split, Lexer.run_append, first found 0x2c (.inl rfl), passed, second _ next ends]
  simp

/-! ## Readers -/

theorem bind_eq_ok {ε α β : Type} {first : Except ε α} {next : α → Except ε β} {b : β} :
    first >>= next = .ok b ↔ ∃ a, first = .ok a ∧ next a = .ok b := by
  cases first with
  | ok a => simp [bind, Except.bind]
  | error e => simp [bind, Except.bind]

/-- What a text is decoded to was read from its outline, and nothing follows in the text. -/
theorem exists_outline_of_decode_ok {α : Type} {read : Outline → Except Error α} {bytes : Bytes}
    {a : α} (decoded : decode read bytes = .ok a) :
    ∃ value, outline bytes = (value, false) ∧ read value = .ok a := by
  unfold decode at decoded
  generalize outline bytes = seen at decoded ⊢
  obtain ⟨value, excess⟩ := seen
  obtain ⟨b, read_eq, ended⟩ := bind_eq_ok.mp decoded
  cases excess with
  | true => cases ended
  | false =>
      cases ended
      exact ⟨value, rfl, read_eq⟩

theorem read_of_decode_ok {α : Type} {read : Outline → Except Error α} {bytes : Bytes} {a : α}
    (decoded : decode read bytes = .ok a) : read (outline bytes).1 = .ok a := by
  obtain ⟨value, seen, read_eq⟩ := exists_outline_of_decode_ok decoded
  rw [seen]
  exact read_eq

theorem eq_some_of_required {α : Type} {name : String} {field : Option α} {a : α}
    (read_eq : required name field = .ok a) : field = some a := by
  cases field with
  | none => cases read_eq
  | some value =>
      cases read_eq
      rfl

theorem exists_of_element {α : Type} {expected : String} {items : List Outline} {position : Nat}
    {read : Outline → Except Error α} {a : α}
    (read_eq : element expected items position read = .ok a) : ∃ item, read item = .ok a := by
  unfold element at read_eq
  split at read_eq
  · exact ⟨_, read_eq⟩
  · cases read_eq

/-- What every step of a reader keeps, a reader of a list keeps. -/
theorem keeps_of_foldlM_ok {ε α β : Type} {step : β → α → Except ε β} {holds : β → Prop}
    (each : ∀ b a next, step b a = .ok next → holds b → holds next) {items : List α} {b last : β}
    (read_all : items.foldlM step b = .ok last) (start : holds b) : holds last := by
  induction items generalizing b with
  | nil =>
      cases read_all
      exact start
  | cons a items induction =>
      rw [List.foldlM_cons] at read_all
      obtain ⟨next, read_first, read_rest⟩ := bind_eq_ok.mp read_all
      exact induction read_rest (each b a next read_first start)

theorem forall_mem_of_mapM_ok {α : Type} {read : Outline → Except Error α} {holds : α → Prop}
    (each : ∀ value a, read value = .ok a → holds a) {values : List Outline} {results : List α}
    (read_all : values.mapM read = .ok results) : ∀ a ∈ results, holds a := by
  induction values generalizing results with
  | nil =>
      cases read_all
      simp
  | cons value values induction =>
      rw [List.mapM_cons] at read_all
      obtain ⟨a, read_value, read_all⟩ := bind_eq_ok.mp read_all
      obtain ⟨rest, read_rest, read_all⟩ := bind_eq_ok.mp read_all
      cases read_all
      exact List.forall_mem_cons.mpr ⟨each value a read_value, induction read_rest⟩

theorem mapM_map_eq_ok {α : Type} {read : Outline → Except Error α} {write : α → Outline}
    {items : List α} (each : ∀ a ∈ items, read (write a) = .ok a) :
    (items.map write).mapM read = .ok items := by
  induction items with
  | nil => rfl
  | cons a items induction =>
      obtain ⟨first, rest⟩ := List.forall_mem_cons.mp each
      rw [List.map_cons, List.mapM_cons, first, induction rest]
      rfl

/-! ## Arrays -/

/-- Items between commas are read one after another, up to the end of the array. -/
theorem writes_items {item : Bytes} {value : Outline} {items : List Bytes}
    {values : List Outline} (first : Writes item value) (rest : List.Forall₂ Writes items values) :
    ∃ ts, SpellsInside (separated (item :: items)) ts ∧ ∀ done within mayClose,
      (ts ++ [Token.closeArray]).foldl Stage.feed (.atValue (.array done :: within) mayClose) =
        Stage.complete (.array (done.reverse ++ value :: values)) within := by
  induction rest generalizing item value with
  | nil =>
      obtain ⟨ts, spells, reads⟩ := first
      refine ⟨ts, spells, fun done within mayClose => ?_⟩
      rw [List.foldl_append, reads]
      simp [Stage.complete, Stage.feed]
  | @cons next nextValue items values second rest induction =>
      obtain ⟨ts, spells, reads⟩ := first
      obtain ⟨us, spellsRest, readsRest⟩ := induction second
      refine ⟨ts ++ .comma :: us, spells.comma spellsRest, fun done within mayClose => ?_⟩
      rw [List.append_assoc, List.foldl_append, reads, List.cons_append, List.foldl_cons]
      have moved : Stage.feed (Stage.complete value (.array done :: within)) .comma =
          .atValue (.array (value :: done) :: within) false := rfl
      rw [moved, readsRest]
      simp

theorem writesWhole_array {items : List Bytes} {values : List Outline}
    (written : List.Forall₂ Writes items values) : WritesWhole (array items) (.array values) := by
  cases written with
  | nil => exact ⟨[.openArray, .closeArray], fun _ => rfl, fun _ _ => rfl⟩
  | cons first rest =>
      obtain ⟨ts, spells, reads⟩ := writes_items first rest
      refine ⟨.openArray :: (ts ++ [.closeArray]), ?_, fun within mayClose => ?_⟩
      · exact spells_openArray.append (spells.append_next (.inr (.inl rfl)) spells_closeArray)
      · exact reads [] within true

/-! ## Objects -/

/-- Inside an object, these bytes are read as this member. -/
def SpellsMember (bytes : Bytes) (field : Outline × Outline) : Prop :=
  ∃ ts, SpellsInside bytes ts ∧ ∀ done within mayClose,
    ts.foldl Stage.feed (.atKey done within mayClose) =
      .atNext field.2 (.object done field.1 :: within)

/-- Members between commas are read one after another, up to the end of the object. -/
theorem spells_members {member : Bytes} {field : Outline × Outline} {members : List Bytes}
    {fields : List (Outline × Outline)} (first : SpellsMember member field)
    (rest : List.Forall₂ SpellsMember members fields) :
    ∃ ts, SpellsInside (separated (member :: members)) ts ∧ ∀ done within mayClose,
      (ts ++ [Token.closeObject]).foldl Stage.feed (.atKey done within mayClose) =
        Stage.complete (.object (done.reverse ++ field :: fields)) within := by
  induction rest generalizing member field with
  | nil =>
      obtain ⟨ts, spells, reads⟩ := first
      refine ⟨ts, spells, fun done within mayClose => ?_⟩
      rw [List.foldl_append, reads]
      simp [Stage.feed]
  | @cons next nextField members fields second rest induction =>
      obtain ⟨ts, spells, reads⟩ := first
      obtain ⟨us, spellsRest, readsRest⟩ := induction second
      refine ⟨ts ++ .comma :: us, spells.comma spellsRest, fun done within mayClose => ?_⟩
      rw [List.append_assoc, List.foldl_append, reads, List.cons_append, List.foldl_cons]
      have moved : Stage.feed (.atNext field.2 (.object done field.1 :: within)) .comma =
          .atKey (field :: done) within false := rfl
      rw [moved, readsRest]
      simp

theorem writesWhole_members {members : List Bytes} {fields : List (Outline × Outline)}
    (spelled : List.Forall₂ SpellsMember members fields) :
    WritesWhole (0x7b :: separated members ++ [0x7d]) (.object fields) := by
  cases spelled with
  | nil => exact ⟨[.openObject, .closeObject], fun _ => rfl, fun _ _ => rfl⟩
  | cons first rest =>
      obtain ⟨ts, spells, reads⟩ := spells_members first rest
      refine ⟨.openObject :: (ts ++ [.closeObject]), ?_, fun within mayClose => ?_⟩
      · exact spells_openObject.append (spells.append_next (.inr (.inr rfl)) spells_closeObject)
      · exact reads [] within true

/-- A member is read as a key and a value. -/
def WritesMember (member : String × Bytes) (field : Outline × Outline) : Prop :=
  field.1 = .text (some member.1) ∧ Writes member.2 field.2

theorem spellsMember_of_colon {name value : Bytes} {field : Outline × Outline}
    {contents : Option String} (key : field.1 = .text contents)
    (named : Spells (name ++ [0x3a]) [.text contents, .colon]) (writes : Writes value field.2) :
    SpellsMember (name ++ 0x3a :: value) field := by
  obtain ⟨ts, spells, reads⟩ := writes
  refine ⟨.text contents :: .colon :: ts, fun found next ends => ?_, fun done within mayClose => ?_⟩
  · have split : name ++ 0x3a :: value ++ [next] = (name ++ [0x3a]) ++ (value ++ [next]) := by simp
    rw [split, Lexer.run_append, named, spells _ next ends]
    simp
  · rw [key]
    exact reads (.object done (.text contents) :: within) false

theorem WritesMember.spells {member : String × Bytes} {field : Outline × Outline}
    (written : WritesMember member field) :
    SpellsMember (quote member.1 ++ 0x3a :: member.2) field :=
  spellsMember_of_colon written.1 ((spells_quote member.1).append spells_colon) written.2

theorem writesWhole_object {members : List (String × Bytes)} {fields : List (Outline × Outline)}
    (written : List.Forall₂ WritesMember members fields) :
    WritesWhole (object members) (.object fields) :=
  writesWhole_members (List.forall₂_map_left_iff.mpr (written.imp fun _ _ => WritesMember.spells))

end Handoff.Json
