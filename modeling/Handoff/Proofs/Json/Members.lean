import Handoff.Proofs.Json.Written

/-!
# Records that are read member by member

A record takes its fields from the members of an object in any order, and refuses a field that comes
twice.  What has been read of a field depends only on the members that give it: `Given` says how.
-/

namespace Handoff.Json

/-- What a member says, if its name is one of these. -/
def valueOf? (names : List String) (member : Outline × Outline) : Option Outline :=
  match member.1 with
  | .text (some name) => if name ∈ names then some member.2 else none
  | _ => none

/-- What the members with these names say, in order. -/
def valuesOf (names : List String) (members : List (Outline × Outline)) : List Outline :=
  members.filterMap (valueOf? names)

variable {α : Type} {names : List String} {members : List (Outline × Outline)} {name : String}
  {value : Outline} {read : Outline → Except Error α} {field : Option α}

theorem valuesOf_concat_of_mem (mem : name ∈ names) :
    valuesOf names (members ++ [(.text (some name), value)]) =
      valuesOf names members ++ [value] := by
  simp [valuesOf, valueOf?, mem]

theorem valuesOf_concat_of_not_mem (not_mem : name ∉ names) :
    valuesOf names (members ++ [(.text (some name), value)]) = valuesOf names members := by
  simp [valuesOf, valueOf?, not_mem]

/-- What is known of a field with these names after the members: nothing if none of them gives it,
and what is read of its value if exactly one does. -/
def Given (names : List String) (read : Outline → Except Error α)
    (members : List (Outline × Outline)) : Option α → Prop
  | none => valuesOf names members = []
  | some a => ∃ value, valuesOf names members = [value] ∧ read value = .ok a

theorem given_nil_iff : Given names read [] field ↔ field = none := by
  cases field with
  | none => simp [Given, valuesOf]
  | some a => simp [Given, valuesOf]

theorem given_concat_of_mem (mem : name ∈ names) :
    Given names read (members ++ [(.text (some name), value)]) field ↔
      Given names read members none ∧ ∃ a, read value = .ok a ∧ field = some a := by
  cases field with
  | none => simp [Given, valuesOf_concat_of_mem mem]
  | some a =>
      simp only [Given, valuesOf_concat_of_mem mem, List.append_eq_singleton_iff]
      constructor
      · rintro ⟨_, ⟨absent, same⟩ | ⟨_, same⟩, read_eq⟩
        · cases same
          exact ⟨absent, a, read_eq, rfl⟩
        · cases same
      · rintro ⟨absent, _, read_eq, same⟩
        cases same
        exact ⟨value, .inl ⟨absent, rfl⟩, read_eq⟩

theorem given_concat_of_not_mem (not_mem : name ∉ names) :
    Given names read (members ++ [(.text (some name), value)]) field ↔
      Given names read members field := by
  cases field <;> simp [Given, valuesOf_concat_of_not_mem not_mem]

theorem Given.unique {other : Option α} (given : Given names read members field)
    (also : Given names read members other) : field = other := by
  cases field with
  | none =>
      cases other with
      | none => rfl
      | some b =>
          obtain ⟨value, only, -⟩ := also
          cases (show valuesOf names members = [] from given).symm.trans only
  | some a =>
      obtain ⟨value, only, read_eq⟩ := given
      cases other with
      | none => cases (show valuesOf names members = [] from also).symm.trans only
      | some b =>
          obtain ⟨_, same, read_same⟩ := also
          cases only.symm.trans same
          rw [Except.ok.inj (read_eq.symm.trans read_same)]

theorem Given.length_le (given : Given names read members field) :
    (valuesOf names members).length ≤ 1 := by
  cases field with
  | none => simp [show valuesOf names members = [] from given]
  | some a =>
      obtain ⟨value, only, -⟩ := given
      simp [only]

/-! ## Readers of one member -/

theorem ok_bind {ε β γ : Type} (b : β) (next : β → Except ε γ) : (.ok b >>= next) = next b := rfl

theorem readKey_eq_ok_iff {key : Outline} : key.readKey = .ok name ↔ key = .text (some name) := by
  cases key with
  | text contents => cases contents <;> simp [Outline.readKey]
  | _ => simp [Outline.readKey]

theorem readText_eq_ok_iff {text : String} :
    value.readText = .ok text ↔ value = .text (some text) := by
  cases value with
  | text contents => cases contents <;> simp [Outline.readText]
  | _ => simp [Outline.readText]

/-- A field is read if it is the first time and the value can be read. -/
theorem once_read_eq_ok_iff {β : Type} {draft : β} {put : α → β} :
    (do once name field; return put (← read value)) = (.ok draft : Except Error β) ↔
      field = none ∧ ∃ a, read value = .ok a ∧ draft = put a := by
  cases field with
  | some a => simp [once, bind, Except.bind]
  | none =>
      cases read value with
      | ok a => simp [once, bind, Except.bind, pure, Except.pure, eq_comm]
      | error e => simp [once, bind, Except.bind]

/-- The members give a text under this name once; or they do not, and it is empty. -/
def GivesText (members : List (Outline × Outline)) (name text : String) : Prop :=
  valuesOf [name] members = [.text (some text)] ∨ valuesOf [name] members = [] ∧ text = ""

theorem givesText_iff {text : String} :
    GivesText members name text ↔
      ∃ field, Given [name] Outline.readText members field ∧ field.getD "" = text := by
  constructor
  · rintro (once | ⟨absent, rfl⟩)
    · exact ⟨some text, ⟨_, once, rfl⟩, rfl⟩
    · exact ⟨none, absent, rfl⟩
  · rintro ⟨_ | found, given, rfl⟩
    · exact .inr ⟨given, rfl⟩
    · obtain ⟨value, only, read_eq⟩ := given
      rw [readText_eq_ok_iff.mp read_eq] at only
      exact .inl only

theorem skip_eq_ok_iff {β : Type} {draft next : β} :
    (do value.skip; return draft) = (.ok next : Except Error β) ↔
      value.isWhole = true ∧ next = draft := by
  unfold Outline.skip
  split
  · rename_i whole
    simp [whole, bind, Except.bind, pure, Except.pure, eq_comm]
  · rename_i broken
    simp [broken, bind, Except.bind]

/-- A list is read if each of its items is. -/
theorem mapM_eq_ok_iff {values : List Outline} {results : List α} :
    values.mapM read = .ok results ↔
      List.Forall₂ (fun value a => read value = .ok a) values results := by
  induction values generalizing results with
  | nil => simp [pure, Except.pure, eq_comm]
  | cons value values induction =>
      simp only [List.mapM_cons, bind_eq_ok, List.forall₂_cons_left_iff, induction]
      constructor
      · rintro ⟨a, read_value, rest, read_rest, same⟩
        cases same
        exact ⟨a, rest, read_value, read_rest, rfl⟩
      · rintro ⟨a, rest, read_value, read_rest, rfl⟩
        exact ⟨a, read_value, rest, read_rest, rfl⟩

/-- What each step of a reader demands of its item, a list that is read fulfils everywhere. -/
theorem forall_mem_of_foldlM_ok {ε β γ : Type} {step : β → γ → Except ε β} {demands : γ → Prop}
    (each : ∀ b c next, step b c = .ok next → demands c) {items : List γ} {b last : β}
    (read_all : items.foldlM step b = .ok last) : ∀ c ∈ items, demands c := by
  induction items generalizing b with
  | nil => simp
  | cons c items induction =>
      rw [List.foldlM_cons] at read_all
      obtain ⟨next, read_first, read_rest⟩ := bind_eq_ok.mp read_all
      exact List.forall_mem_cons.mpr ⟨each b c next read_first, induction read_rest⟩

theorem foldlM_concat_eq_ok_iff {ε β γ : Type} {step : β → γ → Except ε β} {items : List γ} {c : γ}
    {b last : β} :
    (items ++ [c]).foldlM step b = .ok last ↔
      ∃ before, items.foldlM step b = .ok before ∧ step before c = .ok last := by
  rw [List.foldlM_append, bind_eq_ok]
  simp only [List.foldlM_cons, List.foldlM_nil, bind_pure]

/-! ## Records -/

/-- A field of a record that is being read: the names that it may have, how a value of it is read,
and what has been read of it. -/
structure Slot (σ : Type) where
  names : List String
  {α : Type}
  read : Outline → Except Error α
  field : σ → Option α

section

variable {σ : Type}

/-- A record may take this member: a field that it names is still open and can be read, and a member
that names no field passes. -/
structure Takes (slots : List (Slot σ)) (passes : Outline → Prop) (draft : σ) (name : String)
    (value : Outline) : Prop where
  opens : ∀ slot ∈ slots, name ∈ slot.names → slot.field draft = none ∧ ∃ a, slot.read value = .ok a
  passes : name ∈ slots.flatMap Slot.names ∨ passes value

theorem takes_iff {slots : List (Slot σ)} {passes : Outline → Prop} {draft : σ} :
    Takes slots passes draft name value ↔
      (∀ slot ∈ slots, name ∈ slot.names → slot.field draft = none ∧ ∃ a, slot.read value = .ok a) ∧
        (name ∈ slots.flatMap Slot.names ∨ passes value) :=
  ⟨fun takes => ⟨takes.opens, takes.passes⟩, fun both => ⟨both.1, both.2⟩⟩

/-- A record is read member by member into these fields. -/
structure ReadsInto (slots : List (Slot σ)) (passes : Outline → Prop)
    (step : σ → Outline × Outline → Except Error σ) : Prop where
  named : ∀ draft member next, step draft member = .ok next → ∃ name, member.1 = .text (some name)
  takes_iff : ∀ draft name value, (∃ next, step draft (.text (some name), value) = .ok next) ↔
    Takes slots passes draft name value
  fills : ∀ draft name value next, step draft (.text (some name), value) = .ok next →
    ∀ slot ∈ slots, slot.field next =
      if name ∈ slot.names then (slot.read value).toOption else slot.field draft

/-- The member has a name, which is that of a field, or it passes. -/
def Suits (slots : List (Slot σ)) (passes : Outline → Prop) (member : Outline × Outline) : Prop :=
  ∃ name, member.1 = .text (some name) ∧ (name ∈ slots.flatMap Slot.names ∨ passes member.2)

namespace ReadsInto

variable {slots : List (Slot σ)} {passes : Outline → Prop}
  {step : σ → Outline × Outline → Except Error σ} {start draft : σ}

theorem suits (reads : ReadsInto slots passes step)
    (read_all : members.foldlM step start = .ok draft) :
    ∀ member ∈ members, Suits slots passes member := by
  refine forall_mem_of_foldlM_ok (fun before member next read_member => ?_) read_all
  obtain ⟨_, value⟩ := member
  obtain ⟨name, rfl⟩ := reads.named before _ next read_member
  exact ⟨name, rfl, ((reads.takes_iff before name value).mp ⟨next, read_member⟩).passes⟩

/-- What is known of each field after the members is what they give. -/
theorem given (reads : ReadsInto slots passes step)
    (opened : ∀ slot ∈ slots, slot.field start = none)
    (read_all : members.foldlM step start = .ok draft) :
    ∀ slot ∈ slots, Given slot.names slot.read members (slot.field draft) := by
  induction members using List.reverseRecOn generalizing draft with
  | nil =>
      cases read_all
      exact fun slot mem => given_nil_iff.mpr (opened slot mem)
  | append_singleton members member induction =>
      obtain ⟨before, read_before, read_member⟩ := foldlM_concat_eq_ok_iff.mp read_all
      obtain ⟨key, value⟩ := member
      obtain ⟨name, rfl⟩ := reads.named before (key, value) draft read_member
      intro slot mem
      have known := induction read_before slot mem
      rw [reads.fills before name value draft read_member slot mem]
      split
      · rename_i named
        obtain ⟨opened, a, read_value⟩ :=
          ((reads.takes_iff before name value).mp ⟨draft, read_member⟩).opens slot mem named
        refine (given_concat_of_mem named).mpr ⟨opened ▸ known, a, read_value, ?_⟩
        rw [read_value]
        rfl
      · rename_i unnamed
        exact (given_concat_of_not_mem unnamed).mpr known

/-- Members are read if they suit and give each field at most once, in a way that can be read. -/
theorem exists_of_given (reads : ReadsInto slots passes step)
    (opened : ∀ slot ∈ slots, slot.field start = none)
    (suit : ∀ member ∈ members, Suits slots passes member)
    (given : ∀ slot ∈ slots, ∃ field, Given slot.names slot.read members field) :
    ∃ draft, members.foldlM step start = .ok draft := by
  induction members using List.reverseRecOn with
  | nil => exact ⟨start, rfl⟩
  | append_singleton members member induction =>
      obtain ⟨suit_before, suit_member⟩ := List.forall_mem_append.mp suit
      obtain ⟨key, value⟩ := member
      obtain ⟨name, rfl, pass⟩ := List.forall_mem_singleton.mp suit_member
      have before_given : ∀ slot ∈ slots, ∃ field, Given slot.names slot.read members field := by
        intro slot mem
        obtain ⟨field, given⟩ := given slot mem
        by_cases named : name ∈ slot.names
        · exact ⟨none, ((given_concat_of_mem named).mp given).1⟩
        · exact ⟨field, (given_concat_of_not_mem named).mp given⟩
      obtain ⟨before, read_before⟩ := induction suit_before before_given
      have takes : Takes slots passes before name value := by
        refine ⟨fun slot mem named => ?_, pass⟩
        obtain ⟨field, given⟩ := given slot mem
        obtain ⟨absent, a, read_value, -⟩ := (given_concat_of_mem named).mp given
        exact ⟨(reads.given opened read_before slot mem).unique absent, a, read_value⟩
      obtain ⟨draft, read_member⟩ := (reads.takes_iff before name value).mpr takes
      exact ⟨draft, foldlM_concat_eq_ok_iff.mpr ⟨before, read_before, read_member⟩⟩

/-- What has been read of members, where nothing but the fields is read. -/
theorem foldlM_eq_ok_iff (reads : ReadsInto slots passes step)
    (opened : ∀ slot ∈ slots, slot.field start = none)
    (determined : ∀ draft other, (∀ slot ∈ slots, slot.field draft = slot.field other) →
      draft = other) :
    members.foldlM step start = .ok draft ↔ (∀ member ∈ members, Suits slots passes member) ∧
      ∀ slot ∈ slots, Given slot.names slot.read members (slot.field draft) := by
  constructor
  · exact fun read_all => ⟨reads.suits read_all, reads.given opened read_all⟩
  · rintro ⟨suit, given⟩
    obtain ⟨found, read_all⟩ :=
      reads.exists_of_given opened suit fun slot mem => ⟨_, given slot mem⟩
    rw [read_all, determined found draft fun slot mem =>
      (reads.given opened read_all slot mem).unique (given slot mem)]

end ReadsInto

end

end Handoff.Json
