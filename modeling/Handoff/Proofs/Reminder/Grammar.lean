import Handoff.Reminder.Record
import Mathlib.Data.List.TakeWhile

/-!
# The grammar of stored reminders

Stored bytes are read as a moment exactly if they are the form of a text that spells a number of 64
bits: digits, after a plus sign at most, with any blanks at both ends.
-/

namespace Handoff

namespace Decimal

/-- A text consists of digits with the given value, and a plus sign may stand before them. -/
def Spells (text : List Char) (n : Nat) : Prop :=
  ∃ sign digits, text = sign ++ digits ∧ (sign = [] ∨ sign = ['+']) ∧ digits ≠ [] ∧
    (∀ c ∈ digits, '0' ≤ c ∧ c ≤ '9') ∧ Nat.ofDigitChars 10 digits 0 = n

variable {text : List Char} {n : Nat} {ds : List Nat}

theorem isDigit_iff {c : Char} : c.isDigit = true ↔ '0' ≤ c ∧ c ≤ '9' := by
  simp [Char.isDigit, Char.le_def]

theorem digit?_eq_some_iff {c : Char} {d : Nat} :
    digit? c = some d ↔ ('0' ≤ c ∧ c ≤ '9') ∧ d = c.toNat - 48 := by
  unfold digit?
  split
  · rename_i digit
    simp [isDigit_iff.mp digit, eq_comm]
  · rename_i other
    simp [mt isDigit_iff.mpr other]

theorem mapM_digit?_eq_some_iff : text.mapM digit? = some ds ↔
    (∀ c ∈ text, '0' ≤ c ∧ c ≤ '9') ∧ ds = text.map fun c => c.toNat - 48 := by
  induction text generalizing ds with
  | nil => simp [eq_comm]
  | cons c text induction =>
      simp only [List.mapM_cons, Option.bind_eq_bind, Option.bind_eq_some_iff,
        digit?_eq_some_iff, induction, List.forall_mem_cons, List.map_cons]
      constructor
      · rintro ⟨_, ⟨digit, rfl⟩, _, ⟨digits, rfl⟩, ⟨⟩⟩
        exact ⟨⟨digit, digits⟩, rfl⟩
      · rintro ⟨⟨digit, digits⟩, rfl⟩
        exact ⟨_, ⟨digit, rfl⟩, _, ⟨digits, rfl⟩, rfl⟩

theorem ofDigits_map_toNat (chars : List Char) :
    ofDigits (chars.map fun c => c.toNat - 48) = Nat.ofDigitChars 10 chars 0 :=
  List.foldl_map

theorem unsigned?_of_digits (some_digit : text ≠ []) (digits : ∀ c ∈ text, '0' ≤ c ∧ c ≤ '9') :
    unsigned? text = some (Nat.ofDigitChars 10 text 0) := by
  have read := mapM_digit?_eq_some_iff.mpr ⟨digits, rfl⟩
  rw [unsigned?, read, ← ofDigits_map_toNat]
  cases text with
  | nil => exact absurd rfl some_digit
  | cons c text => rfl

theorem unsigned?_eq_some_iff : unsigned? text = some n ↔
    text ≠ [] ∧ (∀ c ∈ text, '0' ≤ c ∧ c ≤ '9') ∧ Nat.ofDigitChars 10 text 0 = n := by
  constructor
  · intro read
    have shaped : text ≠ [] ∧ ∀ c ∈ text, '0' ≤ c ∧ c ≤ '9' := by
      unfold unsigned? at read
      split at read
      · cases read
      · cases read
      · rename_i ds some_digit mapped
        obtain ⟨digits, rfl⟩ := mapM_digit?_eq_some_iff.mp mapped
        exact ⟨fun none_there => some_digit (by rw [none_there]; rfl), digits⟩
    rw [unsigned?_of_digits shaped.1 shaped.2] at read
    exact ⟨shaped.1, shaped.2, Option.some.inj read⟩
  · rintro ⟨some_digit, digits, rfl⟩
    exact unsigned?_of_digits some_digit digits

/-- A plus sign is no digit, so it is taken for the sign. -/
theorem natural?_eq_some_iff : natural? text = some n ↔ Spells text n := by
  constructor
  · intro read
    unfold natural? at read
    split at read
    · rename_i digits
      exact ⟨['+'], digits, rfl, .inr rfl, unsigned?_eq_some_iff.mp read⟩
    · exact ⟨[], text, rfl, .inl rfl, unsigned?_eq_some_iff.mp read⟩
  · rintro ⟨sign, digits, rfl, rfl | rfl, number⟩
    · have read := unsigned?_eq_some_iff.mpr number
      rw [List.nil_append]
      unfold natural?
      split
      · have plus : '0' ≤ '+' ∧ '+' ≤ '9' := number.2.1 '+' List.mem_cons_self
        exact absurd plus (by decide)
      · exact read
    · exact unsigned?_eq_some_iff.mpr number

/-- Neither digits nor a plus sign are blank. -/
theorem Spells.visible (spells : Spells text n) : ∀ c ∈ text, Text.isBlank c = false := by
  obtain ⟨sign, digits, rfl, starts, _, all, _⟩ := spells
  intro c mem
  rcases List.mem_append.mp mem with first | digit
  · rcases starts with rfl | rfl
    · cases first
    · rw [List.mem_singleton.mp first]
      decide
  · obtain ⟨low, high⟩ := all c digit
    simp only [Char.le_def, UInt32.le_iff_toNat_le] at low high
    have code : 48 ≤ c.toNat ∧ c.toNat ≤ 57 := ⟨low, high⟩
    simp only [Text.isBlank, Bool.or_eq_false_iff, Bool.and_eq_false_iff, decide_eq_false_iff_not,
      beq_eq_false_iff_ne]
    omega

end Decimal

namespace Text

variable {text front core back : List Char}

theorem dropWhile_isBlank_of_visible (visible : ∀ c ∈ core, isBlank c = false)
    (blank : ∀ c ∈ back, isBlank c = true) :
    (core ++ back).dropWhile isBlank = if core = [] then [] else core ++ back := by
  cases core with
  | nil => simpa using blank
  | cons c core =>
      rw [if_neg (List.cons_ne_nil c core), List.cons_append]
      exact List.dropWhile_cons_of_neg (by simp [visible c List.mem_cons_self])

/-- Blanks at both ends are removed, and nothing else. -/
theorem trim_of_surrounded (blank_front : ∀ c ∈ front, isBlank c = true)
    (visible : ∀ c ∈ core, isBlank c = false) (blank_back : ∀ c ∈ back, isBlank c = true) :
    trim (front ++ core ++ back) = core := by
  have reversed : ∀ c ∈ back.reverse, isBlank c = true := fun c mem =>
    blank_back c (List.mem_reverse.mp mem)
  have visible_reversed : ∀ c ∈ core.reverse, isBlank c = false := fun c mem =>
    visible c (List.mem_reverse.mp mem)
  have same := dropWhile_isBlank_of_visible visible_reversed (List.forall_mem_nil _)
  rw [List.append_nil] at same
  rw [trim, List.append_assoc, List.dropWhile_append_of_pos blank_front,
    dropWhile_isBlank_of_visible visible blank_back]
  by_cases empty : core = []
  · simp [empty]
  · rw [if_neg empty, List.reverse_append, List.dropWhile_append_of_pos reversed, same,
      if_neg (by simpa using empty), List.reverse_reverse]

/-- What is removed from a text is blank. -/
theorem exists_eq_surrounded (text : List Char) : ∃ front back,
    text = front ++ trim text ++ back ∧ (∀ c ∈ front, isBlank c = true) ∧
      ∀ c ∈ back, isBlank c = true := by
  let rest := text.dropWhile isBlank
  have first : text.takeWhile isBlank ++ rest = text := List.takeWhile_append_dropWhile
  have last : trim text ++ (rest.reverse.takeWhile isBlank).reverse = rest := by
    rw [trim, ← List.reverse_append, List.takeWhile_append_dropWhile, List.reverse_reverse]
  refine ⟨text.takeWhile isBlank, (rest.reverse.takeWhile isBlank).reverse, ?_,
    fun c => List.mem_takeWhile_imp, fun c mem => ?_⟩
  · rw [List.append_assoc, last, first]
  · exact List.mem_takeWhile_imp (List.mem_reverse.mp mem)

end Text

namespace Reminder

variable {bytes : Bytes} {n : Nat} {moment : Instant}

/-- Bytes are the form of a text that spells a number, with any blanks at both ends. -/
def Spells (bytes : Bytes) (n : Nat) : Prop :=
  ∃ front core back, bytes = Utf8.encode (String.ofList (front ++ core ++ back)) ∧
    (∀ c ∈ front, Text.isBlank c = true) ∧ (∀ c ∈ back, Text.isBlank c = true) ∧
    Decimal.Spells core n

theorem readMoment_eq_some_iff {text : List Char} :
    readMoment text = some moment ↔ Decimal.Spells text moment.millis.toNat := by
  rw [← Decimal.natural?_eq_some_iff, readMoment]
  cases Decimal.natural? text with
  | none => simp
  | some n =>
      have fits : moment.millis.toNat < UInt64.size := moment.millis.toNat_lt
      simp only [Option.map_eq_some_iff, Option.filter_eq_some_iff, Option.some.injEq,
        decide_eq_true_eq]
      constructor
      · rintro ⟨millis, ⟨rfl, small⟩, rfl⟩
        exact (UInt64.toNat_ofNat_of_lt' small).symm
      · rintro rfl
        exact ⟨_, ⟨rfl, fits⟩, by simp⟩

/-- A record is read exactly if it spells a number of 64 bits. -/
theorem decode?_eq_some_iff :
    decode? bytes = some moment ↔ Spells bytes moment.millis.toNat := by
  rw [decode?, Option.bind_eq_some_iff]
  constructor
  · rintro ⟨text, read, number⟩
    obtain ⟨front, back, surrounded, blank_front, blank_back⟩ :=
      Text.exists_eq_surrounded text.toList
    refine ⟨front, _, back, ?_, blank_front, blank_back, readMoment_eq_some_iff.mp number⟩
    rw [← surrounded, String.ofList_toList]
    exact Utf8.decode?_eq_some_iff.mp read
  · rintro ⟨front, core, back, rfl, blank_front, blank_back, spells⟩
    refine ⟨_, Utf8.decode?_encode _, ?_⟩
    rw [String.toList_ofList, Text.trim_of_surrounded blank_front spells.visible blank_back]
    exact readMoment_eq_some_iff.mpr spells

end Reminder
end Handoff
