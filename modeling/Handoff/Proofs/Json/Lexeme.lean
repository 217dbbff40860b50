import Handoff.Proofs.Json.Grammar
import Handoff.Proofs.Json.Spelling
import Mathlib.Tactic.IntervalCases

/-!
# Space, quoted texts and numbers

The machine passes over space, and finds one token in every quoted text and in every number of the
grammar.  What is written is in the grammar.
-/

namespace Handoff.Json

theorem IsSpace.spells {space : Bytes} (blank : IsSpace space) : Spells space [] := by
  induction space with
  | nil => exact fun _ => rfl
  | cons b space induction =>
      obtain ⟨first, rest⟩ := List.forall_mem_cons.mp blank
      have passed : Spells [b] [] := by
        rcases first with rfl | rfl | rfl | rfl <;> exact fun _ => rfl
      exact passed.append (induction rest)

/-! ## Quoted texts -/

/-- Inside a quoted text, these bytes are read as these pieces. -/
def SpellsPieces (bytes : Bytes) (pieces : List Piece) : Prop :=
  ∀ found before, Lexer.run ⟨found, .text before⟩ bytes =
    ⟨found, .text (pieces.reverse ++ before)⟩

theorem SpellsPieces.append {left right : Bytes} {first second : List Piece}
    (spells : SpellsPieces left first) (next : SpellsPieces right second) :
    SpellsPieces (left ++ right) (first ++ second) := by
  intro found before
  rw [Lexer.run_append, spells, next]
  simp

theorem SpellsPieces.quoted {parts : List Bytes} {pieces : List Piece}
    (spells : SpellsPieces parts.flatten pieces) :
    Spells (quoted parts) [.text (text? pieces)] := by
  intro found
  have opened : Lexer.feed ⟨found, .between⟩ 0x22 = ⟨found, .text []⟩ := rfl
  rw [Json.quoted, List.cons_append, Lexer.run_cons, opened, Lexer.run_append, spells]
  simp [Lexer.feed, Lexer.emit]

theorem hexDigit?_hexByte : ∀ n < 0x10, hexDigit? (hexByte n) = some n := by decide

theorem hexDigit?_upper : ∀ d < 16, 10 ≤ d → hexDigit? (0x37 + d).toUInt8 = some d := by decide

theorem IsHexDigit.hexDigit?_eq {d : Nat} {b : UInt8} (digit : IsHexDigit d b) :
    hexDigit? b = some d := by
  obtain ⟨small, rfl | ⟨large, rfl⟩⟩ := digit
  · exact hexDigit?_hexByte d small
  · exact hexDigit?_upper d small large

theorem feed_hexDigit (found : List Token) (before : List Piece) (code left : Nat) {d : Nat}
    {b : UInt8} (digit : IsHexDigit d b) :
    Lexer.feed ⟨found, .unit before code left⟩ b =
      if left ≤ 1 then ⟨found, .text (.unit (16 * code + d) :: before)⟩
      else ⟨found, .unit before (16 * code + d) (left - 1)⟩ := by
  simp only [Lexer.feed, digit.hexDigit?_eq, Lexer.enter]

theorem RendersUnit.spellsPieces {code : Nat} {bytes : Bytes} (written : RendersUnit code bytes) :
    SpellsPieces bytes [.unit code] := by
  intro found before
  obtain ⟨first, second, third, fourth⟩ := written
  have marked : Lexer.run ⟨found, .text before⟩ [0x5c, 0x75] = ⟨found, .unit before 0 4⟩ := rfl
  have digits := Lexer.run_append ⟨found, .text before⟩ [0x5c, 0x75]
  simp only [List.cons_append, List.nil_append] at digits
  rw [digits, marked, Lexer.run_cons, feed_hexDigit _ _ _ _ first, if_neg (by decide),
    Lexer.run_cons, feed_hexDigit _ _ _ _ second, if_neg (by decide), Lexer.run_cons,
    feed_hexDigit _ _ _ _ third, if_neg (by decide), Lexer.run_cons,
    feed_hexDigit _ _ _ _ fourth, if_pos (by decide)]
  simp

/-- The piece is no unit for the second surrogate of a pair. -/
def Piece.NotLow : Piece → Prop
  | .byte _ => True
  | .unit code => isLowSurrogate code = false

/-- The pieces of a character, of which the first one completes no pair. -/
structure SpellsChar (c : Char) (bytes : Bytes) (first : Piece) (others : List Piece) : Prop where
  spells : SpellsPieces bytes (first :: others)
  notLow : first.NotLow
  worth : ∀ pieces, contents? (first :: (others ++ pieces)) =
    (contents? pieces).map (Utf8.encode (String.singleton c) ++ ·)

theorem spellsPieces_plain {bytes : Bytes}
    (visible : ∀ b ∈ bytes, 0x20 ≤ b ∧ b ≠ 0x22 ∧ b ≠ 0x5c) :
    SpellsPieces bytes (bytes.map .byte) := by
  induction bytes with
  | nil => exact fun _ _ => rfl
  | cons b bytes induction =>
      obtain ⟨⟨large, not_quote, not_backslash⟩, rest⟩ := List.forall_mem_cons.mp visible
      have fed : SpellsPieces [b] [.byte b] := by
        intro found before
        have not_control : ¬b < 0x20 := UInt8.not_lt.mpr large
        simp [Lexer.feed, Lexer.enter, *]
      exact fed.append (induction rest)

theorem contents?_bytes_append (bytes : Bytes) (pieces : List Piece) :
    contents? (bytes.map .byte ++ pieces) = (contents? pieces).map (bytes ++ ·) := by
  induction bytes with
  | nil => simp
  | cons b bytes induction =>
      rw [List.map_cons, List.cons_append, contents?, induction]
      simp [Function.comp_def]

theorem not_surrogate (c : Char) :
    isHighSurrogate c.toNat = false ∧ isLowSurrogate c.toNat = false := by
  have valid : c.toNat < 0xd800 ∨ 0xdfff < c.toNat ∧ c.toNat < 0x110000 := c.valid
  simp only [isHighSurrogate, isLowSurrogate, Bool.and_eq_false_iff, decide_eq_false_iff_not]
  omega

theorem contents?_unit_cons {code : Nat} (not_high : isHighSurrogate code = false)
    (not_low : isLowSurrogate code = false) (pieces : List Piece) :
    contents? (.unit code :: pieces) = (contents? pieces).map (unitBytes code ++ ·) := by
  rcases pieces with _ | ⟨_ | _, pieces⟩ <;> simp [contents?, not_high, not_low]

theorem contents?_pair_cons {high low : Nat} (is_high : isHighSurrogate high = true)
    (is_low : isLowSurrogate low = true) (pieces : List Piece) :
    contents? (.unit high :: .unit low :: pieces) =
      (contents? pieces).map (unitBytes (pairCode high low) ++ ·) := by
  simp [contents?, is_high, is_low]

theorem shortEscape?_of_mem : ∀ escape ∈ shortEscapes, escape.2 ≠ 0x75 ∧
    Lexer.shortEscape? escape.2 = some escape.1.toNat.toUInt8 ∧
    Utf8.encode (String.singleton escape.1) = [escape.1.toNat.toUInt8] := by
  decide

theorem visible_of_mem {c : Char} (visible : 0x20 ≤ c.toNat) (not_quote : c ≠ '"')
    (not_backslash : c ≠ '\\') {b : UInt8} (mem : b ∈ Utf8.encode (String.singleton c)) :
    0x20 ≤ b ∧ b ≠ 0x22 ∧ b ≠ 0x5c := by
  rcases Utf8.toNat_eq_or_le_of_mem mem with same | large
  · refine ⟨UInt8.le_iff_toNat_le.mpr (same ▸ visible), ?_, ?_⟩
    · rintro rfl
      exact not_quote (Char.toNat_inj.mp same.symm)
    · rintro rfl
      exact not_backslash (Char.toNat_inj.mp same.symm)
  · refine ⟨UInt8.le_iff_toNat_le.mpr (le_trans (by decide) large), ?_, ?_⟩
    · rintro rfl
      exact absurd large (by decide)
    · rintro rfl
      exact absurd large (by decide)

theorem RendersChar.exists_spellsChar {c : Char} {bytes : Bytes} (written : RendersChar c bytes) :
    ∃ first others, SpellsChar c bytes first others := by
  cases written with
  | plain visible not_quote not_backslash =>
      have spells := spellsPieces_plain fun b => visible_of_mem visible not_quote not_backslash
      have worth := contents?_bytes_append (Utf8.encode (String.singleton c))
      cases form : Utf8.encode (String.singleton c) with
      | nil => exact absurd form (Utf8.encode_singleton_ne_nil c)
      | cons b bytes =>
          rw [form] at spells worth
          exact ⟨.byte b, bytes.map .byte, spells, trivial, form ▸ worth⟩
  | short listed =>
      obtain ⟨no_unit, escape, form⟩ := shortEscape?_of_mem _ listed
      refine ⟨.byte c.toNat.toUInt8, [], fun found before => ?_, trivial, fun pieces => ?_⟩
      · have marked : Lexer.feed ⟨found, .text before⟩ 0x5c = ⟨found, .escape before⟩ := rfl
        rw [Lexer.run_cons, marked]
        simp [Lexer.feed, no_unit, escape, Lexer.enter]
      · rw [form]
        rfl
  | unit written =>
      obtain ⟨not_high, not_low⟩ := not_surrogate c
      refine ⟨.unit c.toNat, [], written.spellsPieces, not_low, fun pieces => ?_⟩
      rw [List.nil_append, contents?_unit_cons not_high not_low, unitBytes, Char.ofNat_toNat]
  | pair large high low =>
      have bound : c.toNat < 0x110000 := by
        have valid : c.toNat < 0xd800 ∨ 0xdfff < c.toNat ∧ c.toNat < 0x110000 := c.valid
        omega
      generalize high_eq : 0xd800 + (c.toNat - 0x10000) / 0x400 = high_code at high
      generalize low_eq : 0xdc00 + (c.toNat - 0x10000) % 0x400 = low_code at low
      have is_high : isHighSurrogate high_code = true := by
        simp only [isHighSurrogate, Bool.and_eq_true, decide_eq_true_eq]
        omega
      have is_low : isLowSurrogate low_code = true := by
        simp only [isLowSurrogate, Bool.and_eq_true, decide_eq_true_eq]
        omega
      have code : pairCode high_code low_code = c.toNat := by
        unfold pairCode
        omega
      refine ⟨.unit high_code, [.unit low_code], high.spellsPieces.append low.spellsPieces, ?_,
        fun pieces => ?_⟩
      · simp only [Piece.NotLow, isLowSurrogate, Bool.and_eq_false_iff, decide_eq_false_iff_not]
        omega
      · rw [List.singleton_append, contents?_pair_cons is_high is_low, code, unitBytes,
          Char.ofNat_toNat]

/-- The ways in which the characters of a text are written do not matter. -/
theorem exists_pieces_of_chars {chars : List Char} {parts : List Bytes}
    (written : List.Forall₂ RendersChar chars parts) :
    ∃ pieces, SpellsPieces parts.flatten pieces ∧
      contents? pieces = some (chars.flatMap fun c => Utf8.encode (String.singleton c)) := by
  induction written with
  | nil => exact ⟨[], fun _ _ => rfl, rfl⟩
  | cons first rest induction =>
      obtain ⟨piece, others, char⟩ := first.exists_spellsChar
      obtain ⟨pieces, spells, worth⟩ := induction
      refine ⟨piece :: others ++ pieces, char.spells.append spells, ?_⟩
      rw [List.cons_append, char.worth, worth]
      rfl

theorem spells_text {s : String} {parts : List Bytes}
    (written : List.Forall₂ RendersChar s.toList parts) :
    Spells (quoted parts) [.text (some s)] := by
  obtain ⟨pieces, spells, worth⟩ := exists_pieces_of_chars written
  have read : text? pieces = some s := by
    rw [text?, worth, ← Utf8.encode_eq_flatMap]
    exact Utf8.decode?_encode s
  exact read ▸ spells.quoted

theorem contents?_surrogate_cons {code : Nat} {pieces : List Piece} (large : 0xd800 ≤ code)
    (small : code < 0xe000)
    (alone : code < 0xdc00 → ∀ low rest, pieces = .unit low :: rest → isLowSurrogate low = false) :
    contents? (.unit code :: pieces) = none := by
  by_cases high : code < 0xdc00
  · have is_high : isHighSurrogate code = true := by simp [isHighSurrogate, large, high]
    rcases pieces with _ | ⟨_ | low, rest⟩
    · simp [contents?, is_high]
    · simp [contents?, is_high]
    · simp [contents?, is_high, alone high low rest rfl]
  · have not_high : isHighSurrogate code = false := by simp [isHighSurrogate, high]
    have is_low : isLowSurrogate code = true := by
      simp [isLowSurrogate, small, Nat.le_of_not_lt high]
    rcases pieces with _ | ⟨_ | low, rest⟩ <;> simp [contents?, not_high, is_low]

/-- The pieces of symbols are worth nothing if a surrogate among them is in no pair.  They start
with the second surrogate of a pair only if the symbols do. -/
theorem exists_pieces_of_symbols {symbols : List Symbol} {parts : List Bytes}
    (written : List.Forall₂ RendersSymbol symbols parts)
    (apart : symbols.IsChain fun left right => ¬left.Pairs right) :
    ∃ pieces, SpellsPieces parts.flatten pieces ∧
      (∀ low rest, pieces = .unit low :: rest → isLowSurrogate low = true →
        symbols.head? = some (.surrogate low)) ∧
      ∀ code, Symbol.surrogate code ∈ symbols → contents? pieces = none := by
  induction written with
  | nil => exact ⟨[], fun _ _ => rfl, by simp, by simp⟩
  | cons first rest induction =>
      obtain ⟨next, apart⟩ := List.isChain_cons.mp apart
      obtain ⟨pieces, spells, starts, worthless⟩ := induction apart
      cases first with
      | char written =>
          obtain ⟨piece, others, char⟩ := written.exists_spellsChar
          refine ⟨piece :: others ++ pieces, char.spells.append spells, ?_, fun code mem => ?_⟩
          · intro low rest same is_low
            obtain ⟨rfl, -⟩ := List.cons_eq_cons.mp same
            have alone : isLowSurrogate low = false := char.notLow
            rw [alone] at is_low
            cases is_low
          · rw [List.cons_append, char.worth, worthless code (by simpa using mem)]
            rfl
      | @surrogate high _ large small written =>
          refine ⟨.unit high :: pieces, written.spellsPieces.append spells, ?_, fun _ _ => ?_⟩
          · intro low rest same _
            obtain ⟨same, -⟩ := List.cons_eq_cons.mp same
            cases same
            rfl
          · -- A second surrogate right behind this one would be the next symbol, and pair with it.
            refine contents?_surrogate_cons large small fun is_high low rest same => ?_
            by_contra is_low
            have is_low : isLowSurrogate low = true := by simpa using is_low
            have follows := next _ (starts low rest same is_low)
            simp only [isLowSurrogate, Bool.and_eq_true, decide_eq_true_eq] at is_low
            exact follows ⟨is_high, is_low.1⟩

theorem spells_unpaired {symbols : List Symbol} {parts : List Bytes} {code : Nat}
    (written : List.Forall₂ RendersSymbol symbols parts) (mem : .surrogate code ∈ symbols)
    (apart : symbols.IsChain fun left right => ¬left.Pairs right) :
    Spells (quoted parts) [.text none] := by
  obtain ⟨pieces, spells, -, worthless⟩ := exists_pieces_of_symbols written apart
  have read : text? pieces = none := by
    rw [text?, worthless code mem]
    rfl
  exact read ▸ spells.quoted

/-! ## Numbers -/

theorem digit?_digit : ∀ d < 10, digit? (0x30 + d).toUInt8 = some d := by decide

theorem run_digits (phase : Phase) (put : List Nat → Numeral)
    (extended : ∀ d part, phase.addDigit d (put part) = .extend phase (put (d :: part)))
    (found : List Token) (part ds : List Nat) (small : ∀ d ∈ ds, d < 10) :
    Lexer.run ⟨found, .number phase (put part)⟩ (ds.map fun d => (0x30 + d).toUInt8) =
      ⟨found, .number phase (put (ds.reverse ++ part))⟩ := by
  induction ds generalizing part with
  | nil => rfl
  | cons d ds induction =>
      have digit := digit?_digit d (small d List.mem_cons_self)
      have rest : ∀ e ∈ ds, e < 10 := fun e mem => small e (List.mem_cons_of_mem d mem)
      have fed : Lexer.feed ⟨found, .number phase (put part)⟩ (0x30 + d).toUInt8 =
          ⟨found, .number phase (put (d :: part))⟩ := by
        simp only [Lexer.feed, Phase.step, digit, extended, Lexer.enter]
      rw [List.map_cons, Lexer.run_cons, fed, induction _ rest]
      simp

theorem feed_first_digit (found : List Token) {d : Nat} (small : d < 10) (positive : 0 < d) :
    Lexer.feed ⟨found, .between⟩ (0x30 + d).toUInt8 =
      ⟨found, .number .whole ⟨false, [d], [], none⟩⟩ := by
  interval_cases d <;> rfl

theorem feed_first_of_part (found : List Token) {phase next : Phase} {n m : Numeral} {d : Nat}
    (small : d < 10) (extended : phase.addDigit d n = .extend next m) :
    Lexer.feed ⟨found, .number phase n⟩ (0x30 + d).toUInt8 = ⟨found, .number next m⟩ := by
  simp only [Lexer.feed, Phase.step, digit?_digit d small, extended, Lexer.enter]

/-- The digits of a part of a number: the first of them starts it, and the others follow. -/
theorem run_part (found : List Token) {start phase : Phase} {n : Numeral} (put : List Nat → Numeral)
    {ds : List Nat} (digits : AreDigits ds)
    (started : ∀ d, start.addDigit d n = .extend phase (put [d]))
    (extended : ∀ d part, phase.addDigit d (put part) = .extend phase (put (d :: part))) :
    Lexer.run ⟨found, .number start n⟩ (digitBytes ds) =
      ⟨found, .number phase (put ds.reverse)⟩ := by
  obtain ⟨nonempty, small⟩ := digits
  cases ds with
  | nil => exact absurd rfl nonempty
  | cons d ds =>
      obtain ⟨first, rest⟩ := List.forall_mem_cons.mp small
      rw [digitBytes, List.map_cons, Lexer.run_cons, feed_first_of_part found first (started d),
        run_digits phase put extended found [d] ds rest, List.reverse_cons]

theorem run_whole (found : List Token) (negative : Bool) {whole : List Nat}
    (digits : AreDigits whole) (leading : whole.head? = some 0 → whole = [0]) :
    ∃ phase, (phase = .zero ∨ phase = .whole) ∧
      Lexer.run ⟨found, .between⟩ ((if negative then [0x2d] else []) ++ digitBytes whole) =
        ⟨found, .number phase ⟨negative, whole.reverse, [], none⟩⟩ := by
  obtain ⟨nonempty, small⟩ := digits
  cases whole with
  | nil => exact absurd rfl nonempty
  | cons d ds =>
      obtain ⟨first, rest⟩ := List.forall_mem_cons.mp small
      have started : Lexer.run ⟨found, .between⟩
          ((if negative then [0x2d] else []) ++ [(0x30 + d).toUInt8]) =
          ⟨found, .number (if d = 0 then .zero else .whole) ⟨negative, [d], [], none⟩⟩ := by
        cases negative with
        | true =>
            have signed : Lexer.feed ⟨found, .between⟩ 0x2d =
                ⟨found, .number .sign ⟨true, [], [], none⟩⟩ := rfl
            rw [if_pos rfl, List.singleton_append, Lexer.run_cons, signed, Lexer.run_cons,
              feed_first_of_part found first rfl]
            rfl
        | false =>
            rcases Nat.eq_zero_or_pos d with rfl | positive
            · rfl
            · simpa [Nat.ne_of_gt positive] using feed_first_digit found first positive
      rw [digitBytes, List.map_cons, List.append_cons, Lexer.run_append, started]
      by_cases zero : d = 0
      · subst zero
        cases leading rfl
        exact ⟨.zero, .inl rfl, rfl⟩
      · have followed := run_digits .whole (fun part => ⟨negative, part, [], none⟩)
          (fun _ _ => rfl) found [d] ds rest
        rw [if_neg zero, followed, List.reverse_cons]
        exact ⟨.whole, .inr rfl, rfl⟩

theorem RendersFraction.run {fraction : List Nat} {bytes : Bytes}
    (written : RendersFraction fraction bytes) (found : List Token) (negative : Bool)
    (whole : List Nat) {phase : Phase} (before : phase = .zero ∨ phase = .whole) :
    ∃ next, (next = .zero ∨ next = .whole ∨ next = .fraction) ∧
      Lexer.run ⟨found, .number phase ⟨negative, whole, [], none⟩⟩ bytes =
        ⟨found, .number next ⟨negative, whole, fraction.reverse, none⟩⟩ := by
  cases written with
  | absent => exact ⟨phase, before.imp_right .inl, rfl⟩
  | present digits =>
      have pointed : Lexer.feed ⟨found, .number phase ⟨negative, whole, [], none⟩⟩ 0x2e =
          ⟨found, .number .point ⟨negative, whole, [], none⟩⟩ := by
        rcases before with rfl | rfl <;> rfl
      rw [Lexer.run_cons, pointed]
      exact ⟨.fraction, .inr (.inr rfl), run_part found
        (fun part => ⟨negative, whole, part, none⟩) digits (fun _ => rfl) fun _ _ => rfl⟩

theorem RendersExponent.run {exponent : Option (Bool × List Nat)} {bytes : Bytes}
    (written : RendersExponent exponent bytes) (found : List Token) (negative : Bool)
    (whole fraction : List Nat) {phase : Phase}
    (before : phase = .zero ∨ phase = .whole ∨ phase = .fraction) :
    ∃ next, next.mayEnd = true ∧
      Lexer.run ⟨found, .number phase ⟨negative, whole, fraction, none⟩⟩ bytes =
        ⟨found, .number next
          ⟨negative, whole, fraction, exponent.map fun e => (e.1, e.2.reverse)⟩⟩ := by
  have marked {mark : UInt8} (marked : mark = 0x65 ∨ mark = 0x45) :
      Lexer.feed ⟨found, .number phase ⟨negative, whole, fraction, none⟩⟩ mark =
        ⟨found, .number .mark ⟨negative, whole, fraction, none⟩⟩ := by
    rcases marked with rfl | rfl <;> rcases before with rfl | rfl | rfl <;> rfl
  cases written with
  | absent => exact ⟨phase, by rcases before with rfl | rfl | rfl <;> rfl, rfl⟩
  | unsigned mark digits =>
      rw [Lexer.run_cons, marked mark]
      exact ⟨.exponent, rfl, run_part found
        (fun part => ⟨negative, whole, fraction, some (false, part)⟩) digits (fun _ => rfl)
        fun _ _ => rfl⟩
  | @signed down _ _ mark digits =>
      have signed : Lexer.feed ⟨found, .number .mark ⟨negative, whole, fraction, none⟩⟩
          (if down then 0x2d else 0x2b) =
          ⟨found, .number .markSign ⟨negative, whole, fraction, some (down, [])⟩⟩ := by
        cases down <;> rfl
      rw [Lexer.run_cons, marked mark, Lexer.run_cons, signed]
      exact ⟨.exponent, rfl, run_part found
        (fun part => ⟨negative, whole, fraction, some (down, part)⟩) digits (fun _ => rfl)
        fun _ _ => rfl⟩

theorem RendersNumeral.run {n : Numeral} {bytes : Bytes} (written : RendersNumeral n bytes)
    (found : List Token) :
    ∃ phase m, phase.mayEnd = true ∧ Numeral.inOrder m = n ∧
      Lexer.run ⟨found, .between⟩ bytes = ⟨found, .number phase m⟩ := by
  cases written with
  | @intro negative whole fraction exponent _ _ digits leading fractional scaled =>
      obtain ⟨_, started, whole_run⟩ := run_whole found negative digits leading
      obtain ⟨_, pointed, fraction_run⟩ := fractional.run found negative whole.reverse started
      obtain ⟨phase, ended, exponent_run⟩ :=
        scaled.run found negative whole.reverse fraction.reverse pointed
      refine ⟨phase, _, ended, ?_,
        by rw [Lexer.run_append, Lexer.run_append, whole_run, fraction_run, exponent_run]⟩
      simp [Numeral.inOrder, Function.comp_def]

/-! ## The end of a number -/

namespace Lexer

/-- The machine if a number that it is reading ends here. -/
def settled (lexer : Lexer) : Lexer :=
  match lexer.scan with
  | .number phase numeral =>
    if phase.mayEnd then lexer.emit (.number numeral.inOrder) else lexer
  | _ => lexer

theorem finish_settled (lexer : Lexer) : lexer.settled.finish = lexer.finish := by
  obtain ⟨found, scan⟩ := lexer
  cases scan with
  | number phase numeral => cases phase <;> rfl
  | _ => rfl

/-- A space or a mark between values ends a number. -/
theorem feed_settled (lexer : Lexer) {b : UInt8}
    (ends : b ∈ [0x20, 0x09, 0x0a, 0x0d, 0x2c, 0x3a, 0x5d, 0x7d]) :
    lexer.settled.feed b = lexer.feed b := by
  obtain ⟨found, scan⟩ := lexer
  cases scan with
  | number phase numeral =>
      simp only [List.mem_cons, List.not_mem_nil, or_false] at ends
      rcases ends with rfl | rfl | rfl | rfl | rfl | rfl | rfl | rfl <;> cases phase <;> rfl
  | _ => rfl

end Lexer

/-- Bytes that are these tokens if no number goes on after them. -/
def SpellsSettled (bytes : Bytes) (ts : List Token) : Prop :=
  ∀ found, (Lexer.run ⟨found, .between⟩ bytes).settled = ⟨ts.reverse ++ found, .between⟩

theorem Spells.settled {bytes : Bytes} {ts : List Token} (spells : Spells bytes ts) :
    SpellsSettled bytes ts := by
  intro found
  rw [spells]
  rfl

theorem SpellsSettled.inside {bytes : Bytes} {ts : List Token} (spells : SpellsSettled bytes ts) :
    SpellsInside bytes ts := by
  intro found next ends
  rw [Lexer.run_append, Lexer.run_cons, ← Lexer.feed_settled, spells]
  · rfl
  · rcases ends with rfl | rfl | rfl <;> simp

theorem SpellsSettled.tokens_eq {bytes : Bytes} {ts : List Token}
    (spells : SpellsSettled bytes ts) : tokens bytes = ts := by
  have run : (bytes.foldl Lexer.feed Lexer.start).settled = ⟨ts.reverse ++ [], .between⟩ :=
    spells []
  rw [tokens, ← Lexer.finish_settled, run]
  simp [Lexer.finish]

theorem SpellsSettled.spaced {before bytes after : Bytes} {ts : List Token}
    (blank_before : IsSpace before) (spells : SpellsSettled bytes ts)
    (blank_after : IsSpace after) : SpellsSettled (before ++ bytes ++ after) ts := by
  intro found
  rw [Lexer.run_append, Lexer.run_append, blank_before.spells]
  cases after with
  | nil => exact spells found
  | cons b after =>
      have ends : b ∈ [0x20, 0x09, 0x0a, 0x0d, 0x2c, 0x3a, 0x5d, 0x7d] := by
        rcases blank_after b List.mem_cons_self with rfl | rfl | rfl | rfl <;> simp
      have passed := blank_after.spells (ts.reverse ++ found)
      rw [Lexer.run_cons] at passed
      rw [List.reverse_nil, List.nil_append, Lexer.run_cons, ← Lexer.feed_settled _ ends,
        spells found, passed]
      rfl

theorem RendersNumeral.spellsSettled {n : Numeral} {bytes : Bytes}
    (written : RendersNumeral n bytes) : SpellsSettled bytes [.number n] := by
  intro found
  obtain ⟨phase, m, ended, rfl, run⟩ := written.run found
  simp [run, Lexer.settled, ended, Lexer.emit]

/-! ## Written texts and numbers -/

theorem escapeByte_visible {b : UInt8} (visible : 0x20 ≤ b ∧ b ≠ 0x22 ∧ b ≠ 0x5c) :
    escapeByte b = [b] := by
  obtain ⟨large, not_quote, not_backslash⟩ := visible
  have not_control : ¬b < 0x20 := UInt8.not_lt.mpr large
  have not_small (control : UInt8) (small : control < 0x20) : b ≠ control := by
    rintro rfl
    exact not_control small
  simp [escapeByte, not_quote, not_backslash, not_control, not_small 0x08 (by decide),
    not_small 0x09 (by decide), not_small 0x0a (by decide), not_small 0x0c (by decide),
    not_small 0x0d (by decide)]

theorem escapeByte_control : ∀ code < 0x20,
    (∃ escape ∈ shortEscapes, escape.1 = Char.ofNat code ∧
        escapeByte code.toUInt8 = [0x5c, escape.2]) ∨
      escapeByte code.toUInt8 =
        [0x5c, 0x75, hexByte 0, hexByte 0, hexByte (code / 16), hexByte (code % 16)] := by
  decide

theorem rendersUnit_byte {code : Nat} (small : code < 0x100) :
    RendersUnit code
      [0x5c, 0x75, hexByte 0, hexByte 0, hexByte (code / 16), hexByte (code % 16)] := by
  have digit (d : Nat) (small : d < 16) : IsHexDigit d (hexByte d) := ⟨small, .inl rfl⟩
  have written := RendersUnit.intro (digit 0 (by decide)) (digit 0 (by decide))
    (digit (code / 16) (by omega)) (digit (code % 16) (by omega))
  have value : 16 * (16 * (16 * 0 + 0) + code / 16) + code % 16 = code := by omega
  rwa [value] at written

/-- The bytes of a character, each in its escaped form, are one of the ways to write it. -/
theorem rendersChar_escape (c : Char) :
    RendersChar c ((Utf8.encode (String.singleton c)).flatMap escapeByte) := by
  by_cases control : c.toNat < 0x20
  · rw [Utf8.encode_singleton_ascii (by omega), List.flatMap_singleton]
    obtain ⟨⟨_, b⟩, listed, rfl, escaped⟩ | escaped := escapeByte_control c.toNat control
    · rw [Char.ofNat_toNat] at listed
      exact escaped ▸ .short listed
    · exact escaped ▸ .unit (rendersUnit_byte (by omega))
  · by_cases quote : c = '"'
    · subst quote
      exact .short (b := 0x22) (by decide)
    · by_cases backslash : c = '\\'
      · subst backslash
        exact .short (b := 0x5c) (by decide)
      · have plain : (Utf8.encode (String.singleton c)).flatMap escapeByte =
            Utf8.encode (String.singleton c) := by
          rw [List.flatMap_congr fun b mem => escapeByte_visible
            (visible_of_mem (Nat.le_of_not_lt control) quote backslash mem)]
          exact List.flatMap_singleton' _
        rw [plain]
        exact .plain (Nat.le_of_not_lt control) quote backslash

theorem quote_eq_quoted (text : String) :
    quote text = quoted (text.toList.map fun c =>
      (Utf8.encode (String.singleton c)).flatMap escapeByte) := by
  rw [quote, quoted, Utf8.encode_eq_flatMap, List.flatMap_assoc, List.flatMap_def]

theorem rendersChars_escape (text : String) :
    List.Forall₂ RendersChar text.toList (text.toList.map fun c =>
      (Utf8.encode (String.singleton c)).flatMap escapeByte) := by
  rw [List.forall₂_map_right_iff, List.forall₂_same]
  exact fun c _ => rendersChar_escape c

theorem renders_quote (text : String) : Renders (.text (some text)) (quote text) :=
  quote_eq_quoted text ▸ .text (rendersChars_escape text)

theorem spells_quote (text : String) : Spells (quote text) [.text (some text)] :=
  quote_eq_quoted text ▸ spells_text (rendersChars_escape text)

def numeralOf (n : Nat) : Numeral := ⟨false, Decimal.digits n, [], none⟩

theorem rendersNumeral_natural (n : Nat) : RendersNumeral (numeralOf n) (natural n) := by
  have leading : (Decimal.digits n).head? = some 0 → Decimal.digits n = [0] := by
    rcases Nat.eq_zero_or_pos n with rfl | positive
    · exact fun _ => rfl
    · obtain ⟨d, ds, digits_eq, leading⟩ := Decimal.digits_eq_cons positive
      rw [digits_eq, List.head?_cons]
      rintro ⟨⟩
      exact absurd leading (Nat.lt_irrefl 0)
  have written := @RendersNumeral.intro false _ [] none [] []
    ⟨Decimal.digits_ne_nil n, fun _ => Decimal.lt_ten_of_mem_digits⟩ leading .absent .absent
  simpa [numeralOf, natural, Decimal.ascii, digitBytes] using written

theorem spellsInside_natural (n : Nat) : SpellsInside (natural n) [.number (numeralOf n)] :=
  (rendersNumeral_natural n).spellsSettled.inside

end Handoff.Json
