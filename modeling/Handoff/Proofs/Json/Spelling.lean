import Handoff.Json.Token

/-!
# Spelling tokens

Bytes spell a sequence of tokens if the machine finds these tokens in them wherever a token may
begin.  A number is found when something follows it that cannot belong to it.
-/

namespace Handoff.Json

namespace Lexer

def run (lexer : Lexer) (bytes : Bytes) : Lexer := bytes.foldl feed lexer

@[simp]
theorem run_nil (lexer : Lexer) : lexer.run [] = lexer := rfl

@[simp]
theorem run_cons (lexer : Lexer) (b : UInt8) (bytes : Bytes) :
    lexer.run (b :: bytes) = (lexer.feed b).run bytes := rfl

theorem run_append (lexer : Lexer) (left right : Bytes) :
    lexer.run (left ++ right) = (lexer.run left).run right :=
  List.foldl_append

end Lexer

/-- The bytes that may follow a value inside a container. -/
def EndsValue (b : UInt8) : Prop := b = 0x2c ∨ b = 0x5d ∨ b = 0x7d

/-- Bytes that are these tokens, whatever comes before and after them. -/
def Spells (bytes : Bytes) (ts : List Token) : Prop :=
  ∀ found, Lexer.run ⟨found, .between⟩ bytes = ⟨ts.reverse ++ found, .between⟩

/-- Bytes that are these tokens when a comma or the end of a container follows. -/
def SpellsInside (bytes : Bytes) (ts : List Token) : Prop :=
  ∀ found next, EndsValue next →
    Lexer.run ⟨found, .between⟩ (bytes ++ [next]) =
      Lexer.run ⟨ts.reverse ++ found, .between⟩ [next]

theorem Spells.inside {bytes : Bytes} {ts : List Token} (spells : Spells bytes ts) :
    SpellsInside bytes ts := by
  intro found next _
  rw [Lexer.run_append, spells]

theorem Spells.append {left right : Bytes} {ts us : List Token} (first : Spells left ts)
    (second : Spells right us) : Spells (left ++ right) (ts ++ us) := by
  intro found
  rw [Lexer.run_append, first, second]
  simp

theorem SpellsInside.append_next {bytes rest : Bytes} {ts us : List Token} {next : UInt8}
    (first : SpellsInside bytes ts) (ends : EndsValue next) (second : Spells (next :: rest) us) :
    Spells (bytes ++ next :: rest) (ts ++ us) := by
  intro found
  have split : bytes ++ next :: rest = (bytes ++ [next]) ++ rest := by simp
  rw [split, Lexer.run_append, first found next ends, ← Lexer.run_append]
  simpa using second (ts.reverse ++ found)

theorem Spells.tokens_eq {bytes : Bytes} {ts : List Token} (spells : Spells bytes ts) :
    tokens bytes = ts := by
  have run : bytes.foldl Lexer.feed Lexer.start = ⟨ts.reverse ++ [], .between⟩ := spells []
  rw [tokens, run]
  simp [Lexer.finish]

theorem spells_openArray : Spells [0x5b] [.openArray] := fun _ => rfl

theorem spells_closeArray : Spells [0x5d] [.closeArray] := fun _ => rfl

theorem spells_openObject : Spells [0x7b] [.openObject] := fun _ => rfl

theorem spells_closeObject : Spells [0x7d] [.closeObject] := fun _ => rfl

theorem spells_colon : Spells [0x3a] [.colon] := fun _ => rfl

end Handoff.Json
