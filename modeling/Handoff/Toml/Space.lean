import Handoff.Text.Reader

/-!
# Spaces, line ends and comments in TOML texts
-/

namespace Handoff.Toml

open Text (Reader)

/-- Space and tab. -/
def isSpace (c : Char) : Bool := c == ' ' || c == '\t'

/-- The characters that may stand in a comment. -/
def isCommentChar (c : Char) : Bool := c == '\t' || (32 ≤ c.toNat && c.toNat ≠ 127)

/-- Spaces and tabs. -/
def space : Reader Unit := do let _ ← Reader.takeWhile isSpace

/-- A line end. -/
def lineEnd : Reader Unit := Reader.either (Reader.exactly "\n") (Reader.exactly "\r\n")

/-- A comment up to the line end. -/
def comment : Reader Unit := do
  Reader.exactly "#"
  let _ ← Reader.takeWhile isCommentChar

/-- The end of a line or of the text. -/
def lineEndOrEnd : Reader Unit
  | [] => some ((), [])
  | text => lineEnd text

/-- What may follow on a line. -/
def restOfLine : Reader Unit := do
  space
  let _ ← Reader.maybe comment
  lineEndOrEnd

/-- Spaces, line ends and comments, as they may stand between the items of an array. -/
def blank : Reader Unit := do
  let one : Reader Unit :=
    Reader.either (do let _ ← Reader.takeSome isSpace) (Reader.either lineEnd comment)
  let _ ← Reader.many one (← Reader.remaining)

end Handoff.Toml
