import Handoff.Text.Utf8
import Handoff.Toml.Document
import Handoff.Workflow.Policy

/-!
# Settings

Settings are read from a TOML text; what the text does not set has a default.  Names that mean
nothing here are passed over.
-/

namespace Handoff

/-- What can be configured. -/
structure Settings where
  /-- How often a change of a tray is tried. -/
  attempts : Nat
  /-- What is shown for a user whose name is not known. -/
  placeholder : String
  /-- Which events are logged. -/
  logLevel : String
  /-- The file that events are logged to. -/
  logFile : Option String
deriving DecidableEq, Repr

inductive SettingsError
  | missing
  /-- There is a directory in place of the file. -/
  | directory
  /-- The file is not a text. -/
  | noText
  /-- The text is not TOML, or sets something to a value of a wrong type. -/
  | unreadable
deriving DecidableEq, Repr

/-- What is found in place of a file of settings. -/
inductive SettingsFile
  | missing
  | directory
  | contents (bytes : Bytes)
deriving DecidableEq, Repr

namespace Settings

open Toml

def standard : Settings := ⟨Policy.standard.budget, Policy.standard.placeholder, "info", none⟩

/-- How workflows are carried out. -/
def policy (settings : Settings) : Policy := ⟨settings.attempts, settings.placeholder⟩

def readText : Item → Option String
  | .text s => some s
  | _ => none

/-- A natural number of 32 bits. -/
def readCount : Item → Option Nat
  | .integer i => if 0 ≤ i ∧ i < UInt32.size then some i.toNat else none
  | _ => none

/-- A setting of a section, by its name in a table or by its position in an array.  The outer
`Option` tells whether the setting is well formed, the inner one whether it is there. -/
def setting {α : Type} (part : Option Item) (name : String) (position : Nat)
    (read : Item → Option α) : Option (Option α) :=
  let found : Option (Option Item) :=
    match part with
    | none | some .moment => some none
    | some (.table _ members) => some (members.lookup name)
    | some (.array items) => some items[position]?
    | some _ => none
  match found with
  | none => none
  | some none => some none
  | some (some item) => (read item).map some

/-- The settings of a text, unless something in it is wrong. -/
def ofText? (text : String) : Option Settings := do
  let members ← Toml.parse? text
  let store := members.lookup "store"
  let directory := members.lookup "directory"
  let logging := members.lookup "logging"
  let attempts ← setting store "cas_attempts" 0 readCount
  let placeholder ← setting directory "placeholder_name" 0 readText
  let logLevel ← setting logging "level" 0 readText
  let logFile ← setting logging "file" 1 readText
  return {
    attempts := (attempts.filter (0 < ·)).getD standard.attempts
    placeholder := placeholder.getD standard.placeholder
    logLevel := logLevel.getD standard.logLevel
    logFile := logFile.or standard.logFile }

/-- The settings of a file.  A file that was not asked for may be missing. -/
def load (asked : Bool) : SettingsFile → Except SettingsError Settings
  | .missing => if asked then .error .missing else .ok standard
  | .directory => .error .directory
  | .contents bytes =>
    match Utf8.decode? bytes with
    | none => .error .noText
    | some text => (ofText? text).elim (.error .unreadable) .ok

end Settings
end Handoff
