import Handoff.Json.Decode
import Handoff.Json.Encode
import Handoff.Tray.Basic

/-!
# The written forms of tray names and counts

A tray is written as its name, and counts as an object with one member for each tray.  Counts are
also read from an array in the order of the trays; members of other names are passed over.
-/

namespace Handoff

open Json

namespace Tray

/-- The written form of the name of a tray. -/
def encode (tray : Tray) : Bytes := quote tray.name

/-- The tray of a name. -/
def ofName (name : String) : Except Error Tray :=
  match name with
  | "owned" => .ok .owned
  | "sent" => .ok .sent
  | "received" => .ok .received
  | name => .error (.unknownVariant name (all.map Tray.name))

/-- The name of a tray, by itself or as the only key of an object with the value null. -/
def read : Outline → Except Error Tray
  | .text (some name) => ofName name
  | .object ((key, value) :: members) => do
    let tray ← ofName (← key.readKey)
    value.readUnit
    if members.isEmpty then return tray else throw .malformed
  | _ => .error .malformed

end Tray

namespace Tally

/-- The written form of counts. -/
def encode (tally : Tally) : Bytes :=
  object (Tray.all.map fun tray => (tray.name, natural (tally.get tray)))

/-- A count. -/
def readCount (value : Outline) : Except Error Nat := value.readNatural "usize"

/-- The counts as far as they have been read. -/
structure Draft where
  owned : Option Nat
  sent : Option Nat
  received : Option Nat
deriving DecidableEq, Repr

namespace Draft

def empty : Draft := ⟨none, none, none⟩

/-- Reads one more member. -/
def read (draft : Draft) (member : Outline × Outline) : Except Error Draft := do
  match ← member.1.readKey with
  | "owned" =>
    once "owned" draft.owned
    return { draft with owned := some (← readCount member.2) }
  | "sent" =>
    once "sent" draft.sent
    return { draft with sent := some (← readCount member.2) }
  | "received" =>
    once "received" draft.received
    return { draft with received := some (← readCount member.2) }
  | _ =>
    member.2.skip
    return draft

/-- The counts, once all members have been read. -/
def finish (draft : Draft) : Except Error Tally := do
  return ⟨← required "owned" draft.owned, ← required "sent" draft.sent,
    ← required "received" draft.received⟩

end Draft

/-- Counts from their fields in order. -/
def ofItems (items : List Outline) : Except Error Tally := do
  let form := "struct ListCounts with 3 elements"
  let owned ← element form items 0 readCount
  let sent ← element form items 1 readCount
  let received ← element form items 2 readCount
  noMoreThan 3 items
  return ⟨owned, sent, received⟩

/-- Counts, written as an object or as an array of their fields. -/
def read : Outline → Except Error Tally
  | .object members => do (← members.foldlM Draft.read Draft.empty).finish
  | .array items => ofItems items
  | value => .error (value.mismatch "struct ListCounts")

/-- Reads the written form of counts. -/
def decode (bytes : Bytes) : Except Error Tally := Json.decode read bytes

end Tally

end Handoff
