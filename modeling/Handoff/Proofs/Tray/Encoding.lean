import Handoff.Proofs.Json.Numeral
import Handoff.Tray.Encoding

/-!
# Reading the names of trays and counts back

A tray is read from its name.  Counts are read back if they fit 64 bits, and no others are read.
-/

namespace Handoff

open Json

namespace Tray

theorem writes_encode (tray : Tray) : Writes tray.encode (.text (some tray.name)) :=
  writes_quote tray.name

theorem read_name (tray : Tray) : read (.text (some tray.name)) = .ok tray := by
  cases tray <;> rfl

end Tray

namespace Tally

/-- Every count fits 64 bits. -/
def Fits (tally : Tally) : Prop := ∀ tray, tally.get tray ≤ maxSignificand

def fields (tally : Tally) : List (Outline × Outline) :=
  Tray.all.map fun tray => (.text (some tray.name), .number (numeralOf (tally.get tray)))

theorem writesWhole_encode (tally : Tally) : WritesWhole tally.encode (.object tally.fields) := by
  apply writesWhole_object
  unfold fields
  refine List.forall₂_map_left_iff.mpr (List.forall₂_map_right_iff.mpr ?_)
  exact List.forall₂_same.mpr fun tray _ => ⟨rfl, writes_natural _⟩

theorem readCount_numeralOf {n : Nat} (fits : n ≤ maxSignificand) :
    readCount (.number (numeralOf n)) = .ok n :=
  readNatural_numeralOf fits "usize"

theorem read_fields {tally : Tally} (fits : tally.Fits) :
    read (.object tally.fields) = .ok tally := by
  have owned := readCount_numeralOf (fits .owned)
  have sent := readCount_numeralOf (fits .sent)
  have received := readCount_numeralOf (fits .received)
  simp only [get] at owned sent received
  simp [read, fields, Tray.all, Tray.name, Draft.read, Draft.empty, Draft.finish, Outline.readKey,
    once, required, owned, sent, received, bind, Except.bind, pure, Except.pure, get]

theorem decode_encode {tally : Tally} (fits : tally.Fits) : decode tally.encode = .ok tally := by
  rw [decode, tally.writesWhole_encode.decode_eq]
  exact read_fields fits

/-- Every count that has been read so far fits 64 bits. -/
structure Draft.Fits (draft : Draft) : Prop where
  owned : ∀ n, draft.owned = some n → n ≤ maxSignificand
  sent : ∀ n, draft.sent = some n → n ≤ maxSignificand
  received : ∀ n, draft.received = some n → n ≤ maxSignificand

theorem Draft.fits_of_read {draft next : Draft} {member : Outline × Outline}
    (read_eq : draft.read member = .ok next) (fits : draft.Fits) : next.Fits := by
  obtain ⟨name, _, read_eq⟩ := bind_eq_ok.mp read_eq
  split at read_eq
  case h_4 =>
    obtain ⟨_, _, read_eq⟩ := bind_eq_ok.mp read_eq
    cases read_eq
    exact fits
  all_goals
    obtain ⟨_, _, read_eq⟩ := bind_eq_ok.mp read_eq
    obtain ⟨count, read_count, read_eq⟩ := bind_eq_ok.mp read_eq
    have new : ∀ n, some count = some n → n ≤ maxSignificand := by
      rintro n ⟨⟩
      exact le_of_readNatural read_count
    cases read_eq
  · exact { fits with owned := new }
  · exact { fits with sent := new }
  · exact { fits with received := new }

theorem fits_mk {owned sent received : Nat} (owned_fits : owned ≤ maxSignificand)
    (sent_fits : sent ≤ maxSignificand) (received_fits : received ≤ maxSignificand) :
    Fits ⟨owned, sent, received⟩ := by
  intro tray
  cases tray
  · exact owned_fits
  · exact sent_fits
  · exact received_fits

theorem fits_of_decode {bytes : Bytes} {tally : Tally} (decoded : decode bytes = .ok tally) :
    tally.Fits := by
  have read_eq := read_of_decode_ok decoded
  cases shape : (outline bytes).1 with
  | object members =>
      rw [shape] at read_eq
      obtain ⟨draft, read_all, finished⟩ := bind_eq_ok.mp read_eq
      have start : Draft.empty.Fits := by
        constructor <;> rintro n ⟨⟩
      have fits := keeps_of_foldlM_ok (fun _ _ _ => Draft.fits_of_read) read_all start
      obtain ⟨owned, owned_read, finished⟩ := bind_eq_ok.mp finished
      obtain ⟨sent, sent_read, finished⟩ := bind_eq_ok.mp finished
      obtain ⟨received, received_read, finished⟩ := bind_eq_ok.mp finished
      cases finished
      exact fits_mk (fits.owned _ (eq_some_of_required owned_read))
        (fits.sent _ (eq_some_of_required sent_read))
        (fits.received _ (eq_some_of_required received_read))
  | array items =>
      rw [shape] at read_eq
      obtain ⟨owned, owned_read, read_eq⟩ := bind_eq_ok.mp read_eq
      obtain ⟨sent, sent_read, read_eq⟩ := bind_eq_ok.mp read_eq
      obtain ⟨received, received_read, read_eq⟩ := bind_eq_ok.mp read_eq
      obtain ⟨_, _, read_eq⟩ := bind_eq_ok.mp read_eq
      obtain ⟨_, owned_read⟩ := exists_of_element owned_read
      obtain ⟨_, sent_read⟩ := exists_of_element sent_read
      obtain ⟨_, received_read⟩ := exists_of_element received_read
      cases read_eq
      exact fits_mk (le_of_readNatural owned_read) (le_of_readNatural sent_read)
        (le_of_readNatural received_read)
  | _ =>
      rw [shape] at read_eq
      cases read_eq

end Tally
end Handoff
