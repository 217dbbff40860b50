/-!
# Byte strings and their UTF-8 text

Stored values are byte strings.  `encode` writes a text, `decode?` reads one back; the two determine
each other, so a byte string is the form of at most one text.
-/

namespace Handoff

/-- An opaque stored value, or any other sequence of bytes. -/
abbrev Bytes := List UInt8

namespace Utf8

/-- The UTF-8 form of a text. -/
def encode (text : String) : Bytes :=
  text.toUTF8.data.toList

/-- The text whose UTF-8 form the bytes are, if there is one. -/
def decode? (bytes : Bytes) : Option String :=
  String.fromUTF8? ⟨bytes.toArray⟩

/-- Every text is read back from its form. -/
theorem decode?_encode (text : String) : decode? (encode text) = some text := by
  unfold decode? String.fromUTF8?
  rw [dif_pos (show ByteArray.IsValidUTF8 ⟨(encode text).toArray⟩ from text.isValidUTF8)]
  rfl

/-- Bytes that are read as a text are the form of this text. -/
theorem eq_encode_of_decode? {bytes : Bytes} {text : String} (read : decode? bytes = some text) :
    bytes = encode text := by
  unfold decode? String.fromUTF8? at read
  split at read
  · cases read
    rfl
  · cases read

/-- A text has one form, and nothing else is read as this text. -/
theorem decode?_eq_some_iff {bytes : Bytes} {text : String} :
    decode? bytes = some text ↔ bytes = encode text :=
  ⟨eq_encode_of_decode?, fun written => written ▸ decode?_encode text⟩

/-- Different texts have different forms. -/
theorem encode_injective {left right : String} (same : encode left = encode right) :
    left = right := by
  have := decode?_encode right
  rw [← same, decode?_encode] at this
  exact Option.some.inj this

/-- The form of a text is made of the forms of its characters. -/
theorem encode_ofList (chars : List Char) :
    encode (String.ofList chars) = chars.flatMap String.utf8EncodeChar := by
  simp [encode, String.ofList, List.utf8Encode]

theorem encode_singleton (c : Char) : encode (String.singleton c) = String.utf8EncodeChar c := by
  have single : String.singleton c = String.ofList [c] := by simp
  rw [single, encode_ofList, List.flatMap_singleton]

theorem encode_eq_flatMap (text : String) :
    encode text = text.toList.flatMap fun c => encode (String.singleton c) := by
  simp only [encode_singleton]
  rw [← encode_ofList, String.ofList_toList]

theorem encode_singleton_ascii {c : Char} (ascii : c.toNat < 0x80) :
    encode (String.singleton c) = [c.toNat.toUInt8] := by
  have code : c.val.toNat = c.toNat := rfl
  rw [encode_singleton, String.utf8EncodeChar, if_pos (by omega)]
  rfl

theorem encode_singleton_ne_nil (c : Char) : encode (String.singleton c) ≠ [] := by
  rw [encode_singleton, String.utf8EncodeChar]
  repeat' split
  all_goals exact List.cons_ne_nil _ _

/-- Beyond the form of an ASCII character, there is no byte of ASCII. -/
theorem toNat_eq_or_le_of_mem {c : Char} {b : UInt8} (mem : b ∈ encode (String.singleton c)) :
    b.toNat = c.toNat ∨ 0x80 ≤ b.toNat := by
  have code : c.val.toNat = c.toNat := rfl
  rw [encode_singleton, String.utf8EncodeChar] at mem
  simp only [code] at mem
  split at mem
  · rw [List.mem_singleton.mp mem, UInt8.toNat_ofNat']
    omega
  · right
    split at mem
    · simp only [List.mem_cons, List.not_mem_nil, or_false] at mem
      rcases mem with rfl | rfl <;> simp only [UInt8.toNat_ofNat'] <;> omega
    · split at mem <;> simp only [List.mem_cons, List.not_mem_nil, or_false] at mem
      · rcases mem with rfl | rfl | rfl <;> simp only [UInt8.toNat_ofNat'] <;> omega
      · rcases mem with rfl | rfl | rfl | rfl <;> simp only [UInt8.toNat_ofNat'] <;> omega

end Utf8
end Handoff
