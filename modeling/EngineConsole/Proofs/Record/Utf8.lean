import EngineConsole.Proofs.Record.Codec

/-!
# UTF-8

Which bytes are a text. The syntax is that of the Unicode standard, table 3-7: a character takes up to four bytes, of which the first one says how many follow, and of the second ones those are left out that would write a character in more bytes than it needs, half of a surrogate pair or a number beyond the last character. Bytes are read as a text exactly if they are such characters one after the other, and the text has these bytes.
-/

namespace EngineConsole

namespace Utf8

/-- A byte that goes on with a character. -/
def Continues (byte : UInt8) : Prop := 0x80 ≤ byte.toNat ∧ byte.toNat ≤ 0xbf

/-- The bytes of one character. -/
inductive Character : Bytes → Prop where
  | one {first : UInt8} (range : first.toNat ≤ 0x7f) : Character [first]
  | two {first second : UInt8} (range : 0xc2 ≤ first.toNat ∧ first.toNat ≤ 0xdf)
      (tail : Continues second) : Character [first, second]
  | three {first second third : UInt8} (range : 0xe0 ≤ first.toNat ∧ first.toNat ≤ 0xef)
      (tail : Continues second ∧ Continues third)
      (shortest : first.toNat = 0xe0 → 0xa0 ≤ second.toNat)
      (noSurrogate : first.toNat = 0xed → second.toNat ≤ 0x9f) : Character [first, second, third]
  | four {first second third fourth : UInt8} (range : 0xf0 ≤ first.toNat ∧ first.toNat ≤ 0xf4)
      (tail : Continues second ∧ Continues third ∧ Continues fourth)
      (shortest : first.toNat = 0xf0 → 0x90 ≤ second.toNat)
      (inRange : first.toNat = 0xf4 → second.toNat ≤ 0x8f) :
      Character [first, second, third, fourth]

/-- The bytes of some characters, one after the other. -/
inductive WellFormed : Bytes → Prop where
  | nil : WellFormed []
  | cons {character others : Bytes} : Character character → WellFormed others →
      WellFormed (character ++ others)

/-! ### One character -/

theorem character_encode (character : Char) : Character (String.utf8EncodeChar character) := by
  have hvalid : character.val.toNat < 0xd800 ∨
      0xdfff < character.val.toNat ∧ character.val.toNat < 0x110000 := character.valid
  simp only [String.utf8EncodeChar]
  split
  · apply Character.one
    simp only [UInt8.toNat_ofNat']
    omega
  · split
    · apply Character.two <;> simp only [Continues, UInt8.toNat_ofNat'] <;> omega
    · split
      · apply Character.three <;> simp only [Continues, UInt8.toNat_ofNat'] <;> omega
      · apply Character.four <;> simp only [Continues, UInt8.toNat_ofNat'] <;> omega

private theorem exists_char {code : Nat} (h : code.isValidChar) :
    ∃ character : Char, character.val.toNat = code := ⟨Char.ofNatAux code h, rfl⟩

theorem Character.exists_encode {bytes : Bytes} (h : Character bytes) :
    ∃ character, String.utf8EncodeChar character = bytes := by
  cases h with
  | @one first range =>
    have hvalid : (first.toNat).isValidChar := .inl (by omega)
    obtain ⟨character, hcode⟩ := exists_char hvalid
    refine ⟨character, ?_⟩
    simp only [String.utf8EncodeChar]
    rw [if_pos (by omega), hcode, UInt8.ofNat_toNat]
  | @two first second range tail =>
    obtain ⟨hlow, hhigh⟩ := tail
    have hvalid : ((first.toNat - 0xc0) * 64 + (second.toNat - 0x80)).isValidChar :=
      .inl (by omega)
    obtain ⟨character, hcode⟩ := exists_char hvalid
    refine ⟨character, ?_⟩
    simp only [String.utf8EncodeChar]
    rw [if_neg (by omega), if_pos (by omega)]
    simp only [List.cons.injEq, ← UInt8.toNat_inj, UInt8.toNat_ofNat', and_true]
    omega
  | @three first second third range tail shortest noSurrogate =>
    obtain ⟨⟨hlow, hhigh⟩, hlow', hhigh'⟩ := tail
    have hvalid : ((first.toNat - 0xe0) * 4096 + (second.toNat - 0x80) * 64 +
        (third.toNat - 0x80)).isValidChar := by
      show _ < 0xd800 ∨ 0xdfff < _ ∧ _ < 0x110000
      omega
    obtain ⟨character, hcode⟩ := exists_char hvalid
    refine ⟨character, ?_⟩
    simp only [String.utf8EncodeChar]
    rw [if_neg (by omega), if_neg (by omega), if_pos (by omega)]
    simp only [List.cons.injEq, ← UInt8.toNat_inj, UInt8.toNat_ofNat', and_true]
    omega
  | @four first second third fourth range tail shortest inRange =>
    obtain ⟨⟨hlow, hhigh⟩, ⟨hlow', hhigh'⟩, hlow'', hhigh''⟩ := tail
    have hvalid : ((first.toNat - 0xf0) * 262144 + (second.toNat - 0x80) * 4096 +
        (third.toNat - 0x80) * 64 + (fourth.toNat - 0x80)).isValidChar := by
      show _ < 0xd800 ∨ 0xdfff < _ ∧ _ < 0x110000
      omega
    obtain ⟨character, hcode⟩ := exists_char hvalid
    refine ⟨character, ?_⟩
    simp only [String.utf8EncodeChar]
    rw [if_neg (by omega), if_neg (by omega), if_neg (by omega)]
    simp only [List.cons.injEq, ← UInt8.toNat_inj, UInt8.toNat_ofNat', and_true]
    omega

/-! ### Texts -/

theorem wellFormed_flatMap (characters : List Char) :
    WellFormed (characters.flatMap String.utf8EncodeChar) := by
  induction characters with
  | nil => exact .nil
  | cons character characters ih => exact .cons (character_encode character) ih

theorem WellFormed.exists_flatMap {data : Bytes} (h : WellFormed data) :
    ∃ characters : List Char, characters.flatMap String.utf8EncodeChar = data := by
  induction h with
  | nil => exact ⟨[], rfl⟩
  | cons hcharacter _ ih =>
    obtain ⟨character, rfl⟩ := hcharacter.exists_encode
    obtain ⟨characters, rfl⟩ := ih
    exact ⟨character :: characters, List.flatMap_cons⟩

end Utf8

namespace Text

theorem bytes_ofList (characters : List Char) :
    bytes (String.ofList characters) = characters.flatMap String.utf8EncodeChar := by
  rw [bytes, String.toUTF8_eq_toByteArray, String.toByteArray_ofList, List.utf8Encode]
  simp

/-- The bytes are those of a text exactly if they are well formed. -/
theorem wellFormed_iff {data : Bytes} : Utf8.WellFormed data ↔ ∃ text, bytes text = data := by
  constructor
  · intro h
    obtain ⟨characters, rfl⟩ := h.exists_flatMap
    exact ⟨String.ofList characters, bytes_ofList characters⟩
  · rintro ⟨text, rfl⟩
    rw [← text.ofList_toList, bytes_ofList]
    exact Utf8.wellFormed_flatMap text.toList

theorem ofBytes?_eq_some_iff {data : Bytes} {text : String} :
    ofBytes? data = some text ↔ bytes text = data := by
  constructor
  · intro h
    rw [ofBytes?, String.fromUTF8?] at h
    split at h
    · rw [← Option.some.inj h]
      rfl
    · contradiction
  · rintro rfl
    exact ofBytes?_bytes text

theorem ofBytes?_eq_none_iff {data : Bytes} : ofBytes? data = none ↔ ¬ Utf8.WellFormed data := by
  rw [wellFormed_iff, Option.eq_none_iff_forall_ne_some]
  simp only [ne_eq, ofBytes?_eq_some_iff, not_exists]

end Text

end EngineConsole
