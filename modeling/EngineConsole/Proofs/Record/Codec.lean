import EngineConsole.Proofs.Number.Codec
import EngineConsole.Record.Floats
import EngineConsole.Record.Scalar
import EngineConsole.Record.Text

/-!
# Records on the line

The records that hold no message. Each takes as many bytes as its size says, and a fetch or a merge that is offered the payload takes exactly the payload and arrives at the value that was written.
-/

namespace EngineConsole

/-! ### Tags -/

namespace Tag

/-- The tags that are read back as they were written. -/
def Legible (tag : Tag) : Prop := tag.number < 0x20000000 ∧ ∀ raw, tag.wireType ≠ .unsupported raw

theorem raw_lt_eight {wireType : WireType} (h : ∀ raw, wireType ≠ .unsupported raw) :
    wireType.raw < 8 := by
  cases wireType with
  | varint => decide
  | delimited => decide
  | fixed32 => decide
  | unsupported raw => exact absurd rfl (h raw)

/-- The number and the wire type stand side by side in the tag, so they are read off by a division. -/
theorem raw_eq {tag : Tag} (h : ∀ raw, tag.wireType ≠ .unsupported raw) :
    tag.raw = 8 * (tag.number % 0x20000000) + tag.wireType.raw := by
  have hshift : tag.number * 8 % 0x100000000 = 2 ^ 3 * (tag.number % 0x20000000) := by omega
  rw [raw, hshift, ← Nat.two_pow_add_eq_or_of_lt (raw_lt_eight h)]

theorem raw_lt {tag : Tag} (h : ∀ raw, tag.wireType ≠ .unsupported raw) : tag.raw < 0x100000000 := by
  have := raw_lt_eight h
  rw [raw_eq h]
  omega

/-- No boundary between two sizes of varints falls inside a group of eight, so the wire type does not count. -/
theorem length_encode {tag : Tag} (h : ∀ raw, tag.wireType ≠ .unsupported raw) :
    (encode tag).length = size tag.number := by
  have hwire := raw_lt_eight h
  rw [encode, Varint.length_encode, UInt32.toNat_ofNat_of_lt' (raw_lt h), raw_eq h, size]
  simp only [Varint.size]
  repeat' split
  all_goals omega

theorem encode_ne_nil (tag : Tag) : encode tag ≠ [] := Varint.encode_ne_nil _

theorem ofRaw_raw {tag : Tag} (h : tag.Legible) : ofRaw tag.raw = tag := by
  obtain ⟨number, wireType⟩ := tag
  have hwire : ∀ raw, wireType ≠ .unsupported raw := h.2
  have hsmall := raw_lt_eight hwire
  have hraw : raw ⟨number, wireType⟩ = 8 * number + wireType.raw := by
    rw [raw_eq hwire, Nat.mod_eq_of_lt h.1]
  have hnumber : (8 * number + wireType.raw) / 8 = number := by omega
  have hrest : (8 * number + wireType.raw) % 8 = wireType.raw := by omega
  simp only [ofRaw, WireType.ofRaw, hraw, hnumber, hrest]
  cases wireType with
  | varint => rfl
  | delimited => rfl
  | fixed32 => rfl
  | unsupported raw => exact absurd rfl (hwire raw)

theorem read_of_offers {tag : Tag} {reader : Reader} (h : tag.Legible)
    (hoffers : reader.Offers (encode tag)) :
    ∃ after, read reader = (some tag, after) ∧ reader.Advanced (encode tag).length after := by
  obtain ⟨after, hread, hadvanced⟩ := Varint.yields_read (UInt32.ofNat tag.raw) reader hoffers
  refine ⟨after, ?_, hadvanced⟩
  rw [read, hread]
  simp only [UInt32.toNat_ofNat_of_lt' (raw_lt h.2), ofRaw_raw h]

/-- The bits of the field number that do not fit are not written. -/
theorem encode_mod (number : Nat) (wireType : WireType) :
    encode ⟨number, wireType⟩ = encode ⟨number % 0x20000000, wireType⟩ := by
  have hshift : number * 8 % 0x100000000 = number % 0x20000000 * 8 % 0x100000000 := by omega
  simp only [encode, raw, hshift]

theorem read_of_ends {reader : Reader} (h : reader.Ends 0) :
    ∃ after, read reader = (none, after) ∧ reader.Advanced 0 after := by
  obtain ⟨error, after, hread, hadvanced⟩ := Reader.read_of_ends h Nat.one_pos
  refine ⟨after, ?_, hadvanced⟩
  simp only [read, Varint.read, Varint.readGroups, Varint.maxSize, Reader.readByte, bind,
    EStateM.bind, hread]

end Tag

/-! ### Payloads that are fetched -/

namespace Fetched

variable {α : Type}

/-- The fetch yields `value` from any reader that offers `data`, and takes exactly these bytes. -/
def Yields (fetch : Reader → Fetched α) (data : Bytes) (value : α) : Prop :=
  ∀ reader : Reader, reader.Offers data →
    ∃ after, fetch reader = { result := .ok value, reader := after } ∧
      reader.Advanced data.length after

theorem yields_ofRead {op : Read α} {data : Bytes} {value : α} (h : Read.Yields op data value) :
    Yields (ofRead op) data value := by
  intro reader hoffers
  obtain ⟨after, hop, hadvanced⟩ := h reader hoffers
  exact ⟨after, by rw [ofRead, hop], hadvanced⟩

end Fetched

/-! ### Enumerations -/

namespace Enumeration

variable {ε : Type} (enumeration : Enumeration ε)

theorem number_getElem {place : Nat} (h : place < enumeration.variants.length) :
    enumeration.number enumeration.variants[place] = place := by
  have hlt : place < enumeration.others.length + 1 := h
  have hmap : (enumeration.variants.map enumeration.number)[place]? =
      (List.range (enumeration.others.length + 1))[place]? :=
    congrArg (·[place]?) enumeration.numbered
  rw [List.getElem?_map, List.getElem?_eq_getElem h, List.getElem?_range hlt] at hmap
  exact Option.some.inj hmap

theorem ofNumber?_number (variant : ε) :
    enumeration.ofNumber? (enumeration.number variant) = some variant := by
  have hmem : variant ∈ enumeration.variants := enumeration.complete variant
  obtain ⟨place, hplace, rfl⟩ := List.getElem_of_mem hmem
  rw [number_getElem, ofNumber?, List.getElem?_eq_getElem hplace]

theorem number_le_greatest (variant : ε) : enumeration.number variant ≤ enumeration.greatest := by
  have hmem : enumeration.number variant ∈ (enumeration.first :: enumeration.others).map enumeration.number :=
    List.mem_map_of_mem (enumeration.complete variant)
  rw [enumeration.numbered, List.mem_range] at hmem
  rw [greatest]
  omega

theorem eq_first_of_number_eq_zero {variant : ε} (h : enumeration.number variant = 0) :
    variant = enumeration.first := by
  have hvariant := enumeration.ofNumber?_number variant
  rw [h] at hvariant
  exact (Option.some.inj hvariant).symm

end Enumeration

/-! ### Scalars -/

namespace Scalar

def numbered {α : Type} : Scalar α → Bool
  | enum enumeration => enumeration.greatest < 0x100000000
  | _ => true

/-- An enumeration has another variant than the default one, and its numbers fit in 32 bits. -/
def wellFormed {α : Type} : Scalar α → Bool
  | enum enumeration => 0 < enumeration.greatest && enumeration.greatest < 0x100000000
  | _ => true

variable {α : Type}

theorem numbered_of_wellFormed {scalar : Scalar α} (h : scalar.wellFormed = true) :
    scalar.numbered = true := by
  cases scalar with
  | enum enumeration =>
    rw [wellFormed, Bool.and_eq_true] at h
    exact h.2
  | _ => rfl

theorem wireType_ne_unsupported (scalar : Scalar α) (raw : Nat) :
    scalar.wireType ≠ .unsupported raw := by
  cases scalar <;> exact WireType.noConfusion

private theorem number_lt {ε : Type} {enumeration : Enumeration ε}
    (h : (enum enumeration).numbered = true) (variant : ε) :
    enumeration.number variant < 0x100000000 :=
  Nat.lt_of_le_of_lt (enumeration.number_le_greatest variant) (of_decide_eq_true h)

theorem length_encodeValue {scalar : Scalar α} (h : scalar.numbered = true) (value : α) :
    (scalar.encodeValue value).length = scalar.valueSize value := by
  cases scalar with
  | uint32 => exact Varint.length_encode value
  | fixed32 => rfl
  | float => rfl
  | bool => cases value <;> rfl
  | enum enumeration =>
    rw [encodeValue, Varint.length_encode, UInt32.toNat_ofNat_of_lt' (number_lt h value), valueSize]

theorem length_encode {scalar : Scalar α} (h : scalar.numbered = true) (number : Nat) (value : α) :
    (scalar.encode number value).length = scalar.size number value := by
  rw [encode, List.length_append, Tag.length_encode scalar.wireType_ne_unsupported,
    length_encodeValue h, size]

theorem yields_fetch {scalar : Scalar α} (h : scalar.numbered = true) (number : Nat) (value : α) :
    Fetched.Yields (scalar.fetch number) (scalar.encodeValue value) value := by
  cases scalar with
  | uint32 => exact Fetched.yields_ofRead (Varint.yields_read value)
  | fixed32 => exact Fetched.yields_ofRead (Fixed32.yields_read value)
  | float => exact Fetched.yields_ofRead (Single.yields_read value)
  | bool => exact Fetched.yields_ofRead (Varint.yields_readFlag value)
  | enum enumeration =>
    intro reader hoffers
    obtain ⟨after, hfetch, hadvanced⟩ := Fetched.yields_ofRead
      (Varint.yields_read (UInt32.ofNat (enumeration.number value))) reader hoffers
    refine ⟨after, ?_, hadvanced⟩
    have hvariant := enumeration.ofNumber?_number value
    simp only [fetch, hfetch, recognize, UInt32.toNat_ofNat_of_lt' (number_lt h value), hvariant]

end Scalar

/-! ### Payloads with a length prefix -/

namespace Delimited

theorem length_header (number length : Nat) :
    (header number length).length = Tag.size number + Varint.size (length % 0x100000000) := by
  have htag : (Tag.encode ⟨number, .delimited⟩).length = Tag.size number :=
    Tag.length_encode (fun _ => WireType.noConfusion)
  rw [header, List.length_append, htag, Varint.length_encode]
  rfl

theorem length_header_append (number : Nat) (content : Bytes) :
    (header number content.length ++ content).length = Size.delimited number content.length := by
  rw [List.length_append, length_header, Size.delimited]

def payload (content : Bytes) : Bytes := Varint.encode (UInt32.ofNat content.length) ++ content

end Delimited

/-! ### Texts -/

namespace Text

theorem length_bytes (text : String) : (bytes text).length = text.utf8ByteSize := by
  rw [bytes, Array.length_toList, String.toUTF8_eq_toByteArray]
  exact String.size_toByteArray

theorem utf8ByteSize_pushn (count : Nat) : ("".pushn 'x' count).utf8ByteSize = count := by
  induction count with
  | zero => rfl
  | succ count ih =>
    rw [String.pushn_eq_repeat_push] at ih ⊢
    rw [Nat.repeat, String.utf8ByteSize_push, ih]
    rfl

theorem ofBytes?_bytes (text : String) : ofBytes? (bytes text) = some text := by
  have hbytes : (⟨(bytes text).toArray⟩ : ByteArray) = text.toByteArray := rfl
  rw [ofBytes?, hbytes, String.fromUTF8?, dif_pos text.isValidUTF8]
  rfl

theorem utf8ByteSize_of_ofBytes? {data : Bytes} {text : String} (h : ofBytes? data = some text) :
    text.utf8ByteSize = data.length := by
  rw [ofBytes?, String.fromUTF8?] at h
  split at h
  · rw [← Option.some.inj h]
    exact List.size_toArray
  · contradiction

section

variable {number capacity : Nat} {text shorter : String} {reader : Reader}

/-- The length in front of a text is that of the text modulo 2^32, and as much of the text is fetched. -/
theorem fetch_of_offers (hoffers : reader.Offers (Delimited.payload (bytes text)))
    (hfits : (bytes text).length % 0x100000000 ≤ capacity)
    (hshorter : bytes shorter = (bytes text).take ((bytes text).length % 0x100000000)) :
    ∃ after, fetch number capacity reader = { result := .ok shorter, reader := after } ∧
      reader.Advanced ((Varint.encode (UInt32.ofNat (bytes text).length)).length +
        (bytes text).length % 0x100000000) after := by
  obtain ⟨middle, hlength, hmiddle⟩ :=
    Varint.yields_readLength_mod (bytes text).length reader hoffers.of_append_left
  have hpayload := hoffers.advance hmiddle
  rw [← List.take_append_drop ((bytes text).length % 0x100000000) (bytes text), ← hshorter]
    at hpayload
  have hcount : (bytes shorter).length = (bytes text).length % 0x100000000 := by
    rw [hshorter, List.length_take_of_le (Nat.mod_le _ _)]
  obtain ⟨after, hread, hafter⟩ :=
    Fetched.yields_ofRead (Read.yields_read (bytes shorter)) middle hpayload.of_append_left
  rw [hcount] at hread hafter
  refine ⟨after, ?_, hmiddle.trans hafter⟩
  simp only [fetch, hlength, if_neg (Nat.not_lt.mpr hfits), hread, interpret, ofBytes?_bytes]

theorem yields_fetch (number : Nat) (hfits : text.utf8ByteSize ≤ capacity)
    (hsmall : text.utf8ByteSize < 0x100000000) :
    Fetched.Yields (fetch number capacity) (Delimited.payload (bytes text)) text := by
  intro reader hoffers
  rw [← length_bytes] at hfits hsmall
  have hmod := Nat.mod_eq_of_lt hsmall
  obtain ⟨after, hfetch, hafter⟩ :=
    fetch_of_offers hoffers (hmod ▸ hfits) (by rw [hmod, List.take_length])
  rw [hmod] at hafter
  refine ⟨after, hfetch, ?_⟩
  rw [Delimited.payload, List.length_append]
  exact hafter

/-- A text whose length is a multiple of 2^32 is taken for the empty one. -/
theorem fetch_of_multiple (hoffers : reader.Offers (Delimited.payload (bytes text)))
    (hmultiple : text.utf8ByteSize % 0x100000000 = 0) :
    (fetch number capacity reader).result = .ok "" := by
  rw [← length_bytes] at hmultiple
  have hempty : bytes "" = (bytes text).take ((bytes text).length % 0x100000000) := by
    rw [hmultiple]
    rfl
  obtain ⟨after, hfetch, -⟩ :=
    fetch_of_offers hoffers (hmultiple ▸ Nat.zero_le capacity) hempty
  rw [hfetch]

end

end Text

end EngineConsole
