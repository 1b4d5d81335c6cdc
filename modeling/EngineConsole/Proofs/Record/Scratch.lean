import EngineConsole.Console.Telemetry
import EngineConsole.Proofs.Number.Groups
import EngineConsole.Proofs.Record.Codec
import EngineConsole.Record.Scratch

/-!
# What a scratch holds

A tag takes five bytes at most, and so does what goes with it, a scalar payload or a length. So the scratch has room for every record that is put together in it, whatever the field number, and the chunk that is handed over is the encoding of the record. It is read back as it was written, but for the bits of the field number and of the length that 32 bits have no room for.
-/

namespace EngineConsole

/-! ### Storing a payload -/

/-- Wherever there is room for them, the bytes are stored at the front and nothing is stored behind them. -/
def Stores (store : Bytes → Except WriteFailure (Nat × Bytes)) (payload : Bytes) : Prop :=
  ∀ destination : Bytes, payload.length ≤ destination.length →
    store destination = .ok (payload.length, payload ++ destination.drop payload.length)

theorem Varint.stores (value : UInt32) : Stores (store value) (encode value) := by
  intro destination hroom
  rw [length_encode] at hroom ⊢
  rw [store_eq, if_pos hroom]

theorem Fixed32.stores (value : UInt32) : Stores (store value) (encode value) := by
  intro destination hroom
  rw [length_encode] at hroom ⊢
  rw [store, if_pos hroom, Bytes.overwrite_zero, length_encode]

theorem Scalar.stores {α : Type} (scalar : Scalar α) (value : α) :
    Stores (scalar.store value) (scalar.encodeValue value) := by
  cases scalar with
  | uint32 => exact Varint.stores value
  | fixed32 => exact Fixed32.stores value
  | float => exact Fixed32.stores value.bits
  | bool => exact Varint.stores _
  | enum enumeration => exact Varint.stores _

theorem Scalar.length_encodeValue_le {α : Type} (scalar : Scalar α) (value : α) :
    (scalar.encodeValue value).length ≤ Varint.maxSize := by
  cases scalar with
  | uint32 => exact Varint.length_encode_le value
  | fixed32 => exact Nat.le_succ Fixed32.size
  | float => exact Nat.le_succ Fixed32.size
  | bool => exact Varint.length_encode_le _
  | enum enumeration => exact Varint.length_encode_le _

/-! ### Filling the scratch -/

theorem Bytes.cut_append (front rest : Bytes) :
    Bytes.cut (front ++ rest) front.length = .ok (front, rest) := by
  have hroom : front.length ≤ (front ++ rest).length := by
    rw [List.length_append]
    exact Nat.le_add_right _ _
  rw [cut, if_pos hroom, List.take_left, List.drop_left]

/-- Neither the tag nor what is stored behind it runs past the end. -/
theorem Scratch.fill_eq (tag : Tag) {store : Bytes → Except WriteFailure (Nat × Bytes)}
    {payload : Bytes} (hstores : Stores store payload) (hpayload : payload.length ≤ Varint.maxSize) :
    fill tag store = .ok (tag.encode ++ payload) := by
  have htag : tag.encode.length ≤ Varint.maxSize := Varint.length_encode_le _
  have hsize : (List.replicate size (0 : UInt8)).length = Varint.maxSize + Varint.maxSize := by
    rw [List.length_replicate, size, Nat.two_mul]
  have hfront : Varint.store (UInt32.ofNat tag.raw) (List.replicate size 0) =
      .ok (tag.encode.length, tag.encode ++ (List.replicate size 0).drop tag.encode.length) :=
    Varint.stores _ _ (show tag.encode.length ≤ _ by omega)
  have hbehind := hstores ((List.replicate size 0).drop tag.encode.length) (by
    rw [List.length_drop]
    omega)
  have hchunk (rest : Bytes) : Bytes.cut (tag.encode ++ (payload ++ rest))
      (tag.encode.length + payload.length) = .ok (tag.encode ++ payload, rest) := by
    rw [← List.append_assoc, ← List.length_append]
    exact Bytes.cut_append _ rest
  simp only [fill, bind, Except.bind, hfront, Bytes.cut_append, hbehind, hchunk]
  rfl

theorem Scratch.write_eq (tag : Tag) {store : Bytes → Except WriteFailure (Nat × Bytes)}
    {payload : Bytes} (hstores : Stores store payload) (hpayload : payload.length ≤ Varint.maxSize) :
    write tag store = Sink.write (tag.encode ++ payload) := by
  funext sink
  rw [write, fill_eq tag hstores hpayload]

/-! ### Reading the record back -/

/-- A tag is read back with as many bits of the field number as there is room for. -/
theorem Tag.read_append (number : Nat) (wireType : WireType)
    (hwire : ∀ raw, wireType ≠ .unsupported raw) (rest : Bytes) :
    ∃ middle, read (.ofBytes (encode ⟨number, wireType⟩ ++ rest)) =
        (some ⟨number % 0x20000000, wireType⟩, middle) ∧ middle.Holds rest := by
  have hlegible : Legible ⟨number % 0x20000000, wireType⟩ := ⟨Nat.mod_lt _ (by decide), hwire⟩
  have hoffers := Reader.offers_ofBytes (encode ⟨number, wireType⟩ ++ rest)
  rw [encode_mod] at hoffers ⊢
  obtain ⟨middle, hread, hadvanced⟩ := read_of_offers hlegible hoffers.of_append_left
  exact ⟨middle, hread, (Reader.holds_ofBytes _).advance hadvanced⟩

/-- How the record of field `number` with a scalar value is written, and that it is read back. -/
structure Scalar.Conveyed {α : Type} (scalar : Scalar α) (number : Nat) (value : α) : Prop where
  /-- The scratch has room for the tag and the payload. -/
  filled : Scratch.fill ⟨number, scalar.wireType⟩ (scalar.store value) =
    .ok (scalar.encode number value)
  /-- Whatever the sink, it is handed this one chunk. -/
  handed : scalar.writeTo number value = Sink.write (scalar.encode number value)
  counted : (scalar.encode number value).length = scalar.size number value
  /-- The tag comes back with the field number modulo 2^29, the payload comes back as it was, and what follows them is still there. -/
  readBack : ∀ following : Bytes, ∃ middle after,
    Tag.read (.ofBytes (scalar.encode number value ++ following)) =
      (some ⟨number % 0x20000000, scalar.wireType⟩, middle) ∧
    scalar.fetch (number % 0x20000000) middle = { result := .ok value, reader := after } ∧
    after.Holds following

/-- How the header of field `number` is written for a payload of `length` bytes, and that it is read back. -/
structure Delimited.Announced (number length : Nat) : Prop where
  /-- The scratch has room for the tag and the length. -/
  filled : Scratch.fill ⟨number, .delimited⟩ (Varint.store (UInt32.ofNat length)) =
    .ok (header number length)
  /-- Whatever the sink, it is handed this one chunk. -/
  handed : writeHeader number length = Sink.write (header number length)
  counted : (header number length).length =
    Tag.size number + Varint.size (length % 0x100000000)
  /-- The tag comes back with the field number modulo 2^29, the length comes back modulo 2^32, and what follows them is still there. -/
  readBack : ∀ following : Bytes, ∃ middle after,
    Tag.read (.ofBytes (header number length ++ following)) =
      (some ⟨number % 0x20000000, .delimited⟩, middle) ∧
    Varint.readLength middle = .ok (length % 0x100000000) after ∧ after.Holds following

theorem Scalar.conveyed {α : Type} {scalar : Scalar α} (h : scalar.numbered = true) (number : Nat)
    (value : α) : scalar.Conveyed number value where
  filled := Scratch.fill_eq _ (scalar.stores value) (scalar.length_encodeValue_le value)
  handed := Scratch.write_eq _ (scalar.stores value) (scalar.length_encodeValue_le value)
  counted := length_encode h number value
  readBack := by
    intro following
    obtain ⟨middle, hread, hmiddle⟩ := Tag.read_append number scalar.wireType
      scalar.wireType_ne_unsupported (scalar.encodeValue value ++ following)
    obtain ⟨after, hfetch, hadvanced⟩ :=
      yields_fetch h (number % 0x20000000) value middle hmiddle.offers.of_append_left
    rw [encode, List.append_assoc]
    exact ⟨middle, after, hread, hfetch, hmiddle.advance hadvanced⟩

theorem Delimited.announced (number length : Nat) : Announced number length where
  filled := Scratch.fill_eq _ (Varint.stores _) (Varint.length_encode_le _)
  handed := Scratch.write_eq _ (Varint.stores _) (Varint.length_encode_le _)
  counted := length_header number length
  readBack := by
    intro following
    obtain ⟨middle, hread, hmiddle⟩ := Tag.read_append number .delimited
      (fun _ => WireType.noConfusion) (Varint.encode (UInt32.ofNat length) ++ following)
    obtain ⟨after, hlength, hadvanced⟩ :=
      Varint.yields_readLength_mod length middle hmiddle.offers.of_append_left
    rw [header, List.append_assoc]
    exact ⟨middle, after, hread, hlength, hmiddle.advance hadvanced⟩

/-- Whatever the field number, every scalar record and every header of a delimited one fits in the scratch, is handed over as one chunk of the size that was counted for it, and is read back. -/
theorem Scratch.conveyed_and_announced :
    (∀ {α : Type} (scalar : Scalar α), scalar.numbered = true →
      ∀ (number : Nat) (value : α), scalar.Conveyed number value) ∧
    ∀ number length : Nat, Delimited.Announced number length :=
  ⟨fun _ h => Scalar.conveyed h, Delimited.announced⟩

/-- The highest field number, of which twenty-nine bits are kept. -/
theorem Scratch.conveyed_and_announced_highest :
    (Scalar.enum SensorFault.enumeration).numbered = true ∧
    (Scalar.enum SensorFault.enumeration).Conveyed 0xffffffff .rangeFault :=
  ⟨by decide, conveyed_and_announced.1 (.enum SensorFault.enumeration) (by decide) _ _⟩

end EngineConsole
