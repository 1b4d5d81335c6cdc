import EngineConsole.Proofs.Bytes.Memory
import EngineConsole.Proofs.Number.Codec

/-!
# The spellings of a number

A varint can be written in more bytes than it needs, so a number has several spellings, and the reader takes every one that is no longer than five bytes. What begins with no such spelling begins with five bytes that all announce another one, or ends before it: then the reading fails, and it has consumed these bytes. No spelling goes on into another, so the bytes at hand decide where the number ends.
-/

namespace EngineConsole

namespace Varint

def Marked (bytes : Bytes) : Prop := ∀ byte ∈ bytes, 128 ≤ byte.toNat

instance (bytes : Bytes) : Decidable (Marked bytes) :=
  List.decidableBAll (fun byte : UInt8 => 128 ≤ byte.toNat) bytes

theorem Marked.take {bytes : Bytes} (h : Marked bytes) (count : Nat) : Marked (bytes.take count) :=
  fun byte hbyte => h byte (List.mem_of_mem_take hbyte)

/-- The failure where no spelling of at most `count` bytes is found: the announcements go on for too long, or the data ends inside them. -/
def failure (count : Nat) (data : Bytes) : TransferError :=
  if count ≤ data.length then .overlongVarint else .endOfData 1 0

variable {bytes front other rest rest' data : Bytes} {value value' count : Nat} {reader : Reader}

/-! ### What the data begins with -/

theorem Spells.length_pos (h : Spells bytes value) : 0 < bytes.length := by
  cases h with
  | last small => exact Nat.one_pos
  | more marked others => exact Nat.succ_pos _

theorem Spells.not_marked (h : Spells bytes value) : ¬ Marked bytes := by
  intro hmarked
  induction h with
  | last small => exact absurd (hmarked _ List.mem_cons_self) (Nat.not_le.mpr small)
  | more marked others ih => exact ih fun byte hbyte => hmarked byte (List.mem_cons_of_mem _ hbyte)

/-- Either a spelling of at most `count` bytes comes first, or as many bytes as are there all announce another one. -/
theorem spells_or_marked (count : Nat) (data : Bytes) :
    (∃ front rest value, data = front ++ rest ∧ front.length ≤ count ∧ Spells front value) ∨
      Marked (data.take count) := by
  induction count generalizing data with
  | zero => exact .inr (List.forall_mem_nil _)
  | succ count ih =>
    cases data with
    | nil => exact .inr (List.forall_mem_nil _)
    | cons byte data =>
      by_cases hbyte : byte.toNat < 128
      · exact .inl ⟨[byte], data, _, rfl, Nat.succ_le_succ (Nat.zero_le _), .last hbyte⟩
      · rcases ih data with ⟨front, rest, value, rfl, hlength, hspells⟩ | hmarked
        · exact .inl ⟨byte :: front, rest, _, rfl, Nat.succ_le_succ hlength,
            .more (Nat.not_lt.mp hbyte) hspells⟩
        · refine .inr ?_
          rw [List.take_succ_cons]
          exact List.forall_mem_cons.mpr ⟨Nat.not_lt.mp hbyte, hmarked⟩

/-- No spelling goes on into another one. -/
theorem Spells.unique (h : Spells front value) (h' : Spells other value')
    (heq : front ++ rest = other ++ rest') : front = other ∧ value = value' := by
  induction h generalizing other value' with
  | last small =>
    cases h' with
    | last small' =>
      obtain ⟨rfl, _⟩ := List.cons.inj heq
      exact ⟨rfl, rfl⟩
    | more marked' others' =>
      obtain ⟨rfl, _⟩ := List.cons.inj heq
      omega
  | more marked others ih =>
    cases h' with
    | last small' =>
      obtain ⟨rfl, _⟩ := List.cons.inj heq
      omega
    | more marked' others' =>
      obtain ⟨rfl, htail⟩ := List.cons.inj heq
      obtain ⟨rfl, rfl⟩ := ih others' htail
      exact ⟨rfl, rfl⟩

/-! ### Reading what is no spelling -/

/-- The groups are read until one is missing or one too many was announced. -/
theorem readGroups_of_marked (h : reader.Holds data) (hmarked : Marked (data.take count)) :
    ∃ after, readGroups count reader = .error (failure count data) after ∧
      reader.Advanced (min count data.length) after := by
  induction count generalizing data reader with
  | zero => exact ⟨reader, rfl, by simpa using Reader.Advanced.refl reader⟩
  | succ count ih =>
    cases data with
    | nil =>
      obtain ⟨after, hread, hadvanced⟩ := h.read_beyond Nat.one_pos
      refine ⟨after, ?_, hadvanced⟩
      simp only [readGroups, Reader.readByte, bind, EStateM.bind, hread]
      rfl
    | cons byte data =>
      rw [List.take_succ_cons] at hmarked
      obtain ⟨hbyte, hothers⟩ := List.forall_mem_cons.mp hmarked
      have hholds : reader.Holds ([byte] ++ data) := h
      obtain ⟨middle, hread, hmiddle⟩ :=
        Read.yields_readByte byte reader hholds.offers.of_append_left
      obtain ⟨after, hgroups, hafter⟩ := ih (hholds.advance hmiddle) hothers
      refine ⟨after, ?_, ?_⟩
      · simp only [readGroups, bind, EStateM.bind, hread, if_neg (Nat.not_lt.mpr hbyte), hgroups,
          failure, List.length_cons, Nat.add_le_add_iff_right]
      · have hcount : min (count + 1) (byte :: data).length = 1 + min count data.length := by
          rw [List.length_cons]
          omega
        rw [hcount]
        exact hmiddle.trans hafter

/-! ### Numbers of 32 bits -/

/-- The bytes spell the number modulo 2^32, and there are not too many of them to be read. -/
def Writes (bytes : Bytes) (value : UInt32) : Prop :=
  bytes.length ≤ maxSize ∧ ∃ number, Spells bytes number ∧ UInt32.ofNat number = value

section

variable {value value' : UInt32}

theorem Writes.length_pos (h : Writes bytes value) : 0 < bytes.length := by
  obtain ⟨_, number, hspells, _⟩ := h
  exact hspells.length_pos

theorem writes_encode (value : UInt32) : Writes (encode value) value :=
  ⟨length_encode_le value, value.toNat, spells_encode value, UInt32.ofNat_toNat⟩

theorem writes_or_marked (data : Bytes) :
    (∃ front rest value, data = front ++ rest ∧ Writes front value) ∨
      Marked (data.take maxSize) := by
  refine (spells_or_marked maxSize data).imp ?_ id
  rintro ⟨front, rest, number, hdata, hlength, hspells⟩
  exact ⟨front, rest, _, hdata, hlength, number, hspells, rfl⟩

theorem Writes.unique (h : Writes front value) (h' : Writes other value')
    (heq : front ++ rest = other ++ rest') : front = other ∧ value = value' := by
  obtain ⟨_, number, hspells, rfl⟩ := h
  obtain ⟨_, number', hspells', rfl⟩ := h'
  obtain ⟨rfl, rfl⟩ := hspells.unique hspells' heq
  exact ⟨rfl, rfl⟩

theorem Writes.not_marked (h : Writes front value) (hfront : front <+: data) :
    ¬ Marked (data.take maxSize) := by
  intro hmarked
  obtain ⟨hlength, number, hspells, _⟩ := h
  have htake : front <+: data.take maxSize := List.prefix_take_iff.mpr ⟨hfront, hlength⟩
  exact hspells.not_marked fun byte hbyte => hmarked byte (htake.subset hbyte)

theorem Writes.yields_read (h : Writes bytes value) : Read.Yields read bytes value := by
  obtain ⟨hlength, number, hspells, rfl⟩ := h
  exact (hspells.yields_readGroups hlength).map

theorem Writes.yields_readLength (h : Writes bytes value) :
    Read.Yields readLength bytes value.toNat := h.yields_read.map

theorem read_of_marked (h : reader.Holds data) (hmarked : Marked (data.take maxSize)) :
    ∃ after, read reader = .error (failure maxSize data) after ∧
      reader.Advanced (min maxSize data.length) after := by
  obtain ⟨after, hgroups, hadvanced⟩ := readGroups_of_marked h hmarked
  exact ⟨after, by simp only [read, bind, EStateM.bind, hgroups], hadvanced⟩

theorem readLength_of_marked (h : reader.Holds data) (hmarked : Marked (data.take maxSize)) :
    ∃ after, readLength reader = .error (failure maxSize data) after ∧
      reader.Advanced (min maxSize data.length) after := by
  obtain ⟨after, hread, hadvanced⟩ := read_of_marked h hmarked
  exact ⟨after, by simp only [readLength, bind, EStateM.bind, hread], hadvanced⟩

end

end Varint

/-! ### Four bytes -/

theorem Fixed32.encode_decode : {bytes : Bytes} → bytes.length = size →
    encode (decode bytes) = bytes
  | [first, second, third, fourth], _ => by
    have hfirst := first.toNat_lt
    have hsecond := second.toNat_lt
    have hthird := third.toNat_lt
    have hfourth := fourth.toNat_lt
    simp only [encode, decode, List.foldr_cons, List.foldr_nil, UInt32.toNat_ofNat',
      List.cons.injEq, ← UInt8.toNat_inj, UInt8.toNat_ofNat', and_true]
    omega

theorem Single.encode_injective {x y : Single} (h : x.encode = y.encode) : x = y := by
  have hbits : Fixed32.decode x.encode = Fixed32.decode y.encode := congrArg Fixed32.decode h
  rw [encode, encode, Fixed32.decode_encode, Fixed32.decode_encode] at hbits
  exact congrArg Single.mk hbits

end EngineConsole
