import EngineConsole.Number.Single
import EngineConsole.Number.Varint
import EngineConsole.Proofs.Bytes.Delivery

/-!
# Numbers on the line

Each number takes as many bytes as its size says, and reading takes these bytes and no others and gives the number back. A varint is read back from any spelling that is not too long, of which the encoding is one.
-/

namespace EngineConsole

/-! ### Varints -/

namespace Varint

theorem length_groups (value : Nat) : (groups 4 value).length = size value := by
  simp only [groups, size]
  repeat' split
  all_goals simp only [List.length_cons, List.length_nil]
  all_goals omega

theorem length_encode (value : UInt32) : (encode value).length = size value.toNat :=
  length_groups value.toNat

theorem size_mono {small large : Nat} (h : small ≤ large) : size small ≤ size large := by
  simp only [size]
  repeat' split
  all_goals omega

theorem size_pos (value : Nat) : 0 < size value := by
  simp only [size]
  repeat' split
  all_goals omega

theorem size_le_maxSize (value : Nat) : size value ≤ maxSize := by
  simp only [size, maxSize]
  repeat' split
  all_goals omega

theorem length_encode_le (value : UInt32) : (encode value).length ≤ maxSize :=
  Nat.le_trans (Nat.le_of_eq (length_encode value)) (size_le_maxSize value.toNat)

theorem encode_ne_nil (value : UInt32) : encode value ≠ [] := by
  intro h
  have hlength := length_encode value
  simp only [h, List.length_nil, size] at hlength
  repeat' split at hlength
  all_goals omega

private theorem toNat_group {value : Nat} (h : value < 256) : (UInt8.ofNat value).toNat = value := by
  rw [UInt8.toNat_ofNat', Nat.mod_eq_of_lt h]

/-- The bytes write the number in groups of seven bits, the low group first: every byte but the last has its top bit set. -/
inductive Spells : Bytes → Nat → Prop where
  | last {byte : UInt8} (small : byte.toNat < 128) : Spells [byte] byte.toNat
  | more {byte : UInt8} {bytes : Bytes} {high : Nat} (marked : 128 ≤ byte.toNat)
      (others : Spells bytes high) : Spells (byte :: bytes) (byte.toNat - 128 + 128 * high)

private theorem spells_group {value : Nat} (h : value < 128) : Spells [UInt8.ofNat value] value := by
  have hbyte := toNat_group (show value < 256 by omega)
  have hspells : Spells [UInt8.ofNat value] (UInt8.ofNat value).toNat := .last (by omega)
  rwa [hbyte] at hspells

theorem spells_groups (more value : Nat) (h : value < 1 <<< (7 * (more + 1))) :
    Spells (groups more value) value := by
  induction more generalizing value with
  | zero => exact spells_group h
  | succ more ih =>
    rw [groups]
    split
    · rename_i hlast
      exact spells_group hlast
    · have hhigh : value / 128 < 1 <<< (7 * (more + 1)) := by
        rw [Nat.one_shiftLeft] at h ⊢
        rw [Nat.div_lt_iff_lt_mul (by decide)]
        calc value < 2 ^ (7 * (more + 1 + 1)) := h
          _ = 2 ^ (7 * (more + 1)) * 128 := Nat.pow_add 2 (7 * (more + 1)) 7
      have hbyte := toNat_group (show value % 128 + 128 < 256 by omega)
      have hspells : Spells (UInt8.ofNat (value % 128 + 128) :: groups more (value / 128))
          ((UInt8.ofNat (value % 128 + 128)).toNat - 128 + 128 * (value / 128)) :=
        .more (by omega) (ih (value / 128) hhigh)
      rwa [hbyte, Nat.add_sub_cancel, Nat.mod_add_div] at hspells

theorem spells_encode (value : UInt32) : Spells (encode value) value.toNat :=
  spells_groups 4 value.toNat (Nat.lt_trans value.toNat_lt (by decide))

/-- Any spelling is read, as long as it has no more groups than are read. -/
theorem Spells.yields_readGroups {bytes : Bytes} {value count : Nat} (h : Spells bytes value)
    (hlength : bytes.length ≤ count) :
    Read.Yields (readGroups count) bytes value := by
  induction h generalizing count with
  | @last byte small =>
    obtain ⟨count, rfl⟩ := Nat.exists_eq_add_one.mpr hlength
    show Read.Yields (readGroups (count + 1)) ([byte] ++ []) byte.toNat
    refine (Read.yields_readByte byte).bind ?_
    rw [if_pos small]
    exact Read.yields_pure byte.toNat
  | @more byte bytes high marked others ih =>
    obtain ⟨count, rfl⟩ := Nat.exists_eq_add_one.mpr (Nat.lt_of_lt_of_le (Nat.succ_pos _) hlength)
    show Read.Yields (readGroups (count + 1)) ([byte] ++ bytes) _
    refine (Read.yields_readByte byte).bind ?_
    rw [if_neg (Nat.not_lt.mpr marked)]
    exact (ih (Nat.le_of_succ_le_succ hlength)).map

theorem yields_read (value : UInt32) : Read.Yields read (encode value) value := by
  have hread := ((spells_encode value).yields_readGroups (length_encode_le value)).map
    (f := UInt32.ofNat)
  rwa [UInt32.ofNat_toNat] at hread

theorem yields_readFlag (flag : Bool) :
    Read.Yields readFlag (encode (if flag then 1 else 0)) flag := by
  have hread := (yields_read (if flag then 1 else 0)).map (f := fun value => value != 0)
  cases flag <;> exact hread

/-- A length is read back modulo 2^32. -/
theorem yields_readLength_mod (length : Nat) :
    Read.Yields readLength (encode (UInt32.ofNat length)) (length % 0x100000000) :=
  (yields_read (UInt32.ofNat length)).map (f := UInt32.toNat)

theorem yields_readLength {length : Nat} (h : length < 0x100000000) :
    Read.Yields readLength (encode (UInt32.ofNat length)) length := by
  have hread := yields_readLength_mod length
  rwa [Nat.mod_eq_of_lt h] at hread

theorem readGroups_advances (groups : Nat) : Read.Advances (readGroups groups) := by
  induction groups with
  | zero => exact Read.advances_throw _
  | succ groups ih =>
    refine Reader.readByte_advances.bind fun byte => ?_
    split
    · exact Read.advances_pure _
    · exact ih.bind fun high => Read.advances_pure _

theorem readGroups_consumes (groups : Nat) : Read.Consumes (readGroups groups) := by
  cases groups with
  | zero =>
    intro reader after value hread
    cases hread
  | succ groups =>
    refine Reader.readByte_consumes.bind fun byte => ?_
    split
    · exact Read.advances_pure _
    · exact (readGroups_advances groups).bind fun high => Read.advances_pure _

theorem read_consumes : Read.Consumes read :=
  (readGroups_consumes maxSize).bind fun _ => Read.advances_pure _

theorem read_advances : Read.Advances read :=
  (readGroups_advances maxSize).bind fun _ => Read.advances_pure _

theorem readFlag_advances : Read.Advances readFlag :=
  read_advances.bind fun _ => Read.advances_pure _

theorem readLength_consumes : Read.Consumes readLength :=
  read_consumes.bind fun _ => Read.advances_pure _

theorem readLength_advances : Read.Advances readLength :=
  read_advances.bind fun _ => Read.advances_pure _

end Varint

/-! ### Four bytes -/

namespace Fixed32

theorem length_encode (value : UInt32) : (encode value).length = size := rfl

theorem decode_encode (value : UInt32) : decode (encode value) = value := by
  have hlt := value.toNat_lt
  apply UInt32.toNat_inj.mp
  simp only [decode, encode, List.foldr_cons, List.foldr_nil, UInt8.toNat_ofNat',
    UInt32.toNat_ofNat']
  omega

theorem yields_read (value : UInt32) : Read.Yields read (encode value) value := by
  have hread := (Read.yields_read (encode value)).map (f := decode)
  rwa [decode_encode] at hread

theorem read_advances : Read.Advances read :=
  (Reader.read_advances size).bind fun _ => Read.advances_pure _

end Fixed32

namespace Single

theorem length_encode (x : Single) : x.encode.length = Fixed32.size := rfl

theorem yields_read (x : Single) : Read.Yields read x.encode x :=
  (Fixed32.yields_read x.bits).map (f := Single.mk)

theorem advanced_of_read {reader after : Reader} {value : Single} (h : read reader = .ok value after) :
    reader.Advanced Fixed32.size after := by
  simp only [read, Fixed32.read, bind, EStateM.bind] at h
  cases hread : Reader.read Fixed32.size reader with
  | error error middle =>
    rw [hread] at h
    cases h
  | ok bytes middle =>
    rw [hread] at h
    cases h
    exact (Reader.advanced_of_read hread).2

theorem read_advances : Read.Advances read :=
  Fixed32.read_advances.bind fun _ => Read.advances_pure _

end Single

end EngineConsole
