import EngineConsole.Proofs.Bytes.Filling
import EngineConsole.Proofs.Number.Spelling
import Mathlib.Algebra.BigOperators.Fin

/-!
# Numbers in groups of seven bits

A varint is worth the sum of its groups, each shifted to its place. Writing stores the groups at the front of a destination that is long enough for all of them, and nothing is stored behind them. Reading adds up the groups that are there: up to the first byte that announces no other one, or it fails where five bytes announce another one or the data ends before that. What is written is the shortest that is read back.
-/

namespace EngineConsole

theorem Bytes.store_eq (buffer : Bytes) (place : Nat) (byte : UInt8) :
    buffer.store place byte =
      if place + 1 ≤ buffer.length then .ok (buffer.overwrite place [byte]) else .error .overrun := by
  by_cases hplace : place < buffer.length
  · rw [store, if_pos hplace, if_pos (show place + 1 ≤ buffer.length from hplace),
      List.set_eq_take_append_cons_drop, if_pos hplace, overwrite, List.append_assoc]
    rfl
  · rw [store, if_neg hplace, if_neg (show ¬ place + 1 ≤ buffer.length from hplace)]

namespace Varint

variable {bytes data : Bytes} {value number : Nat}

/-! ### Storing the groups -/

/-- By induction on the groups: each of them is stored where there is a place left for it, and the others go behind it. -/
theorem storeFrom_eq (more : Nat) (h : value < 128 ^ (more + 1)) (place : Nat)
    (destination : Bytes) :
    storeFrom place value destination =
      if place + (groups more value).length ≤ destination.length then
        .ok (place + (groups more value).length, destination.overwrite place (groups more value))
      else .error .overrun := by
  induction more generalizing value place destination with
  | zero =>
    have hlast : value < 128 := h
    rw [storeFrom, if_pos hlast, Bytes.store_eq, groups, List.length_singleton]
    split
    · rfl
    · rfl
  | succ more ih =>
    by_cases hlast : value < 128
    · rw [storeFrom, if_pos hlast, Bytes.store_eq, groups, if_pos hlast, List.length_singleton]
      split
      · rfl
      · rfl
    · have hhigh : value / 128 < 128 ^ (more + 1) := by
        rw [Nat.div_lt_iff_lt_mul (by decide), ← Nat.pow_succ]
        exact h
      rw [storeFrom, if_neg hlast, Bytes.store_eq, groups, if_neg hlast, List.length_cons]
      by_cases hplace : place + 1 ≤ destination.length
      · have hchunk : place + [UInt8.ofNat (value % 128 + 128)].length ≤ destination.length := hplace
        have hlength := Sink.length_overwrite hchunk
        have hothers : (destination.overwrite place [UInt8.ofNat (value % 128 + 128)]).overwrite
            (place + 1) (groups more (value / 128)) = destination.overwrite place
              (UInt8.ofNat (value % 128 + 128) :: groups more (value / 128)) :=
          Bytes.overwrite_overwrite (groups more (value / 128)) hchunk
        have hplaces : place + 1 + (groups more (value / 128)).length =
            place + ((groups more (value / 128)).length + 1) := by omega
        rw [if_pos hplace]
        show storeFrom (place + 1) (value / 128) _ = _
        rw [ih hhigh, hlength, hothers, hplaces]
      · rw [if_neg hplace, if_neg (by omega)]
        rfl

theorem store_eq (value : UInt32) (destination : Bytes) :
    store value destination =
      if size value.toNat ≤ destination.length then
        .ok (size value.toNat, encode value ++ destination.drop (size value.toNat))
      else .error .overrun := by
  have hvalue : value.toNat < 128 ^ 5 := Nat.lt_trans value.toNat_lt (by decide)
  rw [store, storeFrom_eq 4 hvalue, Nat.zero_add, length_groups, Bytes.overwrite_zero,
    length_groups]
  rfl

/-! ### Adding up the groups -/

/-- The sum of the groups, that of the first byte first, each of them shifted by seven bits for every byte before it. -/
def total (bytes : Bytes) : Nat :=
  ∑ place : Fin bytes.length, (bytes[place].toNat % 128) <<< (7 * place.val)

theorem total_cons (byte : UInt8) (bytes : Bytes) :
    total (byte :: bytes) = byte.toNat % 128 + 128 * total bytes := by
  simp only [total, List.length_cons]
  rw [Fin.sum_univ_succ, Finset.mul_sum]
  congr 1
  refine Finset.sum_congr rfl fun place _ => ?_
  have hshift : 2 ^ (7 * (place.val + 1)) = 128 * 2 ^ (7 * place.val) := by
    rw [Nat.mul_succ, Nat.pow_add, Nat.mul_comm]
  show (bytes[place].toNat % 128) <<< (7 * (place.val + 1)) = _
  rw [Nat.shiftLeft_eq, Nat.shiftLeft_eq, hshift, Nat.mul_left_comm]

theorem Spells.eq_total (h : Spells bytes number) : number = total bytes := by
  induction h with
  | @last byte small =>
    rw [total_cons, Nat.mod_eq_of_lt small]
    simp [total]
  | @more byte bytes high marked others ih =>
    have hbyte := byte.toNat_lt
    rw [total_cons, ih]
    omega

/-- A number has no more groups of seven bits than bytes that spell it. -/
theorem Spells.lt_pow (h : Spells bytes number) : number < 128 ^ bytes.length := by
  induction h with
  | @last byte small => simpa using small
  | @more byte bytes high marked others ih =>
    have hbyte := byte.toNat_lt
    rw [List.length_cons, Nat.pow_succ]
    omega

/-! ### How a number is written and read -/

theorem size_le_of_lt_pow {count : Nat} (hcount : 0 < count) (h : value < 128 ^ count) :
    size value ≤ count := by
  have hfew := size_le_maxSize value
  rw [maxSize] at hfew
  by_cases hmany : 5 ≤ count
  · exact Nat.le_trans hfew hmany
  · have hcases : count = 1 ∨ count = 2 ∨ count = 3 ∨ count = 4 := by omega
    rcases hcases with rfl | rfl | rfl | rfl
    all_goals
      simp only [size]
      (repeat' split) <;> omega

theorem Writes.size_le {value : UInt32} (h : Writes bytes value) : size value.toNat ≤ bytes.length := by
  obtain ⟨_, number, hspells, rfl⟩ := h
  have hnumber : (UInt32.ofNat number).toNat ≤ number := by
    rw [UInt32.toNat_ofNat']
    exact Nat.mod_le _ _
  exact size_le_of_lt_pow hspells.length_pos (Nat.lt_of_le_of_lt hnumber hspells.lt_pow)

/-- How a number is written, and that it is read back. -/
structure Written (value : UInt32) : Prop where
  length : (encode value).length = size value.toNat
  /-- A destination that is long enough has the bytes at its front and is the same behind them; any other one is overrun. -/
  stored : ∀ destination : Bytes, store value destination =
    if size value.toNat ≤ destination.length then
      .ok (size value.toNat, encode value ++ destination.drop (size value.toNat))
    else .error .overrun
  /-- Whatever follows the bytes, reading takes these and no others. -/
  readBack : ∀ following : Bytes, ∃ after, read (.ofBytes (encode value ++ following)) = .ok value after ∧
    (Reader.ofBytes (encode value ++ following)).Advanced (size value.toNat) after
  /-- Nothing that is shorter is read as the number. -/
  shortest : ∀ (data : Bytes) (after : Reader), read (.ofBytes data) = .ok value after →
    size value.toNat ≤ data.length

/-- What comes of reading a number from data in memory. -/
inductive Decoded (data : Bytes) : EStateM.Result TransferError Reader UInt32 → Prop where
  /-- One of the first five bytes is the first that announces no other one. -/
  | number {front rest : Bytes} {last : UInt8} {after : Reader} (split : data = front ++ last :: rest)
      (short : front.length < 5) (marked : Marked front) (ends : last.toNat < 128)
      (consumed : (Reader.ofBytes data).Advanced (front.length + 1) after) :
      Decoded data (.ok (UInt32.ofNat (total (front ++ [last]))) after)
  /-- The first five bytes all announce another one. -/
  | overlong {after : Reader} (long : 5 ≤ data.length) (marked : Marked (data.take 5))
      (consumed : (Reader.ofBytes data).Advanced 5 after) : Decoded data (.error .overlongVarint after)
  /-- The data ends behind fewer than five bytes that all announce another one. -/
  | brokenOff {after : Reader} (short : data.length < 5) (marked : Marked data)
      (consumed : (Reader.ofBytes data).Advanced data.length after) :
      Decoded data (.error (.endOfData 1 0) after)

/-- A spelling is some bytes that announce another one and a last byte that does not. -/
theorem Spells.split (h : Spells bytes number) :
    ∃ front last, bytes = front ++ [last] ∧ Marked front ∧ last.toNat < 128 := by
  induction h with
  | @last byte small => exact ⟨[], byte, rfl, List.forall_mem_nil _, small⟩
  | @more byte bytes high marked others ih =>
    obtain ⟨front, last, rfl, hmarked, hlast⟩ := ih
    exact ⟨byte :: front, last, rfl, List.forall_mem_cons.mpr ⟨marked, hmarked⟩, hlast⟩

theorem decoded_read (data : Bytes) : Decoded data (read (.ofBytes data)) := by
  rcases writes_or_marked data with ⟨bytes, rest, value, rfl, hwrites⟩ | hmarked
  · obtain ⟨after, hread, hadvanced⟩ :=
      hwrites.yields_read _ (Reader.offers_ofBytes (bytes ++ rest)).of_append_left
    obtain ⟨hlength, number, hspells, rfl⟩ := hwrites
    obtain ⟨front, last, rfl, hfront, hlast⟩ := hspells.split
    rw [List.length_append, List.length_singleton] at hlength hadvanced
    have hsplit : front ++ [last] ++ rest = front ++ last :: rest := by simp
    rw [hread, hspells.eq_total]
    exact .number hsplit hlength hfront hlast hadvanced
  · obtain ⟨after, hread, hadvanced⟩ := read_of_marked (Reader.holds_ofBytes data) hmarked
    rw [hread]
    by_cases hlong : 5 ≤ data.length
    · rw [failure, if_pos (show maxSize ≤ data.length from hlong)]
      rw [maxSize, Nat.min_eq_left hlong] at hadvanced
      exact .overlong hlong hmarked hadvanced
    · rw [failure, if_neg (show ¬ maxSize ≤ data.length from hlong)]
      rw [maxSize, Nat.min_eq_right (by omega)] at hadvanced
      rw [maxSize, List.take_of_length_le (by omega)] at hmarked
      exact .brokenOff (by omega) hmarked hadvanced

theorem writes_of_read {value : UInt32} {after : Reader} (h : read (.ofBytes data) = .ok value after) :
    ∃ front rest, data = front ++ rest ∧ Writes front value := by
  rcases writes_or_marked data with ⟨front, rest, other, rfl, hwrites⟩ | hmarked
  · obtain ⟨after', hread, _⟩ :=
      hwrites.yields_read _ (Reader.offers_ofBytes (front ++ rest)).of_append_left
    rw [h] at hread
    cases hread
    exact ⟨front, rest, rfl, hwrites⟩
  · obtain ⟨after', hread, _⟩ := read_of_marked (Reader.holds_ofBytes data) hmarked
    rw [h] at hread
    cases hread

theorem written (value : UInt32) : Written value where
  length := length_encode value
  stored := store_eq value
  readBack := by
    intro following
    obtain ⟨after, hread, hadvanced⟩ :=
      yields_read value _ (Reader.offers_ofBytes (encode value ++ following)).of_append_left
    rw [length_encode] at hadvanced
    exact ⟨after, hread, hadvanced⟩
  shortest := by
    intro data after hread
    obtain ⟨front, rest, rfl, hwrites⟩ := writes_of_read hread
    have hsize := hwrites.size_le
    rw [List.length_append]
    omega

/-- Every number of 32 bits is written in as many bytes as it takes and read back, and from any data comes a number, or a failure, that the first five bytes determine. -/
theorem written_and_decoded :
    (∀ value : UInt32, Written value) ∧ ∀ data : Bytes, Decoded data (read (.ofBytes data)) :=
  ⟨written, decoded_read⟩

/-- Five bytes whose groups hold three bits more than a number: these are dropped. -/
example : ∃ after, read (.ofBytes [0xff, 0xff, 0xff, 0xff, 0x7f, 0x01]) = .ok 0xffffffff after ∧
    after.source.rest = [0x01] := ⟨_, rfl, rfl⟩

end Varint

end EngineConsole
