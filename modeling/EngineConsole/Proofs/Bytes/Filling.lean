import EngineConsole.Proofs.Bytes.Uptake

/-!
# Filling a buffer

A buffer is filled from the front, one chunk behind the other, and a chunk goes in whole or not at all. If all chunks fit, they stand there as if they had been written at once; otherwise those up to the first that does not fit do. The bytes behind them are the ones that were there before. It makes no difference whether the sink checks for room or relies on it, except for what it fails with.
-/

namespace EngineConsole

/-! ### Writing into a buffer -/

namespace Bytes

variable {buffer : Bytes} {position : Nat}

theorem overwrite_nil (buffer : Bytes) (position : Nat) : buffer.overwrite position [] = buffer := by
  rw [overwrite, List.append_nil, List.length_nil, Nat.add_zero, List.take_append_drop]

theorem overwrite_zero (buffer chunk : Bytes) :
    buffer.overwrite 0 chunk = chunk ++ buffer.drop chunk.length := by
  rw [overwrite, List.take_zero, List.nil_append, Nat.zero_add]

theorem overwrite_overwrite {first : Bytes} (second : Bytes)
    (h : position + first.length ≤ buffer.length) :
    (buffer.overwrite position first).overwrite (position + first.length) second =
      buffer.overwrite position (first ++ second) := by
  have hfront : (buffer.take position ++ first).length = position + first.length := by
    rw [List.length_append, List.length_take_of_le (by omega)]
  have htake : (buffer.overwrite position first).take (position + first.length) =
      buffer.take position ++ first := by
    rw [overwrite, ← hfront, List.take_left]
  have hdrop : (buffer.overwrite position first).drop (position + first.length + second.length) =
      buffer.drop (position + (first ++ second).length) := by
    rw [overwrite, ← List.drop_drop, ← hfront, List.drop_left, List.drop_drop, hfront,
      List.length_append, Nat.add_assoc]
  rw [overwrite, htake, hdrop, overwrite, List.append_assoc (buffer.take position)]

end Bytes

namespace Sink

/-! ### The chunks that fit -/

/-- Of all the prefixes of `chunks` that take no more than `room` bytes, `kept` is the longest. -/
structure LongestFitting (room : Nat) (chunks kept : List Bytes) : Prop where
  isPrefix : kept <+: chunks
  fits : kept.flatten.length ≤ room
  longest : ∀ other, other <+: chunks → other.flatten.length ≤ room → other <+: kept

/-- Chunks that do not fit as a whole fit up to the first that goes beyond the room. -/
theorem exists_first_unfit {room : Nat} {chunks : List Bytes} (h : room < chunks.flatten.length) :
    ∃ kept next later, chunks = kept ++ next :: later ∧ kept.flatten.length ≤ room ∧
      room < kept.flatten.length + next.length := by
  induction chunks generalizing room with
  | nil => exact absurd h (Nat.not_lt_zero room)
  | cons chunk chunks ih =>
    rw [List.flatten_cons, List.length_append] at h
    rcases Nat.lt_or_ge room chunk.length with hfirst | hfirst
    · refine ⟨[], chunk, chunks, rfl, Nat.zero_le room, ?_⟩
      rwa [List.flatten_nil, List.length_nil, Nat.zero_add]
    · have hothers : room - chunk.length < chunks.flatten.length := by omega
      obtain ⟨kept, next, later, rfl, hkept, hnext⟩ := ih hothers
      refine ⟨chunk :: kept, next, later, rfl, ?_, ?_⟩
      · rw [List.flatten_cons, List.length_append]
        omega
      · rw [List.flatten_cons, List.length_append]
        omega

theorem longestFitting_of_unfit {room : Nat} {kept later : List Bytes} {next : Bytes}
    (hkept : kept.flatten.length ≤ room) (hnext : room < kept.flatten.length + next.length) :
    LongestFitting room (kept ++ next :: later) kept where
  isPrefix := List.prefix_append kept (next :: later)
  fits := hkept
  longest := fun other hother hfits => by
    refine List.prefix_of_prefix_length_le hother (List.prefix_append kept (next :: later))
      (Nat.le_of_not_lt fun hlonger => ?_)
    -- a longer prefix would hold the chunk that goes beyond the room
    have hnext' : kept ++ [next] <+: other := by
      refine List.prefix_of_prefix_length_le ?_ hother ?_
      · exact ⟨later, by rw [List.append_assoc, List.singleton_append]⟩
      · rw [List.length_append, List.length_singleton]
        omega
    obtain ⟨rest, rfl⟩ := hnext'
    simp only [List.flatten_append, List.length_append, List.flatten_cons, List.flatten_nil,
      List.append_nil] at hfits
    omega

/-! ### Sinks that fill a buffer -/

/-- What the two kinds of sink that fill a buffer have in common. They differ in the failure with which a chunk is refused. -/
structure Fills (make : Bytes → Nat → Sink) (failure : Nat → Nat → WriteFailure) : Prop where
  taken : ∀ {buffer chunk : Bytes} {position : Nat}, position + chunk.length ≤ buffer.length →
    write chunk (make buffer position) =
      .ok () (make (buffer.overwrite position chunk) (position + chunk.length))
  refused : ∀ {buffer chunk : Bytes} {position : Nat}, position ≤ buffer.length →
    buffer.length < position + chunk.length →
    write chunk (make buffer position) =
      .error (failure chunk.length (buffer.length - position)) (make buffer position)

theorem fills_checked :
    Fills .checked fun needed available => .refused (.bufferFull needed available) where
  taken := fun h => by rw [write, if_neg (by omega)]
  refused := fun _ h => by rw [write, if_pos (by omega)]

theorem fills_trusting : Fills .trusting fun _ _ => .overrun where
  taken := fun h => by rw [write, if_neg (by omega)]
  refused := fun _ h => by rw [write, if_pos h]

variable {make : Bytes → Nat → Sink} {failure : Nat → Nat → WriteFailure} {buffer : Bytes}
  {position : Nat}

theorem Fills.writeAll_of_fits (hfills : Fills make failure) {chunks : List Bytes}
    (h : position + chunks.flatten.length ≤ buffer.length) :
    writeAll chunks (make buffer position) =
      .ok () (make (buffer.overwrite position chunks.flatten) (position + chunks.flatten.length)) := by
  induction chunks generalizing buffer position with
  | nil =>
    rw [List.flatten_nil, Bytes.overwrite_nil, List.length_nil, Nat.add_zero]
    rfl
  | cons chunk chunks ih =>
    rw [List.flatten_cons, List.length_append] at h
    have hchunk : position + chunk.length ≤ buffer.length := by omega
    have hroom : position + chunk.length + chunks.flatten.length ≤
        (buffer.overwrite position chunk).length := by
      rw [length_overwrite hchunk]
      omega
    have hothers := ih hroom
    rw [Bytes.overwrite_overwrite _ hchunk, Nat.add_assoc, ← List.length_append] at hothers
    rw [List.flatten_cons, ← hothers]
    simp only [writeAll, bind, EStateM.bind, hfills.taken hchunk]

/-- The first chunk that does not fit is refused, and those before it have been taken. -/
theorem Fills.writeAll_of_unfit (hfills : Fills make failure) {kept : List Bytes} {next : Bytes}
    (later : List Bytes) (hkept : position + kept.flatten.length ≤ buffer.length)
    (hnext : buffer.length < position + kept.flatten.length + next.length) :
    writeAll (kept ++ next :: later) (make buffer position) =
      .error (failure next.length (buffer.length - (position + kept.flatten.length)))
        (make (buffer.overwrite position kept.flatten) (position + kept.flatten.length)) := by
  induction kept generalizing buffer position with
  | nil =>
    rw [List.flatten_nil, List.length_nil, Nat.add_zero] at hkept hnext
    rw [List.flatten_nil, Bytes.overwrite_nil, List.length_nil, Nat.add_zero, List.nil_append]
    simp only [writeAll, bind, EStateM.bind, hfills.refused hkept hnext]
  | cons chunk kept ih =>
    rw [List.flatten_cons, List.length_append] at hkept hnext
    have hchunk : position + chunk.length ≤ buffer.length := by omega
    have hlength := length_overwrite hchunk
    have hkept' : position + chunk.length + kept.flatten.length ≤
        (buffer.overwrite position chunk).length := by omega
    have hnext' : (buffer.overwrite position chunk).length <
        position + chunk.length + kept.flatten.length + next.length := by omega
    have hothers := ih hkept' hnext'
    rw [Bytes.overwrite_overwrite _ hchunk, hlength, Nat.add_assoc, ← List.length_append] at hothers
    rw [List.flatten_cons, ← hothers, List.cons_append]
    simp only [writeAll, bind, EStateM.bind, hfills.taken hchunk]

end Sink

end EngineConsole
