import EngineConsole.Bytes.Sink

/-!
# What a sink takes

Sinks differ in what they keep and in which chunks they refuse, but all of them know how many bytes they took. A sink that took every chunk took all bytes, each of them once. And a sink refuses for a reason only: one with room for all chunks, whose callback refuses nothing, takes them all.
-/

namespace EngineConsole.Sink

/-- The number of bytes taken so far, or the position in the buffer that the sink fills. -/
def total : Sink → Nat
  | .collecting chunks => chunks.flatten.length
  | .checked _ position => position
  | .trusting _ position => position
  | .counting total => total
  | .callback _ _ taken => taken.flatten.length

theorem total_of_write {chunk : Bytes} {sink after : Sink} (h : write chunk sink = .ok () after) :
    after.total = sink.total + chunk.length := by
  cases sink with
  | collecting chunks =>
    obtain rfl : .collecting (chunk :: chunks) = after := by simpa [write] using h
    rw [total, total, List.flatten_cons, List.length_append, Nat.add_comm]
  | checked buffer position =>
    simp only [write] at h
    split at h
    · cases h
    · cases h
      rfl
  | trusting buffer position =>
    simp only [write] at h
    split at h
    · cases h
    · cases h
      rfl
  | counting count =>
    obtain rfl : .counting (count + chunk.length) = after := by simpa [write] using h
    rfl
  | callback refuses calls taken =>
    simp only [write] at h
    split at h
    · cases h
    · cases h
      rw [total, total, List.flatten_cons, List.length_append, Nat.add_comm]

theorem total_of_writeAll {chunks : List Bytes} {sink after : Sink}
    (h : writeAll chunks sink = .ok () after) :
    after.total = sink.total + chunks.flatten.length := by
  induction chunks generalizing sink with
  | nil =>
    cases h
    rfl
  | cons chunk chunks ih =>
    simp only [writeAll, bind, EStateM.bind] at h
    cases hwrite : write chunk sink with
    | error failure middle =>
      rw [hwrite] at h
      cases h
    | ok _ middle =>
      rw [hwrite] at h
      rw [ih h, total_of_write hwrite, List.flatten_cons, List.length_append, Nat.add_assoc]

/-! ### Sinks that refuse nothing -/

/-- The sink takes any chunks of `count` bytes in total: it has room for them, and its callback refuses nothing. -/
def Accepts (count : Nat) : Sink → Prop
  | .collecting _ => True
  | .checked buffer position => position + count ≤ buffer.length
  | .trusting buffer position => position + count ≤ buffer.length
  | .counting _ => True
  | .callback refuses _ _ => ∀ call, refuses call = false

theorem length_overwrite {buffer chunk : Bytes} {position : Nat}
    (h : position + chunk.length ≤ buffer.length) :
    (buffer.overwrite position chunk).length = buffer.length := by
  simp only [Bytes.overwrite, List.length_append, List.length_take, List.length_drop]
  omega

theorem write_of_accepts {chunk : Bytes} {count : Nat} {sink : Sink}
    (h : sink.Accepts (chunk.length + count)) :
    ∃ after, write chunk sink = .ok () after ∧ after.Accepts count := by
  cases sink with
  | collecting chunks => exact ⟨_, rfl, trivial⟩
  | counting total => exact ⟨_, rfl, trivial⟩
  | checked buffer position =>
    have hroom : position + (chunk.length + count) ≤ buffer.length := h
    have hlength := length_overwrite (show position + chunk.length ≤ buffer.length by omega)
    refine ⟨.checked (buffer.overwrite position chunk) (position + chunk.length), ?_, ?_⟩
    · rw [write, if_neg (show ¬ buffer.length - position < chunk.length by omega)]
    · show position + chunk.length + count ≤ (buffer.overwrite position chunk).length
      omega
  | trusting buffer position =>
    have hroom : position + (chunk.length + count) ≤ buffer.length := h
    have hlength := length_overwrite (show position + chunk.length ≤ buffer.length by omega)
    refine ⟨.trusting (buffer.overwrite position chunk) (position + chunk.length), ?_, ?_⟩
    · rw [write, if_neg (show ¬ buffer.length < position + chunk.length by omega)]
    · show position + chunk.length + count ≤ (buffer.overwrite position chunk).length
      omega
  | callback refuses calls taken =>
    have hnone : ∀ call, refuses call = false := h
    refine ⟨.callback refuses (calls + 1) (chunk :: taken), ?_, hnone⟩
    rw [write, hnone calls, if_neg Bool.false_ne_true]

theorem writeAll_of_accepts {chunks : List Bytes} {sink : Sink}
    (h : sink.Accepts chunks.flatten.length) : ∃ after, writeAll chunks sink = .ok () after := by
  induction chunks generalizing sink with
  | nil => exact ⟨sink, rfl⟩
  | cons chunk chunks ih =>
    rw [List.flatten_cons, List.length_append] at h
    obtain ⟨middle, hwrite, hmiddle⟩ := write_of_accepts h
    obtain ⟨after, hwriteAll⟩ := ih hmiddle
    refine ⟨after, ?_⟩
    simp only [writeAll, bind, EStateM.bind, hwrite, hwriteAll]

end EngineConsole.Sink
