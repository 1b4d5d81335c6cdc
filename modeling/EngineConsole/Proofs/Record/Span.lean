import EngineConsole.Proofs.Bytes.Requests
import EngineConsole.Proofs.Bytes.View
import EngineConsole.Proofs.Record.Simulation

/-!
# Merging inside a span

Two facts of a single request hold of every merge. No request inside a span goes beyond its end, so a merge inside a span does not either. And requests cannot tell a span from a source that holds the bytes of the span alone, so what a merge makes of the span depends on these bytes only.
-/

namespace EngineConsole

theorem Reader.Simulation.confined (start : Source) (length : Nat) :
    Simulation (fun depth reader other => reader = other ∧ Confined start length depth reader)
      TransferError.Same :=
  .ofInvariant (fun _ _ count h => h.read count) (fun _ _ inner h => h.enter inner)
    (fun _ _ h => h.leave)

/-- Two readers that have the same bytes to deliver, inside the same spans. -/
def Reader.Window (depth : Nat) (reader other : Reader) : Prop :=
  ∃ inner data, inner.length = depth ∧ View inner data reader ∧ View inner data other

/-- The bytes and the spans determine the answers, so both readers get the same ones. -/
theorem Reader.Simulation.window : Simulation Window TransferError.Same where
  read := by
    rintro depth reader other ⟨inner, data, hdepth, hreader, hother⟩ count
    cases hinner : inner.find? (· < count) with
    | some left =>
      rw [hreader.read_of_short hinner, hother.read_of_short hinner]
      exact .error rfl ⟨inner, data, hdepth, hreader, hother⟩
    | none =>
      rcases Nat.lt_or_ge data.length count with hcount | hcount
      · obtain ⟨after, hread, hafter⟩ := hreader.read_beyond hinner hcount
        obtain ⟨after', hread', hafter'⟩ := hother.read_beyond hinner hcount
        rw [hread, hread']
        exact .error rfl ⟨inner, data, hdepth, hafter, hafter'⟩
      · have hroom : ∀ left ∈ inner, count ≤ left := fun left hleft => by
          simpa using List.find?_eq_none.mp hinner left hleft
        obtain ⟨after, hread, hafter⟩ := hreader.read_served count hroom hcount
        obtain ⟨after', hread', hafter'⟩ := hother.read_served count hroom hcount
        rw [hread, hread']
        exact .ok ⟨_, _, by rw [List.length_map, hdepth], hafter, hafter'⟩
  enter := by
    rintro depth length _ _ reader other - - - ⟨inner, data, hdepth, hreader, hother⟩
    exact ⟨length :: inner, data, congrArg (· + 1) hdepth, hreader.enter length, hother.enter length⟩
  leave := by
    rintro depth reader other ⟨_ | ⟨left, inner⟩, data, hdepth, hreader, hother⟩
    · cases hdepth
    · exact ⟨inner, data, Nat.succ.inj hdepth, hreader.leave, hother.leave⟩
  spanLeft := by
    rintro depth reader other ⟨_ | ⟨left, inner⟩, data, hdepth, hreader, hother⟩
    · cases hdepth
    · obtain ⟨outer, hspans, _⟩ := hreader
      obtain ⟨outer', hspans', _⟩ := hother
      rw [Reader.spanLeft, Reader.spanLeft, hspans, hspans']
      rfl
  overlong _ := rfl

namespace Delimited

variable {α : Type} {merge : α → Reader → Merged α} {value : α} {reader : Reader}

/-- Inside a span nothing beyond its end is requested, not even in vain. -/
theorem confined_mergeSpan {length : Nat}
    (h : Merged.Follows (fun depth inside other =>
      inside = other ∧ Reader.Confined reader.source length depth inside) TransferError.Same
      (merge value)) :
    ∃ counts, (mergeSpan merge length value reader).reader.source = reader.source.askAll counts ∧
      reader.source.StaysWithin length counts := by
  have simulation := Reader.Simulation.confined reader.source length
  have hmerge := h ⟨rfl, reader.confined_enter length⟩
  have hspan := hmerge.andThen (simulation.alike_skipRest _ hmerge.reader rfl)
  exact hspan.reader.2.asked

/-- A merge in the span around certain bytes comes to what it comes to where there are no others. -/
theorem alike_mergeSpan_ofBytes {data : Bytes}
    (h : Merged.Follows Reader.Window TransferError.Same (merge value))
    (hoffers : reader.Offers data) :
    Merged.Alike (fun _ _ => True) TransferError.Same (mergeSpan merge data.length value reader)
      (merge value (.ofBytes data)) := by
  have hmerge := h ⟨[], data, rfl, hoffers.view, Reader.view_ofBytes data⟩
  obtain ⟨inner, rest, hinner, hreader, hother⟩ := hmerge.reader
  obtain rfl := List.eq_nil_of_length_eq_zero hinner
  -- what the merge leaves of the span is still there, so it can be skipped
  obtain ⟨after, hskip⟩ := hreader.skipSpan
  have hrest : skipRest (merge value (reader.enter data.length)).value
      (merge value (reader.enter data.length)).reader =
        { value := (merge value (reader.enter data.length)).value, reader := after } := by
    rw [skipRest, Fetched.ofRead, hskip, Fetched.assign]
  have herror := hmerge.error
  rw [mergeSpan, Merged.andThen]
  split
  · exact ⟨hmerge.value, trivial, hmerge.notices, herror⟩
  · rename_i hnone
    rw [hnone] at herror
    simp only [hrest, Merged.leaveSpan, List.append_nil]
    exact ⟨hmerge.value, trivial, hmerge.notices, herror⟩

end Delimited

end EngineConsole
