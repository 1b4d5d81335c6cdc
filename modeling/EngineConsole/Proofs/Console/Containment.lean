import EngineConsole.Proofs.Console.RoundTrip
import EngineConsole.Proofs.Message.Containment
import Mathlib.Data.List.Forall2

/-!
# Arbitrary bytes on the console link

The line is not trusted. Bytes of any origin are merged into a message, more bytes after them, and so on, and a failure in between does not stop that: the next merge starts from what the failed one left behind. The message stays within capacity all the time, so the buffers that were sized for its type still hold it.
-/

namespace EngineConsole

namespace Format

variable {μ : Type}

/-- Merges one input after the other, each from a reader of its own, and goes on after a failure with the value that the failed merge left behind. -/
def mergeEach (format : Format μ) : μ → List Bytes → List (Merged μ)
  | _, [] => []
  | message, data :: inputs =>
    format.merge message (.ofBytes data) ::
      format.mergeEach (format.merge message (.ofBytes data)).value inputs

/-- What is left of a merge of `data` is within bounds: every list and every text of the value, its size, and the reader, which stands inside the data with no span open. -/
structure Contained (format : Format μ) (data : Bytes) (merged : Merged μ) : Prop where
  within : format.within merged.value = true
  size : format.size merged.value ≤ format.maxSize
  position : merged.reader.source.position ≤ data.length
  rest : merged.reader.source.rest = data.drop merged.reader.source.position
  spans : merged.reader.spans = []

variable {format : Format μ}

theorem contained_merge (hformed : format.wellFormed = true) {message : μ}
    (hwithin : format.within message = true) (data : Bytes) :
    format.Contained data (format.merge message (.ofBytes data)) := by
  obtain ⟨count, hadvanced⟩ := format.moves_merge message (.ofBytes data)
  have hafter := format.within_merge message (.ofBytes data) hwithin
  have hposition : (format.merge message (.ofBytes data)).reader.source.position = count :=
    hadvanced.position.trans (Nat.zero_add count)
  constructor
  case within => exact hafter
  case size => exact format.size_le_maxSize hformed hafter
  case position =>
    rw [hposition]
    exact hadvanced.held
  case rest =>
    rw [hposition]
    exact hadvanced.rest
  case spans => exact hadvanced.spans

/-- By induction on the inputs: every merge starts from a message within capacity, because the one before it left such a message behind. -/
theorem contained_mergeEach (hformed : format.wellFormed = true) {message : μ}
    (hwithin : format.within message = true) (inputs : List Bytes) :
    List.Forall₂ format.Contained inputs (format.mergeEach message inputs) := by
  induction inputs generalizing message with
  | nil => exact .nil
  | cons data inputs ih =>
    have hmerge := contained_merge hformed hwithin data
    exact .cons hmerge (ih hmerge.within)

theorem ofBytes?_bytes (hformed : format.wellFormed = true) {message : μ}
    (hwithin : format.within message = true) :
    format.ofBytes? (format.bytes message) = .ok (format.plain message) := by
  have hwilling : (Source.ofBytes (format.bytes message)).supply.Willing := trivial
  obtain ⟨after, hdecode, _⟩ := decode_eq_of_willing hformed hwithin hwilling rfl
  rw [ofBytes?, Reader.ofBytes, hdecode]

theorem within_of_ofBytes? {data : Bytes} {message : μ} (h : format.ofBytes? data = .ok message) :
    format.within message = true := by
  have hmerge := format.within_merge format.default (.ofBytes data) format.within_default
  rw [ofBytes?] at h
  simp only [decode] at h
  split at h
  · cases h
  · cases h
    exact hmerge

theorem bytes_normal (hformed : format.wellFormed = true) {data : Bytes} {message : μ}
    (h : format.ofBytes? data = .ok message) :
    ∃ again, format.ofBytes? (format.bytes message) = .ok again ∧
      format.bytes again = format.bytes message := by
  have hwithin := within_of_ofBytes? h
  refine ⟨format.plain message, ofBytes?_bytes hformed hwithin, ?_⟩
  rw [bytes, format.encode_plain hformed, bytes]

end Format

namespace MessageType

/-- Any bytes may be merged into a message within capacity, any number of times and also after failures. Every merge runs to an end of its own, from any reader, and what it leaves behind is contained. What was decoded successfully has an encoding that further decoding and encoding does not change. -/
theorem mergeEach_contained (type : MessageType) {start : type.Value}
    (hwithin : type.format.within start = true) (inputs : List Bytes) :
    (∀ message reader, type.format.Complete message reader (type.format.merge message reader)) ∧
    List.Forall₂ type.format.Contained inputs (type.format.mergeEach start inputs) ∧
    ∀ data message, type.format.ofBytes? data = .ok message →
      ∃ again, type.format.ofBytes? (type.format.bytes message) = .ok again ∧
        type.format.bytes again = type.format.bytes message := by
  have hformed := type.wellFormed_format
  refine ⟨type.format.complete_merge, type.format.contained_mergeEach hformed hwithin inputs,
    fun data message hdecode => ?_⟩
  exact type.format.bytes_normal hformed hdecode

/-- An overlong tag, a span that is longer than the data, and a change to the message that these left behind. -/
theorem mergeEach_contained_deep : consoleMessage.format.within ConsoleMessage.deep = true ∧
    (∀ message reader,
      consoleMessage.format.Complete message reader (consoleMessage.format.merge message reader)) ∧
    List.Forall₂ consoleMessage.format.Contained
      [[0xff, 0xff, 0xff, 0xff, 0xff], [0x2a, 0x05, 0x22, 0x7f, 0x0a], [0x2a, 0x02, 0x08, 0x07]]
      (consoleMessage.format.mergeEach ConsoleMessage.deep
        [[0xff, 0xff, 0xff, 0xff, 0xff], [0x2a, 0x05, 0x22, 0x7f, 0x0a], [0x2a, 0x02, 0x08, 0x07]]) ∧
    ∀ data message, consoleMessage.format.ofBytes? data = .ok message →
      ∃ again, consoleMessage.format.ofBytes? (consoleMessage.format.bytes message) = .ok again ∧
        consoleMessage.format.bytes again = consoleMessage.format.bytes message :=
  ⟨by decide, mergeEach_contained .consoleMessage (by decide) _⟩

end MessageType

end EngineConsole
