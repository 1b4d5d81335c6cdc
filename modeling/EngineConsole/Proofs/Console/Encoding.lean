import EngineConsole.Message.Buffer
import EngineConsole.Proofs.Bytes.Filling
import EngineConsole.Proofs.Console.Sizes
import EngineConsole.Proofs.Message.Streaming

/-!
# Writing on the console link

A message is written to a vector, to a callback or to a buffer of fixed size. All of them are handed the same chunks, so what has arrived when one of them gives up is told by the number of chunks that it took, and a buffer that is too short holds those that fit.
-/

namespace EngineConsole

/-! ### One list of chunks -/

/-- The chunks of a message are the one list that every sink is handed, whatever it does with them: in order, up to the first that it refuses, whose failure is the outcome, and none after that one. A vector holds all of them, a counter counts their bytes, and a callback has taken those that were offered before the call that it refuses. -/
theorem MessageType.writeTo_chunks (type : MessageType) (message : type.Value) :
    (∀ chunks, (∀ (σ ε : Type) (accept : Bytes → EStateM ε σ Unit) (sink : σ),
        Sink.Handed accept chunks sink (type.format.emit accept message sink)) ↔
      chunks = type.format.encode message) ∧
    (∀ sink, type.format.writeTo message sink = type.format.emit Sink.write message sink) ∧
    type.format.writeTo message (.collecting []) =
      .ok () (.collecting (type.format.encode message).reverse) ∧
    type.format.bytes message = (type.format.encode message).flatten ∧
    type.format.writeTo message (.counting 0) =
      .ok () (.counting (type.format.bytes message).length) ∧
    ∀ refuses : Nat → Bool,
      ((∀ call, call < (type.format.encode message).length → refuses call = false) →
        type.format.writeTo message (.callback refuses 0 []) = .ok () (.callback refuses
          (type.format.encode message).length (type.format.encode message).reverse)) ∧
      ∀ last, last < (type.format.encode message).length → refuses last = true →
        (∀ call, call < last → refuses call = false) →
        type.format.writeTo message (.callback refuses 0 []) = .error (.refused .sinkRejected)
          (.callback refuses (last + 1) ((type.format.encode message).take last).reverse) ∧
        ((type.format.encode message).take last).flatten <+: type.format.bytes message := by
  refine ⟨fun chunks => ⟨fun hhanded => ?unique, ?handed⟩, fun sink => ?_, ?_, rfl, ?_,
    fun refuses => ⟨fun hwilling => ?_, fun last hlast hrefuses hbefore => ⟨?_, ?_⟩⟩⟩
  case unique =>
    -- a sink that remembers what it is handed tells two lists apart
    have hchunks := (hhanded (List Bytes) Empty Sink.remember []).eq_of_remember
    have hencode := (type.format.handed_emit Sink.remember message []).eq_of_remember
    rw [hencode] at hchunks
    injection hchunks with _ hkept
    exact hkept.symm
  case handed =>
    rintro rfl σ ε accept sink
    exact type.format.handed_emit accept message sink
  · rw [Format.writeTo, Sink.writeAll_eq_forM, type.format.emit_eq_forM]
  · rw [Format.writeTo, Sink.writeAll_collecting, List.append_nil]
  · rw [Format.writeTo, Sink.writeAll_counting, Nat.zero_add, Format.bytes]
  · rw [Format.writeTo]
    refine (Sink.writeAll_callback_of_willing [] ?_).trans ?_
    · simpa using hwilling
    · simp
  · rw [Format.writeTo]
    refine (Sink.writeAll_callback_of_refused [] hlast ?_ ?_).trans ?_
    · simpa using hrefuses
    · simpa using hbefore
    · simp
  · obtain ⟨later, hlater⟩ := List.take_prefix last (type.format.encode message)
    refine ⟨later.flatten, ?_⟩
    rw [← List.flatten_append, hlater, Format.bytes]

/-- A callback that refuses its third call has taken two chunks. -/
theorem MessageType.writeTo_chunks_deep :
    2 < (consoleMessage.format.encode ConsoleMessage.deep).length ∧
    consoleMessage.format.writeTo ConsoleMessage.deep (.callback (fun call => call == 2) 0 []) =
      .error (.refused .sinkRejected) (.callback (fun call => call == 2) 3
        ((consoleMessage.format.encode ConsoleMessage.deep).take 2).reverse) ∧
    ((consoleMessage.format.encode ConsoleMessage.deep).take 2).flatten <+:
      consoleMessage.format.bytes ConsoleMessage.deep := by
  have hlong : 2 < (consoleMessage.format.encode ConsoleMessage.deep).length := by decide
  have hbefore : ∀ call, call < 2 → (call == 2) = false := by decide
  obtain ⟨-, -, -, -, -, hcallback⟩ := writeTo_chunks .consoleMessage ConsoleMessage.deep
  exact ⟨hlong, (hcallback fun call => call == 2).2 2 hlong rfl hbefore⟩

/-! ### Buffers of fixed size -/

namespace Format

variable {μ : Type} {format : Format μ} {message : μ} {buffer : Bytes}

theorem writeTo_of_fits {make : Bytes → Nat → Sink} {failure : Nat → Nat → WriteFailure}
    (hfills : Sink.Fills make failure) (hformed : format.wellFormed = true)
    (h : format.size message ≤ buffer.length) :
    format.writeTo message (make buffer 0) = .ok ()
      (make (format.bytes message ++ buffer.drop (format.size message)) (format.size message)) := by
  have hlength := format.length_bytes hformed message
  rw [bytes] at hlength
  have hroom : 0 + (format.encode message).flatten.length ≤ buffer.length := by omega
  have hwrite := hfills.writeAll_of_fits hroom
  rw [writeTo, hwrite, Bytes.overwrite_zero, hlength, Nat.zero_add, bytes]

/-- Of an encoding that is longer than the buffer, both sinks take the chunks that fit. -/
theorem fill_of_unfit (hformed : format.wellFormed = true)
    (h : buffer.length < format.size message) :
    ∃ kept needed, Sink.LongestFitting buffer.length (format.encode message) kept ∧
      buffer.length - kept.flatten.length < needed ∧
      format.fillChecked message buffer =
        ⟨.error (.refused (.bufferFull needed (buffer.length - kept.flatten.length))),
          kept.flatten ++ buffer.drop kept.flatten.length⟩ ∧
      format.fillTrusting message buffer =
        ⟨.error .overrun, kept.flatten ++ buffer.drop kept.flatten.length⟩ := by
  have hlength := format.length_bytes hformed message
  rw [bytes] at hlength
  obtain ⟨kept, next, later, hchunks, hkept, hnext⟩ := Sink.exists_first_unfit (hlength ▸ h)
  have hkept' : 0 + kept.flatten.length ≤ buffer.length := by rwa [Nat.zero_add]
  have hnext' : buffer.length < 0 + kept.flatten.length + next.length := by rwa [Nat.zero_add]
  have hchecked := Sink.fills_checked.writeAll_of_unfit later hkept' hnext'
  have htrusting := Sink.fills_trusting.writeAll_of_unfit later hkept' hnext'
  rw [← hchunks, Nat.zero_add, Bytes.overwrite_zero] at hchecked htrusting
  refine ⟨kept, next.length, hchunks ▸ Sink.longestFitting_of_unfit hkept hnext, by omega, ?_, ?_⟩
  · rw [fillChecked, writeTo, hchecked]
    rfl
  · rw [fillTrusting, writeTo, htrusting]
    rfl

end Format

/-- Encoding into a buffer succeeds if and only if the message is no larger than the buffer, whether the sink checks or relies on it: it returns the size, and the encoding stands in front of the bytes that were there behind it. Otherwise the chunks that fit stand there, and the checking sink says that the next one needs more bytes than are left. A buffer of fixed capacity is made unless it might be too short for some message of the type. -/
theorem MessageType.fill_exact (type : MessageType) (message : type.Value) (buffer : Bytes) :
    (type.format.size message ≤ buffer.length →
      type.format.fillChecked message buffer = ⟨.ok (type.format.size message),
        type.format.bytes message ++ buffer.drop (type.format.size message)⟩ ∧
      type.format.fillTrusting message buffer = ⟨.ok (type.format.size message),
        type.format.bytes message ++ buffer.drop (type.format.size message)⟩) ∧
    (buffer.length < type.format.size message → ∃ kept needed,
      Sink.LongestFitting buffer.length (type.format.encode message) kept ∧
      buffer.length - kept.flatten.length < needed ∧
      type.format.fillChecked message buffer =
        ⟨.error (.refused (.bufferFull needed (buffer.length - kept.flatten.length))),
          kept.flatten ++ buffer.drop kept.flatten.length⟩ ∧
      type.format.fillTrusting message buffer =
        ⟨.error .overrun, kept.flatten ++ buffer.drop kept.flatten.length⟩) ∧
    ∀ capacity,
      (capacity < type.format.maxSize → FixedBuffer.ofMessage type.format message capacity =
        .error (.tooSmall capacity type.format.maxSize)) ∧
      (type.format.maxSize ≤ capacity → type.format.within message = true →
        FixedBuffer.ofMessage type.format message capacity =
          .ok ⟨capacity, type.format.bytes message⟩ ∧
        (type.format.bytes message).length = type.format.size message) := by
  have hformed := type.wellFormed_format
  have hlength := type.format.length_bytes hformed message
  refine ⟨fun hfits => ⟨?_, ?_⟩, Format.fill_of_unfit hformed, fun capacity => ⟨fun hsmall => ?_,
    fun hlarge hwithin => ⟨?_, hlength⟩⟩⟩
  · rw [Format.fillChecked, Format.writeTo_of_fits Sink.fills_checked hformed hfits]
    rfl
  · rw [Format.fillTrusting, Format.writeTo_of_fits Sink.fills_trusting hformed hfits]
    rfl
  · rw [FixedBuffer.ofMessage, if_pos hsmall]
  · have hsize := type.format.size_le_maxSize hformed hwithin
    have hroom : type.format.size message ≤ (List.replicate capacity (0 : UInt8)).length := by
      rw [List.length_replicate]
      exact Nat.le_trans hsize hlarge
    have hwrite := Format.writeTo_of_fits Sink.fills_trusting hformed hroom
    rw [FixedBuffer.ofMessage, if_neg (Nat.not_lt.mpr hlarge), Format.fillTrusting, hwrite]
    simp only [Filled.ofResult, Sink.written, Sink.buffer]
    rw [← hlength, List.take_left]

/-- A header of ten bytes: twelve have two to spare, and seven take its first number and miss three bytes for the second. -/
theorem MessageType.fill_exact_header :
    header.format.size ⟨1, 2⟩ ≤ (List.replicate 12 (0xaa : UInt8)).length ∧
    header.format.fillChecked ⟨1, 2⟩ (List.replicate 12 0xaa) =
      ⟨.ok 10, header.format.bytes ⟨1, 2⟩ ++ [0xaa, 0xaa]⟩ ∧
    (List.replicate 7 (0xaa : UInt8)).length < header.format.size ⟨1, 2⟩ ∧
    (∃ kept needed, Sink.LongestFitting 7 (header.format.encode ⟨1, 2⟩) kept ∧
      7 - kept.flatten.length < needed ∧
      header.format.fillChecked ⟨1, 2⟩ (List.replicate 7 0xaa) =
        ⟨.error (.refused (.bufferFull needed (7 - kept.flatten.length))),
          kept.flatten ++ (List.replicate 7 0xaa).drop kept.flatten.length⟩ ∧
      header.format.fillTrusting ⟨1, 2⟩ (List.replicate 7 0xaa) =
        ⟨.error .overrun, kept.flatten ++ (List.replicate 7 0xaa).drop kept.flatten.length⟩) ∧
    9 < header.format.maxSize ∧
    FixedBuffer.ofMessage header.format ⟨1, 2⟩ 9 = .error (.tooSmall 9 10) ∧
    header.format.maxSize ≤ 12 ∧ header.format.within ⟨1, 2⟩ = true ∧
    FixedBuffer.ofMessage header.format ⟨1, 2⟩ 12 = .ok ⟨12, header.format.bytes ⟨1, 2⟩⟩ :=
  ⟨by decide, ((fill_exact .header ⟨1, 2⟩ (List.replicate 12 0xaa)).1 (by decide)).1,
    by decide, (fill_exact .header ⟨1, 2⟩ (List.replicate 7 0xaa)).2.1 (by decide),
    by decide, ((fill_exact .header ⟨1, 2⟩ []).2.2 9).1 (by decide),
    by decide, by decide, (((fill_exact .header ⟨1, 2⟩ []).2.2 12).2 (by decide) (by decide)).1⟩

end EngineConsole
