import EngineConsole.Proofs.Message.Truncation

/-!
# Console messages that break off

A message of the console link that breaks off on the line is either noticed or it is a shorter message: no value comes out of it that was not sent as a whole.
-/

namespace EngineConsole

/-- The first `count` bytes of an encoding are decoded without a failure exactly if the cut is at a boundary between the records of the message or strictly inside the tag of one of them; at any other place, at whatever depth, it is a failure. What comes out is what is left of the message, in plain form: the values whose records end at or before the cut, and nothing of those that do not. -/
theorem MessageType.decode_front (type : MessageType) {message : type.Value}
    (hwithin : type.format.within message = true) {count : Nat}
    (hcount : count ≤ (type.format.bytes message).length) :
    ((type.format.decode (.ofBytes ((type.format.bytes message).take count))).error = none ↔
      Frame.Boundary (type.format.frames message) count ∨
        Frame.InsideTag (type.format.frames message) count) ∧
    ((type.format.decode (.ofBytes ((type.format.bytes message).take count))).error = none →
      (type.format.decode (.ofBytes ((type.format.bytes message).take count))).value =
        type.format.plain (type.format.cut count message)) ∧
    Frame.bytesAll (type.format.frames message) = type.format.bytes message ∧
    type.format.frames (type.format.cut count message) =
      Frame.whole count (type.format.frames message) := by
  have hformed := type.wellFormed_format
  have hspell : Frame.bytesAll (type.format.frames message) = type.format.bytes message :=
    type.format.bytesAll_frames message
  rw [← hspell] at hcount
  refine ⟨⟨fun hnone => ?_, fun hcut => ?_⟩, fun hnone => ?_, hspell,
    Format.frames_cut hformed count message⟩
  · rcases Frame.cut_cases hcount with hcut | hcut | hcut
    · exact .inl hcut
    · exact .inr hcut
    · exact absurd hnone (Format.error_decode_of_insidePayload hformed hwithin hcut)
  · rcases hcut with hcut | hcut
    · exact (Format.decode_of_boundary hformed hwithin hcut).1
    · exact (Format.decode_of_insideTag hformed hwithin hcut).1
  · rcases Frame.cut_cases hcount with hcut | hcut | hcut
    · exact (Format.decode_of_boundary hformed hwithin hcut).2
    · exact (Format.decode_of_insideTag hformed hwithin hcut).2
    · exact absurd hnone (Format.error_decode_of_insidePayload hformed hwithin hcut)

/-- Three readings, of which the second one is a negative zero and is not written, and the third one has a tag of two bytes. -/
def Sensors.sparse : Sensors where
  map := ⟨0x3f800000⟩
  iat := .negativeZero
  mapFault := .rangeFault

/-- A table of two rows, the second one empty. -/
def Table2d.short : Table2d where
  data := [{ values := [⟨0x3f800000⟩] }, {}]

/-- Cut inside its second tag, the readings come out without the fault; cut behind it, they do not come out. Of a table that is cut between its rows there is the first row, and of one that is cut inside of it there is nothing. -/
theorem MessageType.decode_front_sparse :
    sensors.format.within Sensors.sparse = true ∧
    (Frame.Boundary (sensors.format.frames Sensors.sparse) 6 ∨
      Frame.InsideTag (sensors.format.frames Sensors.sparse) 6) ∧
    (sensors.format.decode (.ofBytes ((sensors.format.bytes Sensors.sparse).take 6))).value =
      { map := ⟨0x3f800000⟩ } ∧
    ¬ (Frame.Boundary (sensors.format.frames Sensors.sparse) 7 ∨
      Frame.InsideTag (sensors.format.frames Sensors.sparse) 7) ∧
    table2d.format.within Table2d.short = true ∧
    (table2d.format.decode (.ofBytes ((table2d.format.bytes Table2d.short).take 8))).value =
      { data := [{ values := [⟨0x3f800000⟩] }] } ∧
    ¬ (Frame.Boundary (table2d.format.frames Table2d.short) 4 ∨
      Frame.InsideTag (table2d.format.frames Table2d.short) 4) := by
  have hsensors : sensors.format.within Sensors.sparse = true := by decide
  have htable : table2d.format.within Table2d.short = true := by decide
  obtain ⟨hinside, hvalue, -⟩ := decode_front .sensors hsensors (show 6 ≤ _ by decide)
  obtain ⟨hbehind, -⟩ := decode_front .sensors hsensors (show 7 ≤ _ by decide)
  obtain ⟨-, hrow, -⟩ := decode_front .table2d htable (show 8 ≤ _ by decide)
  obtain ⟨hbroken, -⟩ := decode_front .table2d htable (show 4 ≤ _ by decide)
  refine ⟨hsensors, hinside.mp (by decide), (hvalue (by decide)).trans (by decide), ?_, htable,
    (hrow (by decide)).trans (by decide), ?_⟩
  · rw [← hbehind]
    decide
  · rw [← hbroken]
    decide

end EngineConsole
