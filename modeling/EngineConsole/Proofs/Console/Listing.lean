import EngineConsole.Console.Catalogue
import EngineConsole.Proofs.Capture.Report
import EngineConsole.Proofs.Message.Listing

/-!
# Walks over the messages of the console link

A walk knows nothing of message types, and an encoder nothing of walks. Yet a walk over an encoding lists just what the rules of presence say of the message, and it gets to the end. This needs the fields of every type to stand in the order of their numbers, which can be computed.
-/

namespace EngineConsole.MessageType

theorem ascending_format (type : MessageType) : type.format.ascending = true := by
  cases type <;> decide +kernel

/-- The walk over the encoding of a message within capacity gets to the end without a stop and leaves nothing. Its records tile the encoding, they are the entries of the message, and their numbers ascend but for the elements of one list of messages. -/
theorem walk_bytes (type : MessageType) {message : type.Value}
    (hwithin : type.format.within message = true) :
    let walk := (Report.ofBytes (type.format.bytes message)).walk
    walk.stop = none ∧ walk.trailing = 0 ∧
      Tiles 0 (type.format.bytes message) walk.records ∧
      walk.records.map WalkedRecord.entry = type.format.entries message ∧
      walk.records.Pairwise fun record next => record.number < next.number ∨
        record.number = next.number ∧ record.number ∈ type.format.repeated := by
  obtain ⟨records, htiles, hentries⟩ :=
    type.format.listed_bytes type.wellFormed_format hwithin 0
  have hwalk : (Report.ofBytes (type.format.bytes message)).walk = ⟨records, none, 0⟩ :=
    Walk.ofBytes_of_tiles htiles
  have horder := type.format.pairwise_entries type.ascending_format message
  rw [← hentries, List.pairwise_map] at horder
  rw [hwalk]
  exact ⟨rfl, rfl, htiles, hentries, horder⟩

/-- Two rows under one number, the second of them empty. -/
theorem walk_bytes_rows :
    let table : Table2d := ⟨some "ve", some { values := [⟨0x3f800000⟩] }, none, [⟨[.zero]⟩, ⟨[]⟩]⟩
    let walk := (Report.ofBytes (table2d.format.bytes table)).walk
    table2d.format.within table = true ∧ walk.stop = none ∧ walk.trailing = 0 ∧
      Tiles 0 (table2d.format.bytes table) walk.records ∧
      walk.records.map WalkedRecord.entry =
        [(1, .delimited 2), (2, .delimited 6), (4, .delimited 6), (4, .delimited 0)] ∧
      walk.records.Pairwise fun record next => record.number < next.number ∨
        record.number = next.number ∧ record.number ∈ [4] :=
  ⟨by decide, walk_bytes table2d (by decide)⟩

end EngineConsole.MessageType
