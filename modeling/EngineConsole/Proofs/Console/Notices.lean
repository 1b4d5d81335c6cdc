import EngineConsole.Console.Catalogue
import EngineConsole.Proofs.Message.Notices

/-!
# What is reported on a console message

Who watches the notices of the console link sees the decisions of the decoder: each tag that it drops, at whatever depth, and each payload that it rejects.
-/

namespace EngineConsole

/-- Whatever the message type, the value and the reader: a merge has one notice of level debug, the last one, if it fails because a list or a text is too long, an element declares too many bytes or an enumeration has no such variant, and else none. All other notices are of level trace, one for each tag that was read where the message at hand has no field for it, in the order of the bytes. -/
theorem MessageType.merge_mirrored (type : MessageType) (value : type.Value) (reader : Reader) :
    (type.format.merge value reader).Mirrored (type.format.dropped value reader) :=
  (type.format.reports_merge value reader).mirrored

/-- A tag of the update and one of the position inside it are dropped, and then the position has a variant that does not exist. -/
example : (EngineUpdate.format.decode (.ofBytes [0x78, 0x12, 0x03, 0x6d, 0x28, 0x09])).notices =
    [.unrecognized ⟨15, .varint⟩, .unrecognized ⟨13, .fixed32⟩, .unknownVariant 5 9] := by
  decide +kernel

end EngineConsole
