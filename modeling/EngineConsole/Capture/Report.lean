import EngineConsole.Capture.Remark
import EngineConsole.Capture.Walk
import EngineConsole.Console.Envelope
import EngineConsole.Message.Decode
import EngineConsole.Text.Json
import EngineConsole.Text.Number

/-!
# Reports on a payload

A report holds the walk over a payload and says what the payload is if it can be decoded. It is shown as plain text or as JSON.
-/

namespace EngineConsole

structure Report where
  length : Nat
  walk : Walk
  content : Option String
deriving DecidableEq, Repr

namespace Report

/-- What an envelope holds, if its decoding succeeded. -/
def contentOf (decoded : Merged ConsoleMessage) : Option String :=
  if decoded.error.isNone then decoded.value.kind.map ConsoleKind.label else none

def ofBytes (data : Bytes) : Report where
  length := data.length
  walk := .ofBytes data
  content := contentOf (ConsoleMessage.format.decode (.ofBytes data))

/-- What is remarked while a payload is reported on: the notices of the decoder, then the extent of the walk. -/
def remarks (data : Bytes) : List Remark :=
  (ConsoleMessage.format.decode (.ofBytes data)).notices.map .decoder ++
    [.walked (Walk.ofBytes data).records.length data.length]

end Report

/-! ### JSON -/

/-- The document of a number in four bytes, seen as a float. -/
def Single.narrowJson (x : Single) : Json :=
  if x.isNaN || x.isInfinite then .null
  else .number (NumberStyle.json.writeSigned x x.dyadic)

namespace WalkedPayload

def json : WalkedPayload → Json
  | varint value => .object [("kind", .string "varint"), ("value", .ofNat value.toNat)]
  | fixed32 value =>
    .object [("kind", .string "fixed32"), ("bits", .ofNat value.bits.toNat),
      ("float", value.narrowJson)]
  | delimited length => .object [("kind", .string "length_delimited"), ("len", .ofNat length)]

end WalkedPayload

namespace WalkedRecord

def json (record : WalkedRecord) : Json :=
  .object [("offset", .ofNat record.offset), ("field", .ofNat record.number),
    ("value", record.payload.json)]

end WalkedRecord

namespace Report

def json (report : Report) : Json :=
  .object [("total_len", .ofNat report.length),
    ("fields", .array (report.walk.records.map WalkedRecord.json)),
    ("trailing", .ofNat report.walk.trailing),
    ("stopped", .ofText? (report.walk.stop.map WalkStop.message)),
    ("message_kind", .ofText? report.content)]

end Report

/-! ### Plain text -/

namespace WalkedPayload

def describe : WalkedPayload → String
  | varint value => s!"varint {value.toNat}"
  | fixed32 value =>
    s!"fixed32 0x{Text.hex 8 value.bits.toNat} ({NumberStyle.plain.writeAny value})"
  | delimited length => s!"length-delimited ({length} bytes)"

end WalkedPayload

namespace WalkedRecord

/-- A record on one line, the offset and the field number in columns. -/
def describe (record : WalkedRecord) : String :=
  s!"  @{Text.alignLeft 5 (toString record.offset)} field " ++
    s!"{Text.alignRight 3 (toString record.number)}: {record.payload.describe}"

end WalkedRecord

namespace Report

def lines (report : Report) : List String :=
  let content := report.content.getD "undecodable"
  [s!"length: {report.length} bytes message: {content}", "fields:"] ++
    report.walk.records.map WalkedRecord.describe ++
    (report.walk.stop.map fun stop =>
      s!"stopped: {stop.message} ({report.walk.trailing} bytes not walked)").toList

def plain (report : Report) : String := String.join (report.lines.map (· ++ "\n"))

end Report

end EngineConsole
