import EngineConsole.Console.Envelope
import EngineConsole.Message.Decode
import EngineConsole.Message.Json
import EngineConsole.Message.Outline

/-!
# Decoded payloads

A captured payload decoded as a message on the console link, shown as JSON or as an outline.
-/

namespace EngineConsole.ConsoleMessage

def ofBytes? (data : Bytes) : Except DecodeError ConsoleMessage := ConsoleMessage.format.ofBytes? data

def json (message : ConsoleMessage) : Json := (ConsoleMessage.format.view message).json

def contentView (message : ConsoleMessage) : View :=
  .ofOption (fun kind => ConsoleKind.alternatives.view (ConsoleKind.split kind)) message.kind

def describe (message : ConsoleMessage) : String :=
  let label := (message.kind.map ConsoleKind.label).getD "empty"
  s!"{label} ({ConsoleMessage.format.size message} bytes encoded)\n{message.contentView.outline}"

end EngineConsole.ConsoleMessage
