import EngineConsole.Record.Notice

/-!
# Remarks

What the tools say about their work on the side: the notices of the decoder, and what was walked, skipped or chosen.
-/

namespace EngineConsole

inductive Remark where
  | decoder (notice : Notice)
  /-- A payload of `length` bytes was walked and so many records were read whole. -/
  | walked (records length : Nat)
  | skipped (path : String)
  | inspecting (payloads : Nat)
deriving DecidableEq, Repr

namespace Remark

def level : Remark → Level
  | decoder notice => notice.level
  | walked .. | skipped _ => .debug
  | inspecting _ => .info

def message : Remark → String
  | decoder notice => notice.message
  | walked records length => s!"walked {records} fields over {length} bytes"
  | skipped path => s!"skipping {path}"
  | inspecting payloads => s!"inspecting {payloads} payloads"

def line (remark : Remark) : String := s!"{remark.level.name} {remark.message}"

end Remark

end EngineConsole
