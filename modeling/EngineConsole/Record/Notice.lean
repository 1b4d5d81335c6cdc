import EngineConsole.Record.Tag

/-!
# Notices

A decoder says what it decides: each tag that it drops, and each payload that it rejects by a rule of its own. Notices are data; their text is made on request.
-/

namespace EngineConsole

inductive Level where
  | trace
  | debug
  | info
deriving DecidableEq, Repr

namespace Level

def name : Level → String
  | trace => "TRACE"
  | debug => "DEBUG"
  | info => "INFO"

end Level

inductive Notice where
  | unrecognized (tag : Tag)
  | listFull (number capacity : Nat)
  | elementTooLong (number length greatest : Nat)
  | textTooLong (number length capacity : Nat)
  | unknownVariant (number value : Nat)
deriving DecidableEq, Repr

namespace Notice

/-- A dropped tag is routine; a rejected payload is not. -/
def level : Notice → Level
  | unrecognized _ => .trace
  | _ => .debug

def message : Notice → String
  | unrecognized tag =>
    s!"dropping unrecognized tag field={tag.number} wire_type={tag.wireType.raw}"
  | listFull number capacity => s!"field {number} is full at {capacity} elements"
  | elementTooLong number length greatest =>
    s!"field {number} element declares {length} bytes, max is {greatest}"
  | textTooLong number length capacity =>
    s!"field {number} string of {length} bytes exceeds capacity {capacity}"
  | unknownVariant number value => s!"rejecting unknown enum value {value} in field {number}"

def line (notice : Notice) : String := s!"{notice.level.name} {notice.message}"

end Notice

end EngineConsole
