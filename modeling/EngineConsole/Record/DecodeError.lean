import EngineConsole.Bytes.TransferError

/-!
# Failures of decoding

A record that cannot be decoded stops the decoding of its message. The failure names the field, or passes on the failure of the transfer below.
-/

namespace EngineConsole

/-- Why the decoding of a message stopped. -/
inductive DecodeError where
  | transfer (error : TransferError)
  /-- A list has no room for another element, or a text is longer than its field allows. -/
  | capacityExceeded (number capacity : Nat)
  | lengthExceeded (number length greatest : Nat)
  | unknownVariant (number value : Nat)
  | invalidText (number : Nat)
deriving DecidableEq, Repr

namespace DecodeError

def cause : DecodeError → Option TransferError
  | transfer error => some error
  | _ => none

def message : DecodeError → String
  | transfer error => s!"stream error: {error.message}"
  | capacityExceeded number capacity => s!"field {number} exceeds capacity of {capacity}"
  | lengthExceeded number length greatest =>
    s!"field {number} element declares {length} bytes, max is {greatest}"
  | unknownVariant number value => s!"field {number} has unknown enum value {value}"
  | invalidText number => s!"field {number} is not valid UTF-8"

end DecodeError

end EngineConsole
