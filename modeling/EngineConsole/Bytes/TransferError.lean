/-!
# Failures of byte transfer

Bytes enter the codec through a source and leave it through a sink. This module names every way in which such a transfer can fail, and gives each its text.
-/

namespace EngineConsole

abbrev Bytes := List UInt8

/-- Why a request to a source, or a chunk offered to a sink, was not served. -/
inductive TransferError where
  /-- More bytes were requested than the data, or the span being read, still holds. -/
  | endOfData (requested available : Nat)
  | sourceFailed
  | sinkRejected
  | bufferFull (needed available : Nat)
  /-- Five bytes in a row announced that the varint goes on. -/
  | overlongVarint
deriving DecidableEq, Repr

namespace TransferError

def message : TransferError → String
  | endOfData requested available =>
    s!"attempted to read {requested} bytes but only {available} bytes available"
  | sourceFailed => "byte source reported failure"
  | sinkRejected => "byte sink rejected the write"
  | bufferFull needed available =>
    s!"attempted to write {needed} bytes but buffer has {available} bytes left"
  | overlongVarint => "varint exceeds 5 bytes"

end TransferError

end EngineConsole
