import EngineConsole.Bytes.Reader
import EngineConsole.Bytes.Sink

/-!
# Fixed-width numbers

A 32-bit number in four bytes, the low byte first.
-/

namespace EngineConsole.Fixed32

def size : Nat := 4

def encode (value : UInt32) : Bytes :=
  [UInt8.ofNat value.toNat, UInt8.ofNat (value.toNat / 0x100),
    UInt8.ofNat (value.toNat / 0x10000), UInt8.ofNat (value.toNat / 0x1000000)]

/-- Stores the four bytes at the front of a destination that the caller promises to be large enough, and gives their number. They are stored all at once or not at all. -/
def store (value : UInt32) (destination : Bytes) : Except WriteFailure (Nat × Bytes) :=
  if size ≤ destination.length then .ok (size, destination.overwrite 0 (encode value))
  else .error .overrun

def decode (bytes : Bytes) : UInt32 :=
  UInt32.ofNat (bytes.foldr (fun byte high => byte.toNat + 256 * high) 0)

def read : Read UInt32 := do
  let bytes ← Reader.read size
  return decode bytes

end EngineConsole.Fixed32
