import EngineConsole.Record.Delimited
import EngineConsole.Record.Scalar

/-!
# Records in a scratch

A scalar record and the header of a delimited one are handed to the sink as a single chunk. The chunk is put together in a scratch before: the tag in front, and what goes with it right behind. The scratch has a fixed size, so whatever would run past its end is an overrun.
-/

namespace EngineConsole

namespace Scratch

def size : Nat := 2 * Varint.maxSize

/-- Puts a tag into an empty scratch, lets `store` put the rest into what is left of it, and gives the part that was filled. -/
def fill (tag : Tag) (store : Bytes → Except WriteFailure (Nat × Bytes)) :
    Except WriteFailure Bytes := do
  let (used, scratch) ← Varint.store (UInt32.ofNat tag.raw) (List.replicate size 0)
  let (front, room) ← scratch.cut used
  let (more, behind) ← store room
  let (chunk, _) ← (front ++ behind).cut (used + more)
  return chunk

def write (tag : Tag) (store : Bytes → Except WriteFailure (Nat × Bytes)) :
    EStateM WriteFailure Sink Unit := fun sink =>
  match fill tag store with
  | .ok chunk => Sink.write chunk sink
  | .error failure => .error failure sink

end Scratch

namespace Scalar

/-- Stores the payload at the front of a destination that the caller promises to be large enough, and gives the number of bytes written. -/
def store {α : Type} : Scalar α → α → Bytes → Except WriteFailure (Nat × Bytes)
  | uint32, value => Varint.store value
  | fixed32, value => Fixed32.store value
  | float, value => Fixed32.store value.bits
  | bool, value => Varint.store (if value then 1 else 0)
  | enum enumeration, value => Varint.store (UInt32.ofNat (enumeration.number value))

def writeTo {α : Type} (scalar : Scalar α) (number : Nat) (value : α) :
    EStateM WriteFailure Sink Unit :=
  Scratch.write ⟨number, scalar.wireType⟩ (scalar.store value)

end Scalar

def Delimited.writeHeader (number length : Nat) : EStateM WriteFailure Sink Unit :=
  Scratch.write ⟨number, .delimited⟩ (Varint.store (UInt32.ofNat length))

end EngineConsole
