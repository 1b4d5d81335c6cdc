import EngineConsole.Number.Varint

/-!
# Tags

A message is a sequence of records, and each record begins with a tag: one varint that holds the field number above three bits of wire type. The wire type says how the payload is laid out.
-/

namespace EngineConsole

/-- How the payload of a record is laid out. -/
inductive WireType where
  | varint
  | delimited
  | fixed32
  | unsupported (raw : Nat)
deriving DecidableEq, Repr

namespace WireType

def raw : WireType → Nat
  | varint => 0
  | delimited => 2
  | fixed32 => 5
  | unsupported raw => raw

def ofRaw (raw : Nat) : WireType :=
  match raw % 8 with
  | 0 => varint
  | 2 => delimited
  | 5 => fixed32
  | other => unsupported other

end WireType

structure Tag where
  number : Nat
  wireType : WireType
deriving DecidableEq, Repr

namespace Tag

/-- The tag written as one 32-bit number; the bits of the field number that do not fit are dropped. -/
def raw (tag : Tag) : Nat := (tag.number * 8 % 0x100000000) ||| tag.wireType.raw

def ofRaw (raw : Nat) : Tag := ⟨raw / 8, .ofRaw raw⟩

def encode (tag : Tag) : Bytes := Varint.encode (UInt32.ofNat tag.raw)

/-- The number of bytes that the tag of field `number` takes. The wire type does not change it. -/
def size (number : Nat) : Nat := Varint.size (number * 8 % 0x100000000)

/-- Reads a tag. Where none can be read, for whatever reason, the message ends; what the attempt consumed stays consumed. -/
def read (reader : Reader) : Option Tag × Reader :=
  match Varint.read reader with
  | .ok value reader => (some (ofRaw value.toNat), reader)
  | .error _ reader => (none, reader)

end Tag

end EngineConsole
