import EngineConsole.Number.Single
import EngineConsole.Record.Enumeration
import EngineConsole.Record.Outcome
import EngineConsole.Record.Size

/-!
# Scalar records

A scalar is a payload of one number: plain, of fixed width, a flag, or the number of a variant. A scalar record is a single chunk, the tag with the payload after it.
-/

namespace EngineConsole

/-- The kinds of scalar, each with the type of its values. -/
inductive Scalar : Type → Type 1 where
  | uint32 : Scalar UInt32
  | fixed32 : Scalar UInt32
  | float : Scalar Single
  /-- A flag, written as the varint of zero or one. -/
  | bool : Scalar Bool
  | enum {ε : Type} (enumeration : Enumeration ε) : Scalar ε

namespace Scalar

def wireType {α : Type} : Scalar α → WireType
  | uint32 | bool | enum _ => .varint
  | fixed32 | float => .fixed32

def default {α : Type} : Scalar α → α
  | uint32 | fixed32 => 0
  | float => .zero
  | bool => false
  | enum enumeration => enumeration.first

/-- True of the values that a field of implicit presence does not write. -/
def isZero {α : Type} : Scalar α → α → Bool
  | uint32, value | fixed32, value => value == 0
  | float, value => value.isZero
  | bool, value => !value
  | enum enumeration, value => enumeration.number value == 0

def encodeValue {α : Type} : Scalar α → α → Bytes
  | uint32, value => Varint.encode value
  | fixed32, value => Fixed32.encode value
  | float, value => value.encode
  | bool, value => Varint.encode (if value then 1 else 0)
  | enum enumeration, value => Varint.encode (UInt32.ofNat (enumeration.number value))

def valueSize {α : Type} : Scalar α → α → Nat
  | uint32, value => Varint.size value.toNat
  | fixed32, _ | float, _ => Fixed32.size
  | bool, _ => 1
  | enum enumeration, value => Varint.size (enumeration.number value)

def encode {α : Type} (scalar : Scalar α) (number : Nat) (value : α) : Bytes :=
  Tag.encode ⟨number, scalar.wireType⟩ ++ scalar.encodeValue value

def size {α : Type} (scalar : Scalar α) (number : Nat) (value : α) : Nat :=
  Tag.size number + scalar.valueSize value

def maxSize {α : Type} (scalar : Scalar α) (number : Nat) : Nat :=
  match scalar with
  | uint32 => Size.uint32 number
  | fixed32 | float => Size.fixed32 number
  | bool => Size.bool number
  | enum enumeration => Size.enumeration number enumeration.greatest

/-- The variant that a number stands for in field `number`; any other number is rejected. -/
def recognize {ε : Type} (enumeration : Enumeration ε) (number : Nat) (fetched : Fetched UInt32) :
    Fetched ε :=
  match fetched.result with
  | .error error => { fetched with result := .error error }
  | .ok value =>
    match enumeration.ofNumber? value.toNat with
    | some variant => { fetched with result := .ok variant }
    | none =>
      { fetched with
        result := .error (.unknownVariant number value.toNat)
        notices := fetched.notices ++ [.unknownVariant number value.toNat] }

def fetch {α : Type} : Scalar α → Nat → Reader → Fetched α
  | uint32, _, reader => .ofRead Varint.read reader
  | fixed32, _, reader => .ofRead Fixed32.read reader
  | float, _, reader => .ofRead Single.read reader
  | bool, _, reader => .ofRead Varint.readFlag reader
  | enum enumeration, number, reader => recognize enumeration number (.ofRead Varint.read reader)

end Scalar

end EngineConsole
