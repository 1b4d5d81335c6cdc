import EngineConsole.Number.Fixed32

/-!
# Single-precision numbers

A measured value travels as the 32 bits of an IEEE 754 single. It is kept as these bits, so that NaN payloads and the sign of zero survive; what the number itself is worth matters only where values are compared or printed.
-/

namespace EngineConsole

/-- An IEEE 754 single-precision number, by its bits. -/
structure Single where
  /-- Sign, eight bits of exponent and 23 bits of fraction, from the top. -/
  bits : UInt32
deriving DecidableEq, Repr

namespace Single

def zero : Single := ⟨0⟩

instance : Inhabited Single := ⟨zero⟩

def isNegative (x : Single) : Bool := 0x80000000 ≤ x.bits.toNat

def exponentBits (x : Single) : Nat := x.bits.toNat / 0x800000 % 0x100

def fractionBits (x : Single) : Nat := x.bits.toNat % 0x800000

def isZero (x : Single) : Bool := x.bits.toNat % 0x80000000 = 0

def isNaN (x : Single) : Bool := x.exponentBits = 255 && x.fractionBits ≠ 0

def isInfinite (x : Single) : Bool := x.exponentBits = 255 && x.fractionBits = 0

/-- True if both stand for the same number: the two zeros do, and a NaN does not even with itself. -/
def sameNumber (x y : Single) : Bool :=
  !x.isNaN && !y.isNaN && (x == y || (x.isZero && y.isZero))

def encode (x : Single) : Bytes := Fixed32.encode x.bits

def read : Read Single := do
  let bits ← Fixed32.read
  return ⟨bits⟩

end Single

end EngineConsole
