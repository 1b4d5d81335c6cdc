import EngineConsole.Bytes.Reader
import EngineConsole.Bytes.Sink

/-!
# Varints

A varint writes a 32-bit number in groups of seven bits, the low group first; every byte but the last has its top bit set. At most five bytes are read. What the fifth byte holds beyond 32 bits is dropped.
-/

namespace EngineConsole.Varint

def maxSize : Nat := 5

/-- The number of bytes that `value` takes: one for each seven bits begun, at least one and at most five. -/
def size (value : Nat) : Nat :=
  if value < 0x80 then 1
  else if value < 0x4000 then 2
  else if value < 0x200000 then 3
  else if value < 0x10000000 then 4
  else 5

def groups : Nat → Nat → Bytes
  | 0, value => [UInt8.ofNat value]
  | more + 1, value =>
    if value < 128 then [UInt8.ofNat value]
    else UInt8.ofNat (value % 128 + 128) :: groups more (value / 128)

def encode (value : UInt32) : Bytes := groups 4 value.toNat

/-- Stores `value` in a destination, one group after the other from `place` on, and gives the place behind the last one. -/
def storeFrom (place value : Nat) (destination : Bytes) : Except WriteFailure (Nat × Bytes) :=
  if value < 128 then do
    let stored ← destination.store place (UInt8.ofNat value)
    return (place + 1, stored)
  else do
    let stored ← destination.store place (UInt8.ofNat (value % 128 + 128))
    storeFrom (place + 1) (value / 128) stored
termination_by value

/-- Stores `value` at the front of a destination that the caller promises to be large enough, and gives the number of bytes written. -/
def store (value : UInt32) (destination : Bytes) : Except WriteFailure (Nat × Bytes) :=
  storeFrom 0 value.toNat destination

/-- Reads at most the given number of groups and adds them up, each with its weight. -/
def readGroups : Nat → Read Nat
  | 0 => throw .overlongVarint
  | more + 1 => do
    let byte ← Reader.readByte
    if byte.toNat < 128 then return byte.toNat
    else do
      let high ← readGroups more
      return byte.toNat - 128 + 128 * high

def read : Read UInt32 := do
  let value ← readGroups maxSize
  return UInt32.ofNat value

/-- Reads a varint as a flag: every number but zero is true. -/
def readFlag : Read Bool := do
  let value ← read
  return value != 0

def readLength : Read Nat := do
  let value ← read
  return value.toNat

end EngineConsole.Varint
