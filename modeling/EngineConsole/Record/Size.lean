import EngineConsole.Record.Tag

/-!
# Sizes of records

The size of a record with a length prefix, and the largest size that each kind of field can reach. Every bound is a sum of these, so that a buffer for a message can be sized before the message is known. The names that end in a question mark count in machine words and refuse what a word cannot hold.
-/

namespace EngineConsole.Size

/-- The size of the record of field `number` whose payload of `length` bytes follows a length prefix. The prefix holds the length modulo 2^32. -/
def delimited (number length : Nat) : Nat :=
  Tag.size number + Varint.size (length % 0x100000000) + length

def fixed32 (number : Nat) : Nat := Tag.size number + 4

def uint32 (number : Nat) : Nat := Tag.size number + Varint.maxSize

def bool (number : Nat) : Nat := Tag.size number + 1

def enumeration (number greatest : Nat) : Nat := Tag.size number + Varint.size greatest

def floats (number capacity : Nat) : Nat := delimited number (capacity * 4)

/-- The largest sequence of up to `capacity` records, each with a payload of up to `length` bytes. -/
def repeated (number capacity length : Nat) : Nat := capacity * delimited number length

def oneof (alternatives : List Nat) : Nat := alternatives.foldr max 0

/-! ### Sizes in machine words

A size is counted in a 64-bit word. A count that a word cannot hold is no size. -/

def word? (count : Nat) : Option Nat := if count < 0x10000000000000000 then some count else none

def delimited? (number length : Nat) : Option Nat := word? (delimited number length)

def floats? (number capacity : Nat) : Option Nat := word? (floats number capacity)

/-- `repeated` in a word. One record must fit as well, also if there are none of them. -/
def repeated? (number capacity length : Nat) : Option Nat := do
  let one ← delimited? number length
  word? (capacity * one)

theorem word?_eq_some_iff {count size : Nat} :
    word? count = some size ↔ count < 0x10000000000000000 ∧ size = count := by
  grind [word?]

theorem delimited?_eq_some_iff {number length size : Nat} :
    delimited? number length = some size
      ↔ delimited number length < 0x10000000000000000 ∧ size = delimited number length :=
  word?_eq_some_iff

theorem repeated?_eq_some_iff {number capacity length size : Nat} :
    repeated? number capacity length = some size
      ↔ delimited number length < 0x10000000000000000
        ∧ repeated number capacity length < 0x10000000000000000
        ∧ size = repeated number capacity length := by
  simp only [repeated?, repeated, bind, Option.bind_eq_some_iff, delimited?_eq_some_iff,
    word?_eq_some_iff]
  grind

end EngineConsole.Size
