import EngineConsole.Bytes.TransferError

/-!
# The hash of a file name

A folder with an index keeps its entries in the order of a hash of their names. The hash takes the name in blocks of 32 bytes and mixes the eight words of each block into four words of state, in three rounds of eight steps.
-/

namespace EngineConsole.NameHash

structure State where
  a : UInt32
  b : UInt32
  c : UInt32
  d : UInt32
deriving DecidableEq, Repr

namespace State

def start : State := ⟨0x67452301, 0xefcdab89, 0x98badcfe, 0x10325476⟩

def add (s t : State) : State := ⟨s.a + t.a, s.b + t.b, s.c + t.c, s.d + t.d⟩

end State

abbrev Mixer := UInt32 → UInt32 → UInt32 → UInt32

def choose : Mixer := fun x y z => z ^^^ (x &&& (y ^^^ z))

def majority : Mixer := fun x y z => (x &&& y) ||| (x &&& z) ||| (y &&& z)

/-- A one where an odd number of words have a one. -/
def parity : Mixer := fun x y z => x ^^^ y ^^^ z

def rotate (word : UInt32) (places : UInt32) : UInt32 :=
  (word <<< places) ||| (word >>> (32 - places))

/-- Mixes one word of the block into the state, whose words then change places. -/
def mixWord (mixer : Mixer) (state : State) (word places : UInt32) : State :=
  ⟨state.d, rotate (state.a + mixer state.b state.c state.d + word) places, state.b, state.c⟩

/-- A round: how the words are mixed, what is added to each, in which order they come, and by how many places each of four steps rotates. -/
structure Round where
  mixer : Mixer
  key : UInt32
  order : List Nat
  places : List UInt32

namespace Round

def run (round : Round) (block : List UInt32) (state : State) : State :=
  (round.order.zip (round.places ++ round.places)).foldl
    (fun state (index, places) =>
      mixWord round.mixer state (block.getD index 0 + round.key) places)
    state

end Round

def rounds : List Round :=
  [⟨choose, 0, [0, 1, 2, 3, 4, 5, 6, 7], [3, 7, 11, 19]⟩,
   ⟨majority, 0x5a827999, [1, 3, 5, 7, 0, 2, 4, 6], [3, 5, 9, 13]⟩,
   ⟨parity, 0x6ed9eba1, [3, 7, 2, 6, 1, 5, 0, 4], [3, 9, 11, 15]⟩]

def mixBlock (state : State) (block : List UInt32) : State :=
  state.add (rounds.foldl (fun state round => round.run block state) state)

/-- A byte as a word of the same value, where the values from 128 on stand for negative numbers. -/
def signedWord (byte : UInt8) : UInt32 :=
  if byte.toNat < 128 then byte.toUInt32 else byte.toUInt32 - 256

/-- The word of up to four bytes, the first byte on top; above them stands the length of what is left of the name. -/
def wordOf (length : Nat) (bytes : Bytes) : UInt32 :=
  bytes.foldl (fun word byte => word * 256 + signedWord byte) (UInt32.ofNat (length * 0x01010101))

def blockOf (left : Bytes) : List UInt32 :=
  (List.range 8).map fun index => wordOf left.length (((left.take 32).drop (4 * index)).take 4)

def mixName : Nat → State → Bytes → State
  | 0, state, _ => state
  | fuel + 1, state, left =>
    if left.isEmpty then state else mixName fuel (mixBlock state (blockOf left)) (left.drop 32)

/-- The place of a name in the order of its folder: the second word without its last bit, and among names that agree there the third. -/
def place (name : String) : Nat × Nat :=
  let bytes := name.toUTF8.data.toList
  let state := mixName bytes.length .start bytes
  (state.b.toNat / 2 * 2, state.c.toNat)

def before (first second : String) : Bool :=
  let (x, y) := (place first, place second)
  x.1 < y.1 || (x.1 == y.1 && x.2 < y.2)

end EngineConsole.NameHash
