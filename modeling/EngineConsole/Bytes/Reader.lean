import EngineConsole.Bytes.Source

/-!
# Readers

A reader is a source seen through a stack of spans. Each span limits how many more bytes may be read while it is open, and a span opened inside another counts against both. A request that exceeds an open span fails there and never reaches the source.
-/

namespace EngineConsole

/-- A source together with what is left of each open span, the innermost first. -/
structure Reader where
  source : Source
  spans : List Nat := []

/-- A computation that reads. A failure keeps the state that the reads before it have reached. -/
abbrev Read := EStateM TransferError Reader

namespace Reader

def ofBytes (data : Bytes) : Reader := { source := .ofBytes data }

def unread (reader : Reader) : Nat := reader.source.rest.length

def enter (length : Nat) (reader : Reader) : Reader :=
  { reader with spans := length :: reader.spans }

def leave (reader : Reader) : Reader := { reader with spans := reader.spans.tail }

/-- What is left of the innermost span, or nothing to read where none is open. -/
def spanLeft (reader : Reader) : Nat := reader.spans.headD 0

/-- Requests `count` bytes. The innermost span that is too short for them refuses, else the source decides, and on success every open span shrinks by `count`. -/
def read (count : Nat) : Read Bytes := fun reader =>
  match reader.spans.find? (· < count) with
  | some left => .error (.endOfData count left) reader
  | none =>
    match Source.read count reader.source with
    | .ok bytes source => .ok bytes { source, spans := reader.spans.map (· - count) }
    | .error error source => .error error { reader with source }

def readByte : Read UInt8 := do
  let bytes ← read 1
  return bytes.headD 0

def skipChunk : Nat := 16

/-- Reads `left` bytes in chunks of at most `skipChunk` and drops them. The first number bounds the chunks. -/
def skipBytes : Nat → Nat → Read Unit
  | 0, _ => pure ()
  | fuel + 1, left =>
    if left = 0 then pure ()
    else do
      let _ ← read (min left skipChunk)
      skipBytes fuel (left - min left skipChunk)

def skipSpan : Read Unit := fun reader =>
  skipBytes reader.spanLeft reader.spanLeft reader

end Reader

end EngineConsole
