import EngineConsole.Number.Single
import EngineConsole.Record.Tag

/-!
# Walking a payload

A walk goes through the records of a captured payload without knowing its schema. It notes where each record stands and how long its payload is, and stops at the first record that cannot be read whole, so it also shows where a broken capture goes wrong.
-/

namespace EngineConsole

inductive WalkedPayload where
  | varint (value : UInt32)
  | fixed32 (value : Single)
  | delimited (length : Nat)
deriving DecidableEq, Repr

/-- A record as the walk sees it. -/
structure WalkedRecord where
  offset : Nat
  number : Nat
  payload : WalkedPayload
deriving DecidableEq, Repr

/-- Why a payload cannot be walked over. -/
inductive WalkFault where
  | transfer (error : TransferError)
  | lengthBeyondEnd (length left : Nat)
  /-- Nothing says how long a payload of this layout is. -/
  | unsupported (raw : Nat)
deriving DecidableEq, Repr

namespace WalkFault

def message : WalkFault → String
  | transfer error => error.message
  | lengthBeyondEnd length left => s!"declared length {length} exceeds the {left} bytes left"
  | unsupported raw => s!"unsupported wire type {raw}"

end WalkFault

inductive WalkStop where
  /-- No tag can be read at the offset, and the attempt left bytes behind. -/
  | unreadableTag (offset : Nat)
  /-- The payload of the record at the offset cannot be walked over. -/
  | faultyRecord (number offset : Nat) (fault : WalkFault)
deriving DecidableEq, Repr

namespace WalkStop

def message : WalkStop → String
  | unreadableTag offset => s!"unreadable tag at offset {offset}"
  | faultyRecord number offset fault => s!"field {number} at offset {offset}: {fault.message}"

end WalkStop

structure Walk where
  records : List WalkedRecord
  stop : Option WalkStop
  trailing : Nat
deriving DecidableEq, Repr

abbrev WalkRead := EStateM WalkFault Reader

namespace Walk

def reading {α : Type} (read : Read α) : WalkRead α := fun reader =>
  match read reader with
  | .ok value reader => .ok value reader
  | .error error reader => .error (.transfer error) reader

/-- Reads the payload that stands behind its length. A length that exceeds what is left is not tried. -/
def readSpan (length : Nat) : WalkRead WalkedPayload := fun reader =>
  if reader.unread < length then .error (.lengthBeyondEnd length reader.unread) reader
  else (do
    let _ ← reading (Reader.read length)
    return .delimited length : WalkRead WalkedPayload) reader

def readPayload : WireType → WalkRead WalkedPayload
  | .varint => do
    let value ← reading Varint.read
    return .varint value
  | .fixed32 => do
    let value ← reading Single.read
    return .fixed32 value
  | .delimited => do
    let length ← reading Varint.readLength
    readSpan length
  | .unsupported raw => throw (.unsupported raw)

/-- Walks on from where the reader stands. The number bounds the records. -/
def fromReader : Nat → Reader → Walk
  | 0, reader => ⟨[], none, reader.unread⟩
  | fuel + 1, reader =>
    let offset := reader.source.position
    match Tag.read reader with
    | (none, reader) =>
      ⟨[], if reader.unread = 0 then none else some (.unreadableTag offset), reader.unread⟩
    | (some tag, reader) =>
      match readPayload tag.wireType reader with
      | .error fault reader => ⟨[], some (.faultyRecord tag.number offset fault), reader.unread⟩
      | .ok payload reader =>
        let onward := fromReader fuel reader
        { onward with records := ⟨offset, tag.number, payload⟩ :: onward.records }

def ofBytes (data : Bytes) : Walk := fromReader (data.length + 1) (.ofBytes data)

end Walk

end EngineConsole
