import EngineConsole.Record.Delimited

/-!
# Text records

A text is a delimited payload of UTF-8. Its field allows a number of bytes; a longer text is rejected before it is read.
-/

namespace EngineConsole.Text

def bytes (text : String) : Bytes := text.toUTF8.data.toList

def ofBytes? (bytes : Bytes) : Option String := String.fromUTF8? ⟨bytes.toArray⟩

def encode (number : Nat) (text : String) : List Bytes :=
  [Delimited.header number (bytes text).length, bytes text]

def size (number : Nat) (text : String) : Nat := Size.delimited number text.utf8ByteSize

def interpret (number : Nat) (fetched : Fetched Bytes) : Fetched String :=
  match fetched.result with
  | .error error => { fetched with result := .error error }
  | .ok bytes =>
    match ofBytes? bytes with
    | some text => { fetched with result := .ok text }
    | none => { fetched with result := .error (.invalidText number) }

/-- Fetches a text of at most `capacity` bytes for field `number`, the length first. -/
def fetch (number capacity : Nat) (reader : Reader) : Fetched String :=
  match Varint.readLength reader with
  | .error error reader => { result := .error (.transfer error), reader }
  | .ok length reader =>
    if capacity < length then
      { result := .error (.capacityExceeded number capacity), reader
        notices := [.textTooLong number length capacity] }
    else interpret number (.ofRead (Reader.read length) reader)

end EngineConsole.Text
