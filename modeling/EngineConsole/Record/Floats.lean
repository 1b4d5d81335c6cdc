import EngineConsole.Number.Single
import EngineConsole.Record.Delimited

/-!
# Lists of floats

A list of floats is written packed: one delimited record that holds four bytes for each. Read are both forms, packed and one record a float, in any mixture; the floats join the list one by one, and those before a failure stay.
-/

namespace EngineConsole.Floats

/-- The chunks of the packed record of field `number`: the header and four bytes for each float. An empty list is not written. -/
def encode (number : Nat) (values : List Single) : List Bytes :=
  if values.isEmpty then []
  else Delimited.header number (values.length * Fixed32.size) :: values.map Single.encode

def size (number : Nat) (values : List Single) : Nat :=
  if values.isEmpty then 0 else Size.delimited number (values.length * Fixed32.size)

/-- Appends one float to a list of field `number` that has room for it; nothing is read for a full list. -/
def mergeUnpacked (number capacity : Nat) (values : List Single) (reader : Reader) :
    Merged (List Single) :=
  if capacity ≤ values.length then
    { value := values, reader
      notices := [.listFull number capacity]
      error := some (.capacityExceeded number capacity) }
  else
    match Single.read reader with
    | .error error reader => { value := values, reader, error := some (.transfer error) }
    | .ok value reader => Delimited.push number capacity values value reader

/-- Appends floats until the span is used up or one cannot be appended. The first number bounds the floats. -/
def fill (number capacity : Nat) : Nat → List Single → Reader → Merged (List Single)
  | 0, values, reader => { value := values, reader }
  | fuel + 1, values, reader =>
    if reader.spanLeft = 0 then { value := values, reader }
    else (mergeUnpacked number capacity values reader).andThen (fill number capacity fuel)

def mergePacked (number capacity : Nat) (values : List Single) (reader : Reader) :
    Merged (List Single) :=
  match Varint.readLength reader with
  | .error error reader => { value := values, reader, error := some (.transfer error) }
  | .ok length reader => (fill number capacity length values (reader.enter length)).leaveSpan

end EngineConsole.Floats
