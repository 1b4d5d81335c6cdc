import EngineConsole.Record.Outcome
import EngineConsole.Record.Size

/-!
# Records with a length prefix

The payload of a delimited record is a span of declared length. A message inside a span ends where its next tag cannot be read; whatever the span still holds is skipped, so that the reader stands behind the span afterwards.
-/

namespace EngineConsole.Delimited

/-- The chunk before a payload of `length` bytes: the tag of field `number` and the length modulo 2^32. -/
def header (number length : Nat) : Bytes :=
  Tag.encode ⟨number, .delimited⟩ ++ Varint.encode (UInt32.ofNat length)

/-- Skips what is left of the span, as the last step of a merge inside it. -/
def skipRest {α : Type} (value : α) (reader : Reader) : Merged α :=
  (Fetched.ofRead Reader.skipSpan reader).assign value (fun _ => value)

/-- Merges inside a span of `length` bytes and skips what the merge left. -/
def mergeSpan {α : Type} (merge : α → Reader → Merged α) (length : Nat) (value : α)
    (reader : Reader) : Merged α :=
  ((merge value (reader.enter length)).andThen skipRest).leaveSpan

def merge {α : Type} (merge : α → Reader → Merged α) (value : α) (reader : Reader) : Merged α :=
  match Varint.readLength reader with
  | .error error reader => { value, reader, error := some (.transfer error) }
  | .ok length reader => mergeSpan merge length value reader

/-- Merges a delimited payload into a value that may be absent. It is present from the start, so even a length that cannot be read leaves the fresh value behind. -/
def mergeOptional {α : Type} (fresh : α) (merge : α → Reader → Merged α) (value : Option α)
    (reader : Reader) : Merged (Option α) :=
  (Delimited.merge merge (value.getD fresh) reader).map some

/-- Takes records one after the other: reads a tag, hands it to `step` and goes on, until no tag can be read or a step fails. The number bounds the records. -/
def mergeRecords {α : Type} (step : Tag → α → Reader → Merged α) : Nat → α → Reader → Merged α
  | 0, value, reader => { value, reader }
  | fuel + 1, value, reader =>
    match Tag.read reader with
    | (none, reader) => { value, reader }
    | (some tag, reader) => (step tag value reader).andThen (mergeRecords step fuel)

/-- Puts an element at the end of a list of field `number`. A full list refuses it and says nothing: whoever has an element to put there has looked for room before reading it. -/
def push {α : Type} (number capacity : Nat) (values : List α) (value : α) (reader : Reader) :
    Merged (List α) :=
  if values.length < capacity then { value := values ++ [value], reader }
  else { value := values, reader, error := some (.capacityExceeded number capacity) }

/-- Appends an element to a list of field `number`. A declared length beyond `greatest` is rejected first and a full list next, both before the payload is read; an element joins the list only when it is complete. -/
def append {α : Type} (number capacity greatest : Nat) (fresh : α)
    (merge : α → Reader → Merged α) (values : List α) (reader : Reader) : Merged (List α) :=
  match Varint.readLength reader with
  | .error error reader => { value := values, reader, error := some (.transfer error) }
  | .ok length reader =>
    if greatest < length then
      { value := values, reader
        notices := [.elementTooLong number length greatest]
        error := some (.lengthExceeded number length greatest) }
    else if capacity ≤ values.length then
      { value := values, reader
        notices := [.listFull number capacity]
        error := some (.capacityExceeded number capacity) }
    else
      let element := mergeSpan merge length fresh reader
      if element.error.isSome then element.map fun _ => values
      else
        { push number capacity values element.value element.reader with notices := element.notices }

end EngineConsole.Delimited
