import EngineConsole.Bytes.Reader
import EngineConsole.Record.DecodeError
import EngineConsole.Record.Notice

/-!
# Outcomes of decoding

Decoding a payload either fetches a new value or merges bytes into a value that is there already. A merge that fails still has a value: what the records before the failure made of it. Both leave a reader behind and say what they decided.
-/

namespace EngineConsole

structure Fetched (α : Type) where
  result : Except DecodeError α
  reader : Reader
  notices : List Notice := []

structure Merged (α : Type) where
  value : α
  reader : Reader
  notices : List Notice := []
  error : Option DecodeError := none

namespace Fetched

def ofRead {α : Type} (read : Read α) (reader : Reader) : Fetched α :=
  match read reader with
  | .ok value reader => { result := .ok value, reader }
  | .error error reader => { result := .error (.transfer error), reader }

/-- Assigns what was fetched: `place` makes the new value, and a failure keeps the old one. -/
def assign {α β : Type} (fetched : Fetched α) (old : β) (place : α → β) : Merged β :=
  match fetched.result with
  | .ok value => { value := place value, reader := fetched.reader, notices := fetched.notices }
  | .error error =>
    { value := old, reader := fetched.reader, notices := fetched.notices, error := some error }

end Fetched

namespace Merged

def map {α β : Type} (f : α → β) (merged : Merged α) : Merged β :=
  { value := f merged.value, reader := merged.reader, notices := merged.notices, error := merged.error }

/-- Goes on with another merge, unless this one has failed. -/
def andThen {α : Type} (first : Merged α) (next : α → Reader → Merged α) : Merged α :=
  match first.error with
  | some _ => first
  | none =>
    let second := next first.value first.reader
    { second with notices := first.notices ++ second.notices }

def leaveSpan {α : Type} (merged : Merged α) : Merged α :=
  { merged with reader := merged.reader.leave }

end Merged

end EngineConsole
