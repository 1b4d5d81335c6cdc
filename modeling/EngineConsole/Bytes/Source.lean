import EngineConsole.Bytes.TransferError

/-!
# Byte sources

A source delivers its bytes in order, one request at a time. A request is served whole or refused whole: a refused request consumes nothing. Every request is recorded, refused ones too, so that what a decoder asks for can be stated.
-/

namespace EngineConsole

/-- How a source decides which requests it refuses. -/
inductive Supply where
  /-- The bytes lie in memory: only a request beyond their end is refused, and the refusal says how many are left. -/
  | memory
  /-- The bytes come through a callback, whose calls are numbered from zero: it refuses the calls that `refuses` names, and those that ask for more than is left. -/
  | callback (refuses : Nat → Bool)

structure Source where
  supply : Supply
  rest : Bytes
  position : Nat := 0
  /-- The size of every request so far, the latest first. -/
  requests : List Nat := []

namespace Source

def ofBytes (data : Bytes) : Source where
  supply := .memory
  rest := data

/-- The source that delivers `data` through a callback with the given refusals. -/
def ofCallback (data : Bytes) (refuses : Nat → Bool) : Source where
  supply := .callback refuses
  rest := data

/-- True if at least `count` bytes are left. No more than these are looked at. -/
def holds (source : Source) (count : Nat) : Bool := (source.rest.take count).length == count

theorem holds_iff (source : Source) (count : Nat) :
    source.holds count = true ↔ count ≤ source.rest.length := by
  simp only [holds, List.length_take, beq_iff_eq]
  omega

/-- The failure with which a request for `count` bytes is answered, if it is refused. -/
def refusal (source : Source) (count : Nat) : Option TransferError :=
  match source.supply with
  | .memory =>
    if source.holds count then none else some (.endOfData count source.rest.length)
  | .callback refuses =>
    if refuses source.requests.length || !source.holds count then some .sourceFailed else none

/-- Requests `count` bytes: all of them, or a failure that consumes nothing. -/
def read (count : Nat) : EStateM TransferError Source Bytes := fun source =>
  match source.refusal count with
  | some error => .error error { source with requests := count :: source.requests }
  | none => .ok (source.rest.take count)
      { source with
        rest := source.rest.drop count
        position := source.position + count
        requests := count :: source.requests }

end Source

end EngineConsole
