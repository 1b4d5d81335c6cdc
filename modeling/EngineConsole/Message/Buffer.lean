import EngineConsole.Message.Encode

/-!
# Encoding into buffers

A caller that provides a buffer gets the number of bytes written, or learns that the buffer is too short. A buffer sized for the largest message of a type never is.
-/

namespace EngineConsole

/-- The outcome of encoding into a buffer: what it holds afterwards, and the number of bytes written or why the rest is missing. -/
structure Filled where
  result : Except WriteFailure Nat
  buffer : Bytes

namespace Filled

def ofResult : EStateM.Result WriteFailure Sink Unit → Filled
  | .ok () sink => ⟨.ok sink.written, sink.buffer⟩
  | .error failure sink => ⟨.error failure, sink.buffer⟩

end Filled

namespace Format

variable {μ : Type}

def fillChecked (format : Format μ) (message : μ) (buffer : Bytes) : Filled :=
  .ofResult (format.writeTo message (.checked buffer 0))

/-- Encodes into a buffer that the caller promises to be large enough. -/
def fillTrusting (format : Format μ) (message : μ) (buffer : Bytes) : Filled :=
  .ofResult (format.writeTo message (.trusting buffer 0))

end Format

structure FixedBuffer where
  capacity : Nat
  bytes : Bytes
deriving DecidableEq, Repr

namespace FixedBuffer

inductive Failure where
  /-- The buffer cannot hold every message of the type. -/
  | tooSmall (capacity greatest : Nat)
  /-- It could hold every message of the type, but this one could not be written into it. -/
  | write (failure : WriteFailure)
deriving DecidableEq, Repr

def Failure.message? : Failure → Option String
  | tooSmall capacity greatest =>
    some s!"buffer of {capacity} bytes cannot hold a message of up to {greatest} bytes"
  | write _ => none

/-- Encodes into a fresh buffer, provided that it could hold the largest message of the type. -/
def ofMessage {μ : Type} (format : Format μ) (message : μ) (capacity : Nat) :
    Except Failure FixedBuffer :=
  if capacity < format.maxSize then .error (.tooSmall capacity format.maxSize)
  else
    let filled := format.fillTrusting message (List.replicate capacity 0)
    match filled.result with
    | .ok written => .ok ⟨capacity, filled.buffer.take written⟩
    | .error failure => .error (.write failure)

def describe (buffer : FixedBuffer) : String :=
  let bytes := ", ".intercalate (buffer.bytes.map toString)
  "StaticBuffer \x7b capacity: " ++ toString buffer.capacity ++ ", bytes: [" ++ bytes ++ "] \x7d"

end FixedBuffer

end EngineConsole
