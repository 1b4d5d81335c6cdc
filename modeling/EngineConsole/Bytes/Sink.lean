import EngineConsole.Bytes.TransferError

/-!
# Byte sinks

An encoding is a list of chunks. A sink takes the chunks one by one and stops at the first that it does not take: what it took before stays, and it is offered nothing after.
-/

namespace EngineConsole

/-- Why a sink did not take a chunk. -/
inductive WriteFailure where
  | refused (error : TransferError)
  /-- The chunk would run past the end of a buffer that its caller promised to be large enough. -/
  | overrun
deriving DecidableEq, Repr

def Bytes.overwrite (buffer : Bytes) (position : Nat) (chunk : Bytes) : Bytes :=
  buffer.take position ++ chunk ++ buffer.drop (position + chunk.length)

def Bytes.store (buffer : Bytes) (place : Nat) (byte : UInt8) : Except WriteFailure Bytes :=
  if place < buffer.length then .ok (buffer.set place byte) else .error .overrun

/-- Parts a buffer at one of its places or at its end. Where it ends before that, it is an overrun. -/
def Bytes.cut (buffer : Bytes) (place : Nat) : Except WriteFailure (Bytes × Bytes) :=
  if place ≤ buffer.length then .ok (buffer.take place, buffer.drop place) else .error .overrun

inductive Sink where
  | collecting (chunks : List Bytes)
  /-- Fills a buffer from `position` on and refuses a chunk that does not fit. -/
  | checked (buffer : Bytes) (position : Nat)
  /-- Fills a buffer from `position` on; a chunk that does not fit is an overrun. -/
  | trusting (buffer : Bytes) (position : Nat)
  | counting (total : Nat)
  /-- Offers each chunk to a callback whose calls are numbered from zero and which refuses those that `refuses` names; keeps what was taken, the latest first. -/
  | callback (refuses : Nat → Bool) (calls : Nat) (taken : List Bytes)

namespace Sink

def write (chunk : Bytes) : EStateM WriteFailure Sink Unit
  | .collecting chunks => .ok () (.collecting (chunk :: chunks))
  | .checked buffer position =>
    let available := buffer.length - position
    if available < chunk.length then
      .error (.refused (.bufferFull chunk.length available)) (.checked buffer position)
    else .ok () (.checked (buffer.overwrite position chunk) (position + chunk.length))
  | .trusting buffer position =>
    if buffer.length < position + chunk.length then .error .overrun (.trusting buffer position)
    else .ok () (.trusting (buffer.overwrite position chunk) (position + chunk.length))
  | .counting total => .ok () (.counting (total + chunk.length))
  | .callback refuses calls taken =>
    if refuses calls then .error (.refused .sinkRejected) (.callback refuses (calls + 1) taken)
    else .ok () (.callback refuses (calls + 1) (chunk :: taken))

/-- Offers the chunks in order up to the first that is not taken. -/
def writeAll : List Bytes → EStateM WriteFailure Sink Unit
  | [] => pure ()
  | chunk :: chunks => do
    write chunk
    writeAll chunks

/-- The chunks that the sink keeps, in the order in which they were taken. -/
def chunks : Sink → List Bytes
  | .collecting kept => kept.reverse
  | .callback _ _ taken => taken.reverse
  | _ => []

def buffer : Sink → Bytes
  | .checked buffer _ => buffer
  | .trusting buffer _ => buffer
  | _ => []

/-- The number of bytes taken by a sink that counts them or fills a buffer. -/
def written : Sink → Nat
  | .checked _ position => position
  | .trusting _ position => position
  | .counting total => total
  | _ => 0

end Sink

end EngineConsole
