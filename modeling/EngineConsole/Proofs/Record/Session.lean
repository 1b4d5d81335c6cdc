import EngineConsole.Proofs.Record.Reach
import Mathlib.Data.List.Forall2

/-!
# Reading sessions

A session reads from data in memory, opens spans and closes them again, in any order. Whatever is read comes down to requests to the reader, and each is answered in full or not at all. So the books of a session are kept by its requests alone: where the source stands, what it has delivered and what is left of every open span.
-/

namespace EngineConsole

/-! ### Requests and their answers -/

/-- A computation that reads, told by the requests that it makes. -/
inductive Script (α : Type) where
  | done (value : α)
  | fail (error : TransferError)
  | request (count : Nat) (next : Bytes → Script α)

structure Call where
  count : Nat
  before : Reader
  answer : Except TransferError Bytes
  after : Reader

namespace Call

def bytes (call : Call) : Bytes := call.answer.toOption.getD []

/-- The number of bytes that the call counts for: those that it asked for, if it succeeded. -/
def size (call : Call) : Nat := if call.answer.isOk then call.count else 0

/-- Nothing moved, neither in the source nor in any open span. -/
structure Idle (call : Call) : Prop where
  position : call.after.source.position = call.before.source.position
  rest : call.after.source.rest = call.before.source.rest
  spans : call.after.spans = call.before.spans

def total : List Call → Nat
  | [] => 0
  | call :: calls => call.size + total calls

def delivered (calls : List Call) : Bytes := calls.flatMap bytes

@[simp] theorem total_append (first second : List Call) :
    total (first ++ second) = total first + total second := by
  induction first with
  | nil => exact (Nat.zero_add _).symm
  | cons call calls ih => rw [List.cons_append, total, total, ih, Nat.add_assoc]

@[simp] theorem delivered_append (first second : List Call) :
    delivered (first ++ second) = delivered first ++ delivered second := List.flatMap_append

/-- The calls are made one after the other, from `before` to `after`, and none follows one that fails. -/
inductive Chained : Reader → List Call → Reader → Prop where
  | nil (reader : Reader) : Chained reader [] reader
  | served {before middle after : Reader} {count : Nat} {bytes : Bytes} {calls : List Call} :
    Reader.read count before = .ok bytes middle → Chained middle calls after →
      Chained before (⟨count, before, .ok bytes, middle⟩ :: calls) after
  | refused {before after : Reader} {count : Nat} {error : TransferError} :
    Reader.read count before = .error error after →
      Chained before [⟨count, before, .error error, after⟩] after

section

variable {before after : Reader} {calls : List Call}

theorem Chained.advanced (h : Chained before calls after) : before.Advanced (total calls) after := by
  induction h with
  | nil reader => exact .refl reader
  | served hread _ ih => exact (Reader.advanced_of_read hread).2.trans ih
  | refused hread => exact Reader.advanced_of_refused hread

theorem Chained.delivered (h : Chained before calls after) :
    delivered calls = before.source.rest.take (total calls) := by
  induction h with
  | nil reader => rfl
  | @served before middle after count bytes calls hread _ ih =>
    obtain ⟨rfl, hadvanced⟩ := Reader.advanced_of_read hread
    have htotal : total (⟨count, before, .ok (before.source.rest.take count), middle⟩ :: calls) =
      count + total calls := rfl
    rw [htotal, List.take_add, ← hadvanced.rest, ← ih]
    rfl
  | refused hread => rfl

theorem Chained.idle (h : Chained before calls after) :
    ∀ call ∈ calls, ¬ call.answer.isOk → call.Idle := by
  induction h with
  | nil reader => exact fun _ hcall => nomatch hcall
  | served hread _ ih => exact List.forall_mem_cons.mpr ⟨fun hfailed => absurd rfl hfailed, ih⟩
  | refused hread =>
    have hadvanced := Reader.advanced_of_refused hread
    intro call hcall _
    rw [List.mem_singleton.mp hcall]
    exact ⟨hadvanced.position, hadvanced.rest, by simpa using hadvanced.spans⟩

end

end Call

namespace Script

variable {α β : Type}

def run : Script α → Read α
  | done value => pure value
  | fail error => throw error
  | request count next => do
    let bytes ← Reader.read count
    (next bytes).run

def calls : Script α → Reader → List Call
  | done _, _ => []
  | fail _, _ => []
  | request count next, reader =>
    match Reader.read count reader with
    | .ok bytes after => ⟨count, reader, .ok bytes, after⟩ :: (next bytes).calls after
    | .error error after => [⟨count, reader, .error error, after⟩]

def bind : Script α → (α → Script β) → Script β
  | done value, next => next value
  | fail error, _ => fail error
  | request count more, next => request count fun bytes => (more bytes).bind next

theorem run_bind (script : Script α) (next : α → Script β) :
    (script.bind next).run = script.run >>= fun value => (next value).run := by
  induction script with
  | done value => rfl
  | fail error => rfl
  | request count more ih =>
    funext reader
    simp only [bind, run, Bind.bind, EStateM.bind]
    cases Reader.read count reader with
    | ok bytes after => simp only [ih, Bind.bind, EStateM.bind]
    | error error after => rfl

theorem chained_calls (script : Script α) (reader : Reader) :
    Call.Chained reader (script.calls reader) (script.run.after reader) := by
  induction script generalizing reader with
  | done value => exact .nil reader
  | fail error => exact .nil reader
  | request count next ih =>
    rw [run, Read.after_bind, calls]
    cases hread : Reader.read count reader with
    | ok bytes after => exact .served hread (ih bytes after)
    | error error after => exact .refused hread

theorem chained_of_run {script : Script α} {op : Read α} (h : script.run = op) (reader : Reader) :
    Call.Chained reader (script.calls reader) (op.after reader) := h ▸ script.chained_calls reader

/-! ### What the library reads, as scripts -/

def byte : Script UInt8 := request 1 fun bytes => done (bytes.headD 0)

def groups : Nat → Script Nat
  | 0 => fail .overlongVarint
  | more + 1 => byte.bind fun byte =>
    if byte.toNat < 128 then done byte.toNat
    else (groups more).bind fun high => done (byte.toNat - 128 + 128 * high)

def varint : Script UInt32 := (groups Varint.maxSize).bind fun value => done (UInt32.ofNat value)

def flag : Script Bool := varint.bind fun value => done (value != 0)

def fixed32 : Script UInt32 := request Fixed32.size fun bytes => done (Fixed32.decode bytes)

def single : Script Single := fixed32.bind fun bits => done ⟨bits⟩

def skip : Nat → Nat → Script Unit
  | 0, _ => done ()
  | fuel + 1, left =>
    if left = 0 then done ()
    else request (min left Reader.skipChunk) fun _ => skip fuel (left - min left Reader.skipChunk)

theorem run_byte : byte.run = Reader.readByte := rfl

theorem run_groups (count : Nat) : (groups count).run = Varint.readGroups count := by
  induction count with
  | zero => rfl
  | succ more ih =>
    rw [groups, run_bind, Varint.readGroups, run_byte]
    congr 1
    funext byte
    split
    · rfl
    · rw [run_bind, ih]
      rfl

theorem run_varint : varint.run = Varint.read := by
  rw [varint, run_bind, run_groups]
  rfl

theorem run_flag : flag.run = Varint.readFlag := by
  rw [flag, run_bind, run_varint]
  rfl

theorem run_fixed32 : fixed32.run = Fixed32.read := rfl

theorem run_single : single.run = Single.read := by
  rw [single, run_bind]
  rfl

theorem run_skip (fuel left : Nat) : (skip fuel left).run = Reader.skipBytes fuel left := by
  induction fuel generalizing left with
  | zero => rfl
  | succ fuel ih =>
    rw [skip, Reader.skipBytes]
    split
    · rfl
    · simp only [run, ih]

end Script

/-! ### Sessions -/

inductive Reading where
  | byte
  | bytes (count : Nat)
  | varint
  | fixed32
  | single
  | flag
  | tag
  | skip

namespace Reading

def perform : Reading → Reader → Reader
  | byte => Reader.readByte.after
  | bytes count => (Reader.read count).after
  | varint => Varint.read.after
  | fixed32 => Fixed32.read.after
  | single => Single.read.after
  | flag => Varint.readFlag.after
  | tag => fun reader => (Tag.read reader).2
  | skip => Reader.skipSpan.after

def calls : Reading → Reader → List Call
  | byte => Script.byte.calls
  | bytes count => (Script.request count Script.done).calls
  | varint => Script.varint.calls
  | fixed32 => Script.fixed32.calls
  | single => Script.single.calls
  | flag => Script.flag.calls
  | tag => Script.varint.calls
  | skip => fun reader => (Script.skip reader.spanLeft reader.spanLeft).calls reader

theorem after_tag (reader : Reader) : (Tag.read reader).2 = Varint.read.after reader := by
  rw [Tag.read, Read.after]
  cases Varint.read reader <;> rfl

theorem chained_perform (reading : Reading) (reader : Reader) :
    Call.Chained reader (reading.calls reader) (reading.perform reader) := by
  cases reading with
  | byte => exact Script.chained_of_run Script.run_byte reader
  | bytes count =>
    have hrun : (Script.request count Script.done).run = Reader.read count := bind_pure _
    exact Script.chained_of_run hrun reader
  | varint => exact Script.chained_of_run Script.run_varint reader
  | fixed32 => exact Script.chained_of_run Script.run_fixed32 reader
  | single => exact Script.chained_of_run Script.run_single reader
  | flag => exact Script.chained_of_run Script.run_flag reader
  | tag =>
    have htag : perform tag reader = Varint.read.after reader := after_tag reader
    exact htag ▸ Script.chained_of_run Script.run_varint reader
  | skip => exact Script.chained_of_run (Script.run_skip reader.spanLeft reader.spanLeft) reader

end Reading

inductive Step where
  | read (reading : Reading)
  | enter (length : Nat)
  | leave

/-- An open span: how long it was said to be, where it begins and what has been called for in it since, by the spans inside it too. -/
structure OpenSpan where
  declared : Nat
  start : Nat
  calls : List Call

structure Session where
  reader : Reader
  opened : List OpenSpan
  calls : List Call

namespace Session

def start (data : Bytes) : Session := { reader := .ofBytes data, opened := [], calls := [] }

def step (session : Session) : Step → Session
  | .read reading =>
    let calls := reading.calls session.reader
    { reader := reading.perform session.reader
      opened := session.opened.map fun span => { span with calls := span.calls ++ calls }
      calls := session.calls ++ calls }
  | .enter length =>
    { session with
      reader := session.reader.enter length
      opened := ⟨length, session.reader.source.position, []⟩ :: session.opened }
  | .leave => { session with reader := session.reader.leave, opened := session.opened.tail }

def run (data : Bytes) (steps : List Step) : Session := steps.foldl step (start data)

/-- What is `left` of an open span with the source at `position`. -/
structure Balanced (position : Nat) (left : Nat) (span : OpenSpan) : Prop where
  remaining : left = span.declared - Call.total span.calls
  spent : Call.total span.calls ≤ span.declared
  advanced : position = span.start + Call.total span.calls
  within : position ≤ span.start + span.declared

/-- The books of a session over `data`. -/
structure Accounted (data : Bytes) (session : Session) : Prop where
  position : session.reader.source.position = Call.total session.calls
  inside : session.reader.source.position ≤ data.length
  delivered : Call.delivered session.calls = data.take session.reader.source.position
  rest : session.reader.source.rest = data.drop session.reader.source.position
  spans : List.Forall₂ (Balanced session.reader.source.position) session.reader.spans session.opened
  idle : ∀ call ∈ session.calls, ¬ call.answer.isOk → call.Idle
  next : ∀ reading : Reading, Call.Chained session.reader (reading.calls session.reader)
    (reading.perform session.reader)

variable {data : Bytes} {session : Session}

theorem accounted_start (data : Bytes) : Accounted data (start data) where
  position := rfl
  inside := Nat.zero_le _
  delivered := List.take_zero.symm
  rest := rfl
  spans := .nil
  idle := fun _ hcall => nomatch hcall
  next := fun reading => reading.chained_perform _

/-- A reading that every open span has room for counts against each of them. -/
theorem balanced_map {position : Nat} {spans : List Nat} {opened : List OpenSpan}
    (h : List.Forall₂ (Balanced position) spans opened) {calls : List Call}
    (hallowed : ∀ left ∈ spans, Call.total calls ≤ left) :
    List.Forall₂ (Balanced (position + Call.total calls)) (spans.map (· - Call.total calls))
      (opened.map fun span => { span with calls := span.calls ++ calls }) := by
  induction h with
  | nil => exact .nil
  | cons hspan _ ih =>
    obtain ⟨hleft, hallowed⟩ := List.forall_mem_cons.mp hallowed
    obtain ⟨hremaining, hspent, hadvanced, hwithin⟩ := hspan
    refine .cons ?_ (ih hallowed)
    constructor <;> simp only [Call.total_append] <;> omega

theorem Accounted.read (h : Accounted data session) (reading : Reading) :
    Accounted data (session.step (.read reading)) := by
  have hchained := reading.chained_perform session.reader
  have hadvanced := hchained.advanced
  have hheld := hadvanced.held
  rw [Reader.unread, h.rest, List.length_drop] at hheld
  have hinside := h.inside
  constructor <;> simp only [step]
  case position => rw [hadvanced.position, h.position, Call.total_append]
  case inside =>
    rw [hadvanced.position]
    omega
  case delivered =>
    rw [Call.delivered_append, h.delivered, hchained.delivered, hadvanced.position, h.rest, List.take_add]
  case rest => rw [hadvanced.rest, hadvanced.position, h.rest, List.drop_drop]
  case spans =>
    rw [hadvanced.position, hadvanced.spans]
    exact balanced_map h.spans hadvanced.allowed
  case idle => exact List.forall_mem_append.mpr ⟨h.idle, hchained.idle⟩
  case next => exact fun reading => reading.chained_perform _

theorem Accounted.step (h : Accounted data session) (step : Step) :
    Accounted data (session.step step) := by
  cases step with
  | read reading => exact h.read reading
  | enter length =>
    have hopened : Balanced session.reader.source.position length
        ⟨length, session.reader.source.position, []⟩ := ⟨rfl, Nat.zero_le _, rfl, Nat.le_add_right _ _⟩
    exact ⟨h.position, h.inside, h.delivered, h.rest, .cons hopened h.spans, h.idle,
      fun reading => reading.chained_perform _⟩
  | leave =>
    have hspans : List.Forall₂ (Balanced session.reader.source.position)
        session.reader.spans.tail session.opened.tail := by
      rw [← List.drop_one, ← List.drop_one]
      exact List.forall₂_drop 1 h.spans
    exact ⟨h.position, h.inside, h.delivered, h.rest, hspans, h.idle,
      fun reading => reading.chained_perform _⟩

/-- By induction on the steps: each of them leaves the books right for the next. -/
theorem Accounted.foldl (h : Accounted data session) (steps : List Step) :
    Accounted data (steps.foldl Session.step session) := by
  induction steps generalizing session with
  | nil => exact h
  | cons step steps ih => exact ih (h.step step)

/-- The books of every session are right. -/
theorem accounted_run (data : Bytes) (steps : List Step) : Accounted data (run data steps) :=
  (accounted_start data).foldl steps

/-- The inner span promises more than the outer one has, so the four bytes are refused and the rest of the outer span is skipped. -/
example : (run [1, 2, 3, 4, 5] [.enter 3, .enter 9, .read .byte, .read .fixed32, .leave, .read .skip]).calls.map
    (fun call => (call.count, call.answer)) =
      [(1, .ok [1]), (4, .error (.endOfData 4 2)), (2, .ok [2, 3])] := by rfl

end Session

end EngineConsole
