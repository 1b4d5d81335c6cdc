import EngineConsole.Message.Encode
import EngineConsole.Proofs.Bytes.Handover

/-!
# Encoding as a stream

A message need not become a list of chunks before the first of them is written: it can be written field by field, each header right before its content, and given up at the first chunk that is refused. For every sink this comes to the same as handing over the list. So the list is determined by the message alone.
-/

namespace EngineConsole

variable {σ ε : Type}

/-! ### Writing while walking through the message -/

/-- Writes the value of a field: a text after its header, and the floats one by one after theirs. -/
def Leaf.emit {α : Type} (accept : Bytes → EStateM ε σ Unit) (number : Nat) :
    Leaf α → α → EStateM ε σ Unit
  | .scalar kind, value => if kind.isZero value then pure () else accept (kind.encode number value)
  | .optional kind, value => value.elim (pure ()) fun value => accept (kind.encode number value)
  | .text _, value => if value.isEmpty then pure () else emitText value
  | .optionalText _, value => value.elim (pure ()) emitText
  | .floats _, values =>
    if values.isEmpty then pure ()
    else do
      accept (Delimited.header number (values.length * Fixed32.size))
      values.forM fun value => accept value.encode
where
  emitText (text : String) : EStateM ε σ Unit := do
    accept (Delimited.header number (Text.bytes text).length)
    accept (Text.bytes text)

mutual

/-- Writes the fields of a message to a sink that takes a chunk by `accept`. -/
def Format.emit {μ : Type} (accept : Bytes → EStateM ε σ Unit) : Format μ → μ → EStateM ε σ Unit
  | .record _ fields split _ _ _, message => fields.emit accept (split message)

def Fields.emit {α : Type} (accept : Bytes → EStateM ε σ Unit) : Fields α → α → EStateM ε σ Unit
  | .nil, _ => pure ()
  | .cons field others, (value, values) => do
    field.emit accept value
    others.emit accept values

/-- Writes a field. Of a message inside it the size is counted first and written in the header, and then its own fields are written. -/
def Field.emit {α : Type} (accept : Bytes → EStateM ε σ Unit) : Field α → α → EStateM ε σ Unit
  | .leaf number _ kind, value => kind.emit accept number value
  | .message number _ format, value =>
    value.elim (pure ()) fun message => do
      accept (Delimited.header number (format.size message))
      format.emit accept message
  | .messages number _ _ format, values =>
    values.forM fun message => do
      accept (Delimited.header number (format.size message))
      format.emit accept message
  | .choice _ alternatives split _ _ _, value =>
    value.elim (pure ()) fun kind => alternatives.emit accept (split kind)

def Alternatives.emit {α : Type} (accept : Bytes → EStateM ε σ Unit) :
    Alternatives α → α → EStateM ε σ Unit
  | .signal number _ _, .inl () => accept (Delimited.header number 0)
  | .signal _ _ others, .inr value => others.emit accept value
  | .scalar number _ kind _, .inl value => accept (kind.encode number value)
  | .scalar _ _ _ others, .inr value => others.emit accept value
  | .message number _ format _, .inl message => do
    accept (Delimited.header number (format.size message))
    format.emit accept message
  | .message _ _ _ others, .inr value => others.emit accept value

end

/-! ### The list of chunks says it all -/

variable (accept : Bytes → EStateM ε σ Unit)

theorem Leaf.emit_eq_forM {α : Type} (number : Nat) (kind : Leaf α) (value : α) :
    kind.emit accept number value = (kind.encode number value).forM accept := by
  have htext : ∀ text : String,
      emit.emitText accept number text = (Text.encode number text).forM accept := fun text => by
    simp [emit.emitText, Text.encode]
  cases kind with
  | scalar kind =>
    rw [emit, encode]
    split
    · rfl
    · simp
  | optional kind =>
    cases value with
    | none => rfl
    | some value => simp [emit, encode]
  | text capacity =>
    rw [emit, encode]
    split
    · rfl
    · exact htext value
  | optionalText capacity =>
    cases value with
    | none => rfl
    | some text => exact htext text
  | floats capacity =>
    rw [emit, encode, Floats.encode]
    split
    · rfl
    · simp

mutual

theorem Format.emit_eq_forM {μ : Type} : (format : Format μ) → (message : μ) →
    format.emit accept message = (format.encode message).forM accept
  | .record _ fields split _ _ _, message => by
    rw [Format.emit, Format.encode, fields.emit_eq_forM]

theorem Fields.emit_eq_forM {α : Type} : (fields : Fields α) → (values : α) →
    fields.emit accept values = (fields.encode values).forM accept
  | .nil, _ => rfl
  | .cons field others, (value, values) => by
    rw [Fields.emit, Fields.encode, field.emit_eq_forM, others.emit_eq_forM, List.forM_eq_forM,
      List.forM_append]

theorem Field.emit_eq_forM {α : Type} : (field : Field α) → (value : α) →
    field.emit accept value = (field.encode value).forM accept
  | .leaf number _ kind, value => kind.emit_eq_forM accept number value
  | .message _ _ _, none => rfl
  | .message number _ format, some message => by
    rw [Field.emit, Field.encode, Option.elim_some, Option.elim_some, format.emit_eq_forM]
    rfl
  | .messages number _ _ format, values => by
    rw [Field.emit, Field.encode]
    induction values with
    | nil => rfl
    | cons message values ih =>
      rw [List.flatMap_cons, List.forM_eq_forM, List.forM_eq_forM, List.forM_append, List.forM_cons,
        format.emit_eq_forM]
      exact congrArg _ (funext fun _ => ih)
  | .choice _ _ _ _ _ _, none => rfl
  | .choice _ alternatives split _ _ _, some kind => alternatives.emit_eq_forM (split kind)

theorem Alternatives.emit_eq_forM {α : Type} : (alternatives : Alternatives α) → (value : α) →
    alternatives.emit accept value = (alternatives.encode value).forM accept
  | .signal number _ _, .inl () => by simp [Alternatives.emit, Alternatives.encode]
  | .signal _ _ others, .inr value => others.emit_eq_forM value
  | .scalar number _ kind _, .inl value => by simp [Alternatives.emit, Alternatives.encode]
  | .scalar _ _ _ others, .inr value => others.emit_eq_forM value
  | .message number _ format _, .inl message => by
    rw [Alternatives.emit, Alternatives.encode, format.emit_eq_forM]
    rfl
  | .message _ _ _ others, .inr value => others.emit_eq_forM value

end

/-- Every sink that is written to field by field is handed the chunks of the message. -/
theorem Format.handed_emit {μ : Type} (format : Format μ) (message : μ) (sink : σ) :
    Sink.Handed accept (format.encode message) sink (format.emit accept message sink) := by
  rw [format.emit_eq_forM]
  exact Sink.handed_forM accept _ sink

end EngineConsole
