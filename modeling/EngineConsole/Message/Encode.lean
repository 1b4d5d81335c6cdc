import EngineConsole.Bytes.Sink
import EngineConsole.Message.Size

/-!
# Encoding

The encoding of a message is a list of chunks: one for each scalar record, one for each header of a delimited record, one for the bytes of a text and one for each packed float. Every sink is offered these chunks in this order, so the sinks differ only in which of them they take.
-/

namespace EngineConsole

def Leaf.encode {α : Type} (number : Nat) : Leaf α → α → List Bytes
  | .scalar kind, value => if kind.isZero value then [] else [kind.encode number value]
  | .optional kind, value => value.elim [] fun value => [kind.encode number value]
  | .text _, value => if value.isEmpty then [] else Text.encode number value
  | .optionalText _, value => value.elim [] (Text.encode number)
  | .floats _, values => Floats.encode number values

mutual

def Format.encode {μ : Type} : Format μ → μ → List Bytes
  | .record _ fields split _ _ _, message => fields.encode (split message)

def Fields.encode {α : Type} : Fields α → α → List Bytes
  | .nil, _ => []
  | .cons field others, (value, values) => field.encode value ++ others.encode values

def Field.encode {α : Type} : Field α → α → List Bytes
  | .leaf number _ kind, value => kind.encode number value
  | .message number _ format, value =>
    value.elim [] fun message =>
      Delimited.header number (format.size message) :: format.encode message
  | .messages number _ _ format, values =>
    values.flatMap fun message =>
      Delimited.header number (format.size message) :: format.encode message
  | .choice _ alternatives split _ _ _, value =>
    value.elim [] fun kind => alternatives.encode (split kind)

def Alternatives.encode {α : Type} : Alternatives α → α → List Bytes
  | .signal number _ _, .inl () => [Delimited.header number 0]
  | .signal _ _ others, .inr value => others.encode value
  | .scalar number _ kind _, .inl value => [kind.encode number value]
  | .scalar _ _ _ others, .inr value => others.encode value
  | .message number _ format _, .inl message =>
    Delimited.header number (format.size message) :: format.encode message
  | .message _ _ _ others, .inr value => others.encode value

end

namespace Format

variable {μ : Type}

def bytes (format : Format μ) (message : μ) : Bytes := (format.encode message).flatten

def writeTo (format : Format μ) (message : μ) (sink : Sink) : EStateM.Result WriteFailure Sink Unit :=
  Sink.writeAll (format.encode message) sink

end Format

end EngineConsole
