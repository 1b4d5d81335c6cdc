import EngineConsole.Message.Format

/-!
# Sizes of messages

The size of a message is the sum of the sizes of the records that write it. The largest size of a message type is known from its format alone, because every list and every text is limited.
-/

namespace EngineConsole

/-! ### The largest size -/

def Leaf.maxSize {α : Type} (number : Nat) : Leaf α → Nat
  | .scalar kind | .optional kind => kind.maxSize number
  | .text capacity | .optionalText capacity => Size.delimited number capacity
  | .floats capacity => Size.floats number capacity

mutual

def Format.maxSize {μ : Type} : Format μ → Nat
  | .record _ fields _ _ _ _ => fields.maxSize

def Fields.maxSize {α : Type} : Fields α → Nat
  | .nil => 0
  | .cons field others => field.maxSize + others.maxSize

def Field.maxSize {α : Type} : Field α → Nat
  | .leaf number _ kind => kind.maxSize number
  | .message number _ format => Size.delimited number format.maxSize
  | .messages number _ capacity format => Size.repeated number capacity format.maxSize
  | .choice _ alternatives _ _ _ _ => alternatives.maxSize

def Alternatives.maxSize {α : Type} : Alternatives α → Nat
  | .nil => 0
  | .signal number _ others => max (Size.delimited number 0) others.maxSize
  | .scalar number _ kind others => max (kind.maxSize number) others.maxSize
  | .message number _ format others => max (Size.delimited number format.maxSize) others.maxSize

end

/-! ### The size of a message at hand -/

def Leaf.size {α : Type} (number : Nat) : Leaf α → α → Nat
  | .scalar kind, value => if kind.isZero value then 0 else kind.size number value
  | .optional kind, value => value.elim 0 (kind.size number)
  | .text _, value => if value.isEmpty then 0 else Text.size number value
  | .optionalText _, value => value.elim 0 (Text.size number)
  | .floats _, values => Floats.size number values

mutual

def Format.size {μ : Type} : Format μ → μ → Nat
  | .record _ fields split _ _ _, message => fields.size (split message)

def Fields.size {α : Type} : Fields α → α → Nat
  | .nil, _ => 0
  | .cons field others, (value, values) => field.size value + others.size values

def Field.size {α : Type} : Field α → α → Nat
  | .leaf number _ kind, value => kind.size number value
  | .message number _ format, value =>
    value.elim 0 fun message => Size.delimited number (format.size message)
  | .messages number _ _ format, values =>
    values.foldr (fun message others => Size.delimited number (format.size message) + others) 0
  | .choice _ alternatives split _ _ _, value =>
    value.elim 0 fun kind => alternatives.size (split kind)

def Alternatives.size {α : Type} : Alternatives α → α → Nat
  | .signal number _ _, .inl () => Size.delimited number 0
  | .signal _ _ others, .inr value => others.size value
  | .scalar number _ kind _, .inl value => kind.size number value
  | .scalar _ _ _ others, .inr value => others.size value
  | .message number _ format _, .inl message => Size.delimited number (format.size message)
  | .message _ _ _ others, .inr value => others.size value

end

end EngineConsole
