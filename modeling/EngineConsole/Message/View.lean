import EngineConsole.Message.Format

/-!
# Views

A view is a message without its types: a tree of names, numbers and texts. Whatever prints a message prints its view.
-/

namespace EngineConsole

inductive View where
  | absent
  | present (value : View)
  | number (value : Nat)
  | float (value : Single)
  | flag (value : Bool)
  | text (value : String)
  | variant (name : String)
  | alternative (name : String) (payload : View)
  | list (items : List View)
  | record (name : String) (members : List (String × View))

namespace View

def ofOption {α : Type} (view : α → View) : Option α → View
  | none => absent
  | some value => present (view value)

end View

def Scalar.view {α : Type} : Scalar α → α → View
  | .uint32, value | .fixed32, value => .number value.toNat
  | .float, value => .float value
  | .bool, value => .flag value
  | .enum enumeration, value => .variant (enumeration.label value)

def Leaf.view {α : Type} : Leaf α → α → View
  | .scalar kind, value => kind.view value
  | .optional kind, value => .ofOption kind.view value
  | .text _, value => .text value
  | .optionalText _, value => .ofOption .text value
  | .floats _, values => .list (values.map .float)

mutual

def Format.view {μ : Type} : Format μ → μ → View
  | .record name fields split _ _ _, message => .record name (fields.view (split message))

def Fields.view {α : Type} : Fields α → α → List (String × View)
  | .nil, _ => []
  | .cons field others, (value, values) => field.view value :: others.view values

def Field.view {α : Type} : Field α → α → String × View
  | .leaf _ name kind, value => (name, kind.view value)
  | .message _ name format, value => (name, .ofOption format.view value)
  | .messages _ name _ format, values => (name, .list (values.map format.view))
  | .choice name alternatives split _ _ _, value =>
    (name, .ofOption (fun kind => alternatives.view (split kind)) value)

def Alternatives.view {α : Type} : Alternatives α → α → View
  | .signal _ name _, .inl () => .variant name
  | .signal _ _ others, .inr value => others.view value
  | .scalar _ name kind _, .inl value => .alternative name (kind.view value)
  | .scalar _ _ _ others, .inr value => others.view value
  | .message _ name format _, .inl message => .alternative name (format.view message)
  | .message _ _ _ others, .inr value => others.view value

end

end EngineConsole
