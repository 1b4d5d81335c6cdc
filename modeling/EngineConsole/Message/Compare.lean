import EngineConsole.Message.Format

/-!
# Comparing messages

Two messages are alike if they agree field by field, where floats are compared as numbers: the two zeros are alike, and a NaN is not like anything.
-/

namespace EngineConsole

def Scalar.alike {α : Type} : Scalar α → α → α → Bool
  | .uint32, x, y | .fixed32, x, y | .bool, x, y => x == y
  | .float, x, y => x.sameNumber y
  | .enum enumeration, x, y => enumeration.number x == enumeration.number y

def Option.alike {α : Type} (alike : α → α → Bool) : Option α → Option α → Bool
  | none, none => true
  | some x, some y => alike x y
  | _, _ => false

def List.alike {α : Type} (alike : α → α → Bool) : List α → List α → Bool
  | [], [] => true
  | x :: xs, y :: ys => alike x y && List.alike alike xs ys
  | _, _ => false

def Leaf.alike {α : Type} : Leaf α → α → α → Bool
  | .scalar kind, x, y => kind.alike x y
  | .optional kind, x, y => Option.alike kind.alike x y
  | .text _, x, y => x == y
  | .optionalText _, x, y => x == y
  | .floats _, xs, ys => List.alike Single.sameNumber xs ys

mutual

def Format.alike {μ : Type} : Format μ → μ → μ → Bool
  | .record _ fields split _ _ _, x, y => fields.alike (split x) (split y)

def Fields.alike {α : Type} : Fields α → α → α → Bool
  | .nil, _, _ => true
  | .cons field others, (x, xs), (y, ys) => field.alike x y && others.alike xs ys

def Field.alike {α : Type} : Field α → α → α → Bool
  | .leaf _ _ kind, x, y => kind.alike x y
  | .message _ _ format, x, y => Option.alike format.alike x y
  | .messages _ _ _ format, xs, ys => List.alike format.alike xs ys
  | .choice _ alternatives split _ _ _, x, y =>
    Option.alike alternatives.alike (x.map split) (y.map split)

def Alternatives.alike {α : Type} : Alternatives α → α → α → Bool
  | .signal _ _ _, .inl (), .inl () => true
  | .signal _ _ others, .inr x, .inr y => others.alike x y
  | .scalar _ _ kind _, .inl x, .inl y => kind.alike x y
  | .scalar _ _ _ others, .inr x, .inr y => others.alike x y
  | .message _ _ format _, .inl x, .inl y => format.alike x y
  | .message _ _ _ others, .inr x, .inr y => others.alike x y
  | _, _, _ => false

end

end EngineConsole
