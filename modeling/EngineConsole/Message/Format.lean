import EngineConsole.Record.Floats
import EngineConsole.Record.Scalar
import EngineConsole.Record.Text

/-!
# Message formats

A format describes the messages of one type: its fields in the order in which they are written, each with its number, its name and its rule of presence. Encoding, decoding, sizes and printing are each one function of the format, so what holds of the format's structure holds of every message type at once.

A message type is an ordinary structure. Its format also says how a message splits into the nested pair of its fields and how it is joined again, and that the two are inverse.
-/

namespace EngineConsole

/-- The fields that hold no message, each with the type of its values. -/
inductive Leaf : Type → Type 1 where
  /-- A scalar of implicit presence: a zero is not written. -/
  | scalar {α : Type} (scalar : Scalar α) : Leaf α
  | optional {α : Type} (scalar : Scalar α) : Leaf (Option α)
  /-- A text of implicit presence, of at most `capacity` bytes: the empty text is not written. -/
  | text (capacity : Nat) : Leaf String
  | optionalText (capacity : Nat) : Leaf (Option String)
  | floats (capacity : Nat) : Leaf (List Single)

mutual

inductive Format : Type → Type 1 where
  | record {μ α : Type} (name : String) (fields : Fields α) (split : μ → α) (join : α → μ)
      (join_split : ∀ message, join (split message) = message)
      (split_join : ∀ values, split (join values) = values) : Format μ

inductive Fields : Type → Type 1 where
  | nil : Fields Unit
  | cons {α β : Type} (field : Field α) (others : Fields β) : Fields (α × β)

inductive Field : Type → Type 1 where
  | leaf {α : Type} (number : Nat) (name : String) (leaf : Leaf α) : Field α
  | message {μ : Type} (number : Nat) (name : String) (format : Format μ) : Field (Option μ)
  | messages {μ : Type} (number : Nat) (name : String) (capacity : Nat) (format : Format μ) :
      Field (List μ)
  | choice {κ α : Type} (name : String) (alternatives : Alternatives α) (split : κ → α)
      (join : α → κ) (join_split : ∀ kind, join (split kind) = kind)
      (split_join : ∀ value, split (join value) = value) : Field (Option κ)

/-- The alternatives of a choice, each with a field number of its own. -/
inductive Alternatives : Type → Type 1 where
  | nil : Alternatives Empty
  | signal {β : Type} (number : Nat) (name : String) (others : Alternatives β) :
      Alternatives (Unit ⊕ β)
  | scalar {α β : Type} (number : Nat) (name : String) (scalar : Scalar α)
      (others : Alternatives β) : Alternatives (α ⊕ β)
  | message {μ β : Type} (number : Nat) (name : String) (format : Format μ)
      (others : Alternatives β) : Alternatives (μ ⊕ β)

end

namespace Format

def name {μ : Type} : Format μ → String
  | .record name .. => name

end Format

def emptyFormat : Format Unit :=
  .record "Empty" .nil id id (fun _ => rfl) (fun _ => rfl)

def Alternatives.number {α : Type} : Alternatives α → α → Nat
  | .signal number _ _, .inl () => number
  | .scalar number _ _ _, .inl _ => number
  | .message number _ _ _, .inl _ => number
  | .signal _ _ others, .inr value => others.number value
  | .scalar _ _ _ others, .inr value => others.number value
  | .message _ _ _ others, .inr value => others.number value

namespace Fields

abbrev scalar {α β : Type} (number : Nat) (name : String) (scalar : Scalar α)
    (others : Fields β) : Fields (α × β) :=
  .cons (.leaf number name (.scalar scalar)) others

abbrev optional {α β : Type} (number : Nat) (name : String) (scalar : Scalar α)
    (others : Fields β) : Fields (Option α × β) :=
  .cons (.leaf number name (.optional scalar)) others

abbrev text {β : Type} (number : Nat) (name : String) (capacity : Nat)
    (others : Fields β) : Fields (String × β) :=
  .cons (.leaf number name (.text capacity)) others

abbrev optionalText {β : Type} (number : Nat) (name : String) (capacity : Nat)
    (others : Fields β) : Fields (Option String × β) :=
  .cons (.leaf number name (.optionalText capacity)) others

abbrev floats {β : Type} (number : Nat) (name : String) (capacity : Nat)
    (others : Fields β) : Fields (List Single × β) :=
  .cons (.leaf number name (.floats capacity)) others

abbrev message {μ β : Type} (number : Nat) (name : String) (format : Format μ)
    (others : Fields β) : Fields (Option μ × β) :=
  .cons (.message number name format) others

abbrev messages {μ β : Type} (number : Nat) (name : String) (capacity : Nat) (format : Format μ)
    (others : Fields β) : Fields (List μ × β) :=
  .cons (.messages number name capacity format) others

end Fields

/-! ### Messages in which nothing was set -/

namespace Leaf

def default {α : Type} : Leaf α → α
  | scalar kind => kind.default
  | optional _ => none
  | text _ => ""
  | optionalText _ => none
  | floats _ => []

end Leaf

def Field.default {α : Type} : Field α → α
  | .leaf _ _ kind => kind.default
  | .message .. => none
  | .messages .. => []
  | .choice .. => none

def Fields.default {α : Type} : Fields α → α
  | .nil => ()
  | .cons field others => (field.default, others.default)

def Format.default {μ : Type} : Format μ → μ
  | .record _ fields _ join _ _ => join fields.default

end EngineConsole
