import EngineConsole.Console.Catalogue
import EngineConsole.Message.Decode
import EngineConsole.Proofs.Record.Codec

/-!
# Well-formed formats

What a format has to keep to so that its messages can be told apart on the line: the fields of a message have different numbers, the numbers fit in a tag, every length fits in 32 bits, and whatever has a capacity has room for something. Whether a format keeps to it can be computed, and every format of the console link does.
-/

namespace EngineConsole

/-! ### Field numbers -/

def Alternatives.numbers {α : Type} : Alternatives α → List Nat
  | .nil => []
  | .signal number _ others => number :: others.numbers
  | .scalar number _ _ others => number :: others.numbers
  | .message number _ _ others => number :: others.numbers

/-- The numbers under which a field is written. A choice has several. -/
def Field.numbers {α : Type} : Field α → List Nat
  | .leaf number _ _ => [number]
  | .message number _ _ => [number]
  | .messages number _ _ _ => [number]
  | .choice _ alternatives _ _ _ _ => alternatives.numbers

def Fields.numbers {α : Type} : Fields α → List Nat
  | .nil => []
  | .cons field others => field.numbers ++ others.numbers

theorem Alternatives.mem_numbers_of_accepts {α : Type} {tag : Tag} : (alternatives : Alternatives α) →
    alternatives.accepts tag = true → tag.number ∈ alternatives.numbers
  | .nil, h => by simp [accepts] at h
  | .signal number _ others, h | .scalar number _ _ others, h | .message number _ _ others, h => by
    rw [accepts, Bool.or_eq_true, beq_iff_eq] at h
    rw [numbers, List.mem_cons]
    exact h.imp (fun htag => congrArg Tag.number htag) others.mem_numbers_of_accepts

theorem Field.mem_numbers_of_accepts {α : Type} {tag : Tag} {field : Field α}
    (h : field.accepts tag = true) : tag.number ∈ field.numbers := by
  cases field with
  | leaf number name kind =>
    rw [accepts, Bool.and_eq_true, beq_iff_eq] at h
    exact List.mem_singleton.mpr h.1
  | message number name format =>
    rw [accepts, beq_iff_eq] at h
    exact List.mem_singleton.mpr (congrArg Tag.number h)
  | messages number name capacity format =>
    rw [accepts, beq_iff_eq] at h
    exact List.mem_singleton.mpr (congrArg Tag.number h)
  | choice name alternatives split join join_split split_join =>
    exact alternatives.mem_numbers_of_accepts h

/-! ### Well-formedness -/

/-- The scalar is well formed, or the capacity is not zero and the length of a full field fits in 32 bits. -/
def Leaf.wellFormed {α : Type} : Leaf α → Bool
  | .scalar kind | .optional kind => kind.wellFormed
  | .text capacity | .optionalText capacity => 0 < capacity && capacity < 0x100000000
  | .floats capacity => 0 < capacity && capacity * 4 < 0x100000000

mutual

/-- The fields have different numbers and are well formed. -/
def Format.wellFormed {μ : Type} : Format μ → Bool
  | .record _ fields _ _ _ _ => decide fields.numbers.Nodup && fields.wellFormed

def Fields.wellFormed {α : Type} : Fields α → Bool
  | .nil => true
  | .cons field others => field.wellFormed && others.wellFormed

/-- The number fits in a tag, the length of every message fits in 32 bits, and what the field holds is well formed. -/
def Field.wellFormed {α : Type} : Field α → Bool
  | .leaf number _ kind => number < 0x20000000 && kind.wellFormed
  | .message number _ format => number < 0x20000000 && format.maxSize < 0x100000000 && format.wellFormed
  | .messages number _ _ format =>
    number < 0x20000000 && format.maxSize < 0x100000000 && format.wellFormed
  | .choice _ alternatives _ _ _ _ => decide alternatives.numbers.Nodup && alternatives.wellFormed

def Alternatives.wellFormed {α : Type} : Alternatives α → Bool
  | .nil => true
  | .signal number _ others => number < 0x20000000 && others.wellFormed
  | .scalar number _ kind others => number < 0x20000000 && kind.wellFormed && others.wellFormed
  | .message number _ format others =>
    number < 0x20000000 && format.maxSize < 0x100000000 && format.wellFormed && others.wellFormed

end

namespace MessageType

theorem wellFormed_format (type : MessageType) : type.format.wellFormed = true := by
  cases type <;> decide +kernel

/-- The messages of the console link are far shorter than 32 bits can tell. -/
theorem maxSize_le (type : MessageType) : type.format.maxSize ≤ 0xfffffffb := by
  cases type <;> decide +kernel

theorem maxSize_lt (type : MessageType) : type.format.maxSize < 0x100000000 :=
  Nat.lt_of_le_of_lt type.maxSize_le (by decide)

end MessageType

end EngineConsole
