import EngineConsole.Proofs.Message.Overlay

/-!
# Decoding what was encoded

A message that is decoded from its own encoding comes back bit for bit, with one exception. A field of implicit presence is not written when it holds zero, and both zeros count: a negative zero comes back as the positive one. That is the plain form of a message, and it has the same encoding.
-/

namespace EngineConsole

/-! ### Plain messages -/

def Single.negativeZero : Single := ⟨0x80000000⟩

theorem Single.isZero_iff (x : Single) : x.isZero = true ↔ x = zero ∨ x = negativeZero := by
  have hlt := x.bits.toNat_lt
  have hbits : ∀ y : Single, x = y ↔ x.bits.toNat = y.bits.toNat := fun y => by
    rw [Single.mk.injEq, UInt32.toNat_inj]
  have hzero : zero.bits.toNat = 0 := rfl
  have hnegative : negativeZero.bits.toNat = 0x80000000 := rfl
  rw [hbits, hbits, hzero, hnegative, isZero, decide_eq_true_eq]
  omega

/-- A negative zero becomes a positive one; every other value is left as it is. -/
def Scalar.plain {α : Type} : Scalar α → α → α
  | .float, value => if value = .negativeZero then .zero else value
  | _, value => value

def Leaf.plain {α : Type} : Leaf α → α → α
  | .scalar kind, value => kind.plain value
  | _, value => value

mutual

/-- The message with a positive zero wherever a field of implicit presence holds a negative one, at every depth. -/
def Format.plain {μ : Type} : Format μ → μ → μ
  | .record _ fields split join _ _, message => join (fields.plain (split message))

def Fields.plain {α : Type} : Fields α → α → α
  | .nil, _ => ()
  | .cons field others, (value, values) => (field.plain value, others.plain values)

def Field.plain {α : Type} : Field α → α → α
  | .leaf _ _ kind, value => kind.plain value
  | .message _ _ format, value => value.map format.plain
  | .messages _ _ _ format, values => values.map format.plain
  | .choice _ alternatives split join _ _, value =>
    value.map fun kind => join (alternatives.plain (split kind))

/-- The chosen alternative in plain form. A scalar that was chosen is written whatever it holds, so it does not change. -/
def Alternatives.plain {α : Type} : Alternatives α → α → α
  | .signal _ _ _, .inl () => .inl ()
  | .signal _ _ others, .inr value => .inr (others.plain value)
  | .scalar _ _ _ _, .inl value => .inl value
  | .scalar _ _ _ others, .inr value => .inr (others.plain value)
  | .message _ _ format _, .inl message => .inl (format.plain message)
  | .message _ _ _ others, .inr value => .inr (others.plain value)

end

/-! ### Laid over nothing, a message becomes plain -/

theorem Scalar.ite_isZero_default {α : Type} (scalar : Scalar α) (value : α) :
    (if scalar.isZero value = true then scalar.default else value) = scalar.plain value := by
  cases scalar with
  | uint32 =>
    split
    · rename_i hzero
      exact (beq_iff_eq.mp hzero).symm
    · rfl
  | fixed32 =>
    split
    · rename_i hzero
      exact (beq_iff_eq.mp hzero).symm
    · rfl
  | float =>
    rw [isZero, plain, default]
    by_cases hnegative : value = .negativeZero
    · rw [if_pos hnegative, if_pos ((Single.isZero_iff value).mpr (.inr hnegative))]
    · rw [if_neg hnegative]
      split
      · rename_i hzero
        exact (((Single.isZero_iff value).mp hzero).resolve_right hnegative).symm
      · rfl
  | bool => cases value <;> rfl
  | enum enumeration =>
    split
    · rename_i hzero
      exact (enumeration.eq_first_of_number_eq_zero (beq_iff_eq.mp hzero)).symm
    · rfl

theorem Leaf.overlay_default {α : Type} (kind : Leaf α) (value : α) :
    kind.overlay kind.default value = kind.plain value := by
  cases kind with
  | scalar kind => exact kind.ite_isZero_default value
  | optional kind => cases value <;> rfl
  | text capacity =>
    show (if value.isEmpty = true then "" else value) = value
    split
    · rename_i hempty
      exact (String.isEmpty_iff.mp hempty).symm
    · rfl
  | optionalText capacity => cases value <;> rfl
  | floats capacity => rfl

mutual

theorem Format.overlay_default {μ : Type} : (format : Format μ) → (message : μ) →
    format.overlay format.default message = format.plain message
  | .record _ fields split join _ split_join, message => by
    rw [Format.overlay, Format.default, split_join, fields.overlay_default, Format.plain]

theorem Fields.overlay_default {α : Type} : (fields : Fields α) → (values : α) →
    fields.overlay fields.default values = fields.plain values
  | .nil, _ => rfl
  | .cons field others, (value, values) => by
    rw [Fields.default, Fields.overlay, field.overlay_default, others.overlay_default, Fields.plain]

theorem Field.overlay_default {α : Type} : (field : Field α) → (value : α) →
    field.overlay field.default value = field.plain value
  | .leaf _ _ kind, value => kind.overlay_default value
  | .message _ _ _, none => rfl
  | .message _ _ format, some message => congrArg some (format.overlay_default message)
  | .messages _ _ _ format, values => by
    have helement : format.overlay format.default = format.plain := funext format.overlay_default
    rw [Field.default, Field.overlay, helement, List.nil_append, Field.plain]
  | .choice _ _ _ _ _ _, none => rfl
  | .choice _ alternatives split join _ _, some kind => by
    have hchosen := alternatives.overlay_none (split kind)
    rw [Field.default, Field.overlay, Option.elim_some, Option.map_none, hchosen]
    rfl

theorem Alternatives.overlay_none {α : Type} : (alternatives : Alternatives α) → (value : α) →
    alternatives.overlay none value = alternatives.plain value
  | .signal _ _ _, .inl () => rfl
  | .signal _ _ others, .inr value => congrArg Sum.inr (others.overlay_none value)
  | .scalar _ _ _ _, .inl _ => rfl
  | .scalar _ _ _ others, .inr value => congrArg Sum.inr (others.overlay_none value)
  | .message _ _ format _, .inl message => congrArg Sum.inl (format.overlay_default message)
  | .message _ _ _ others, .inr value => congrArg Sum.inr (others.overlay_none value)

end

/-! ### The plain form is within capacity and has the same encoding -/

theorem Leaf.within_plain {α : Type} (kind : Leaf α) (value : α) :
    kind.within (kind.plain value) = kind.within value := by
  cases kind <;> rfl

theorem Scalar.isZero_plain {α : Type} (scalar : Scalar α) (value : α) :
    scalar.isZero (scalar.plain value) = scalar.isZero value := by
  cases scalar with
  | float =>
    rw [plain]
    split
    · rename_i hnegative
      rw [hnegative]
      rfl
    · rfl
  | _ => rfl

theorem Scalar.plain_of_isZero_eq_false {α : Type} {scalar : Scalar α} {value : α}
    (h : ¬ scalar.isZero value = true) : scalar.plain value = value := by
  rw [← scalar.ite_isZero_default, if_neg h]

theorem Leaf.encode_plain {α : Type} (number : Nat) (kind : Leaf α) (value : α) :
    kind.encode number (kind.plain value) = kind.encode number value := by
  cases kind with
  | scalar kind =>
    rw [encode, encode, plain, kind.isZero_plain]
    split
    · rfl
    · rename_i hzero
      rw [kind.plain_of_isZero_eq_false hzero]
  | _ => rfl

mutual

theorem Format.within_plain {μ : Type} : (format : Format μ) → (message : μ) →
    format.within (format.plain message) = format.within message
  | .record _ fields split _ _ split_join, message => by
    rw [Format.plain, Format.within, split_join, fields.within_plain, Format.within]

theorem Fields.within_plain {α : Type} : (fields : Fields α) → (values : α) →
    fields.within (fields.plain values) = fields.within values
  | .nil, _ => rfl
  | .cons field others, (value, values) => by
    rw [Fields.plain, Fields.within, field.within_plain, others.within_plain, Fields.within]

theorem Field.within_plain {α : Type} : (field : Field α) → (value : α) →
    field.within (field.plain value) = field.within value
  | .leaf _ _ kind, value => kind.within_plain value
  | .message _ _ _, none => rfl
  | .message _ _ format, some message => format.within_plain message
  | .messages _ _ _ format, values => by
    have helement : format.within ∘ format.plain = format.within := funext format.within_plain
    rw [Field.plain, Field.within, List.length_map, List.all_map, helement, Field.within]
  | .choice _ _ _ _ _ _, none => rfl
  | .choice _ alternatives split join _ split_join, some kind => by
    rw [Field.plain, Option.map_some, Field.within, Option.all_some, split_join]
    exact alternatives.within_plain (split kind)

theorem Alternatives.within_plain {α : Type} : (alternatives : Alternatives α) → (value : α) →
    alternatives.within (alternatives.plain value) = alternatives.within value
  | .signal _ _ _, .inl () => rfl
  | .signal _ _ others, .inr value => others.within_plain value
  | .scalar _ _ _ _, .inl _ => rfl
  | .scalar _ _ _ others, .inr value => others.within_plain value
  | .message _ _ format _, .inl message => format.within_plain message
  | .message _ _ _ others, .inr value => others.within_plain value

end

theorem Format.size_eq_of_encode_eq {μ : Type} {format : Format μ} {message other : μ}
    (hformed : format.wellFormed = true) (h : format.encode message = format.encode other) :
    format.size message = format.size other := by
  rw [← format.length_bytes hformed, ← format.length_bytes hformed, bytes, bytes, h]

mutual

theorem Format.encode_plain {μ : Type} : (format : Format μ) → format.wellFormed = true →
    (message : μ) → format.encode (format.plain message) = format.encode message
  | .record _ fields split _ _ split_join, hformed, message => by
    rw [Format.wellFormed, Bool.and_eq_true] at hformed
    rw [Format.plain, Format.encode, split_join, fields.encode_plain hformed.2, Format.encode]

theorem Fields.encode_plain {α : Type} : (fields : Fields α) → fields.wellFormed = true →
    (values : α) → fields.encode (fields.plain values) = fields.encode values
  | .nil, _, _ => rfl
  | .cons field others, hformed, (value, values) => by
    rw [Fields.wellFormed, Bool.and_eq_true] at hformed
    rw [Fields.plain, Fields.encode, field.encode_plain hformed.1, others.encode_plain hformed.2,
      Fields.encode]

theorem Field.encode_plain {α : Type} : (field : Field α) → field.wellFormed = true →
    (value : α) → field.encode (field.plain value) = field.encode value
  | .leaf number _ kind, _, value => kind.encode_plain number value
  | .message _ _ _, _, none => rfl
  | .message _ _ format, hformed, some message => by
    rw [Field.wellFormed, Bool.and_eq_true] at hformed
    have hencode := format.encode_plain hformed.2 message
    rw [Field.plain, Option.map_some, Field.encode, Option.elim_some, hencode,
      format.size_eq_of_encode_eq hformed.2 hencode, Field.encode, Option.elim_some]
  | .messages _ _ _ format, hformed, values => by
    rw [Field.wellFormed, Bool.and_eq_true] at hformed
    rw [Field.plain, Field.encode, Field.encode, List.flatMap_map]
    -- the size stands in the header, so it has to agree as well
    refine List.flatMap_congr fun message _ => ?_
    have hencode := format.encode_plain hformed.2 message
    rw [hencode, format.size_eq_of_encode_eq hformed.2 hencode]
  | .choice _ _ _ _ _ _, _, none => rfl
  | .choice _ alternatives split join _ split_join, hformed, some kind => by
    rw [Field.wellFormed, Bool.and_eq_true] at hformed
    rw [Field.plain, Option.map_some, Field.encode, Option.elim_some, split_join,
      alternatives.encode_plain hformed.2, Field.encode, Option.elim_some]

theorem Alternatives.encode_plain {α : Type} : (alternatives : Alternatives α) →
    alternatives.wellFormed = true → (value : α) →
    alternatives.encode (alternatives.plain value) = alternatives.encode value
  | .signal _ _ _, _, .inl () => rfl
  | .signal _ _ others, hformed, .inr value => by
    rw [Alternatives.wellFormed, Bool.and_eq_true] at hformed
    exact others.encode_plain hformed.2 value
  | .scalar _ _ _ _, _, .inl _ => rfl
  | .scalar _ _ _ others, hformed, .inr value => by
    rw [Alternatives.wellFormed, Bool.and_eq_true] at hformed
    exact others.encode_plain hformed.2 value
  | .message _ _ format _, hformed, .inl message => by
    simp only [Alternatives.wellFormed, Bool.and_eq_true] at hformed
    have hencode := format.encode_plain hformed.1.2 message
    rw [Alternatives.plain, Alternatives.encode, hencode,
      format.size_eq_of_encode_eq hformed.1.2 hencode, Alternatives.encode]
  | .message _ _ _ others, hformed, .inr value => by
    rw [Alternatives.wellFormed, Bool.and_eq_true] at hformed
    exact others.encode_plain hformed.2 value

end

/-! ### Decoding -/

namespace Format

variable {μ : Type} {format : Format μ}

/-- Decoding takes the encoding of a message to its last byte and arrives at the plain form. -/
theorem completes_decode (hformed : format.wellFormed = true) {message : μ}
    (hwithin : format.within message = true) :
    Merged.Completes format.decode (format.bytes message) (format.plain message) := by
  have hroom := hwithin
  rw [← format.within_plain message, ← format.overlay_default] at hroom
  have hmerge := format.completes_frames hformed format.default message hwithin hroom
  rwa [format.overlay_default, format.bytesAll_frames] at hmerge

end Format

end EngineConsole
