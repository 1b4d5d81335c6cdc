import EngineConsole.Proofs.Message.WellFormed
import Mathlib.Algebra.Group.Action.Defs
import Mathlib.Algebra.Order.BigOperators.Group.List
import Mathlib.Algebra.Order.Group.Nat

/-!
# Messages within capacity

The lists and texts of a message are limited, and within these limits no message of a type is larger than the largest size computed from its format. That size is not only a bound: the message in which everything is present and as long as it may be has exactly this size.
-/

namespace EngineConsole

/-! ### Within capacity -/

/-- A text has no more bytes, and a list no more floats, than the field allows. Texts are UTF-8 by their type. -/
def Leaf.within {α : Type} : Leaf α → α → Bool
  | .scalar _, _ => true
  | .optional _, _ => true
  | .text capacity, value => value.utf8ByteSize ≤ capacity
  | .optionalText capacity, value => value.all fun text => text.utf8ByteSize ≤ capacity
  | .floats capacity, values => values.length ≤ capacity

mutual

/-- Every list and every text of the message, at every depth, is within its capacity. -/
def Format.within {μ : Type} : Format μ → μ → Bool
  | .record _ fields split _ _ _, message => fields.within (split message)

def Fields.within {α : Type} : Fields α → α → Bool
  | .nil, _ => true
  | .cons field others, (value, values) => field.within value && others.within values

def Field.within {α : Type} : Field α → α → Bool
  | .leaf _ _ kind, value => kind.within value
  | .message _ _ format, value => value.all format.within
  | .messages _ _ capacity format, values => values.length ≤ capacity && values.all format.within
  | .choice _ alternatives split _ _ _, value => value.all fun kind => alternatives.within (split kind)

def Alternatives.within {α : Type} : Alternatives α → α → Bool
  | .signal _ _ _, .inl () => true
  | .signal _ _ others, .inr value => others.within value
  | .scalar _ _ _ _, .inl _ => true
  | .scalar _ _ _ others, .inr value => others.within value
  | .message _ _ format _, .inl message => format.within message
  | .message _ _ _ others, .inr value => others.within value

end

theorem Leaf.within_default {α : Type} (kind : Leaf α) : kind.within kind.default = true := by
  cases kind with
  | scalar kind => rfl
  | optional kind => rfl
  | text capacity => exact decide_eq_true (Nat.zero_le capacity)
  | optionalText capacity => rfl
  | floats capacity => exact decide_eq_true (Nat.zero_le capacity)

theorem Field.within_default {α : Type} (field : Field α) : field.within field.default = true := by
  cases field with
  | leaf number name kind => exact kind.within_default
  | message number name format => rfl
  | messages number name capacity format =>
    rw [within, default, List.all_nil, Bool.and_true]
    exact decide_eq_true (Nat.zero_le capacity)
  | choice name alternatives split join join_split split_join => rfl

theorem Fields.within_default {α : Type} : (fields : Fields α) →
    fields.within fields.default = true
  | .nil => rfl
  | .cons field others => by
    rw [Fields.default, Fields.within, field.within_default, others.within_default, Bool.and_self]

theorem Format.within_default {μ : Type} (format : Format μ) :
    format.within format.default = true := by
  cases format with
  | record name fields split join join_split split_join =>
    rw [within, default, split_join]
    exact fields.within_default

theorem Format.within_getD_default {μ : Type} {format : Format μ} {value : Option μ}
    (h : value.all format.within = true) : format.within (value.getD format.default) = true := by
  cases value with
  | none => exact format.within_default
  | some message => exact h

/-! ### The largest size is a bound -/

/-- No shorter payload makes a longer record. Right behind a multiple of 2^32 one does, because the prefix has become short again. -/
def Size.Peak (length : Nat) : Prop := length < 0x100000000 ∨ 3 ≤ length % 0x100000000

/-- A longer payload makes a longer record, unless it comes right behind a multiple of 2^32 and the shorter one right before it. -/
theorem Size.delimited_le (number : Nat) {small large : Nat} (h : small ≤ large)
    (hlarge : Peak large ∨ small ≤ 0xfffffffb) :
    delimited number small ≤ delimited number large := by
  have hlonger := Varint.size_le_maxSize (small % 0x100000000)
  have hshorter := Varint.size_pos (large % 0x100000000)
  simp only [Peak, delimited, Varint.maxSize] at hlarge hlonger ⊢
  rcases Nat.lt_or_ge (small / 0x100000000) (large / 0x100000000) with hblock | hblock
  -- the prefix of the longer payload may be shorter, by four bytes at most
  · omega
  · have hsize := Varint.size_mono
      (show small % 0x100000000 ≤ large % 0x100000000 by omega)
    omega

theorem Size.delimited_mono (number : Nat) {small large : Nat} (h : small ≤ large)
    (hlarge : large < 0x100000000) : delimited number small ≤ delimited number large :=
  delimited_le number h (.inl (.inl hlarge))

theorem Scalar.size_le_maxSize {α : Type} (scalar : Scalar α) (number : Nat) (value : α) :
    scalar.size number value ≤ scalar.maxSize number := by
  rw [Scalar.size]
  cases scalar with
  | uint32 => exact Nat.add_le_add_left (Varint.size_le_maxSize _) _
  | fixed32 => exact Nat.le_refl _
  | float => exact Nat.le_refl _
  | bool => exact Nat.le_refl _
  | enum enumeration =>
    exact Nat.add_le_add_left (Varint.size_mono (enumeration.number_le_greatest value)) _

theorem Leaf.size_le_maxSize {α : Type} {kind : Leaf α} (number : Nat) {value : α}
    (hformed : kind.wellFormed = true) (hwithin : kind.within value = true) :
    kind.size number value ≤ kind.maxSize number := by
  cases kind with
  | scalar kind =>
    rw [size]
    split
    · exact Nat.zero_le _
    · exact kind.size_le_maxSize number value
  | optional kind =>
    cases value with
    | none => exact Nat.zero_le _
    | some value => exact kind.size_le_maxSize number value
  | text capacity =>
    simp only [wellFormed, within, Bool.and_eq_true, decide_eq_true_eq] at hformed hwithin
    rw [size]
    split
    · exact Nat.zero_le _
    · exact Size.delimited_mono number hwithin hformed.2
  | optionalText capacity =>
    cases value with
    | none => exact Nat.zero_le _
    | some text =>
      simp only [wellFormed, within, Bool.and_eq_true, Option.all_some, decide_eq_true_eq]
        at hformed hwithin
      exact Size.delimited_mono number hwithin hformed.2
  | floats capacity =>
    simp only [wellFormed, within, Bool.and_eq_true, decide_eq_true_eq] at hformed hwithin
    rw [size, Floats.size]
    split
    · exact Nat.zero_le _
    · exact Size.delimited_mono number (Nat.mul_le_mul_right 4 hwithin) hformed.2

section

variable {μ : Type} {number limit capacity length : Nat} {name : String} {format : Format μ}
  {values : List μ}

theorem Field.size_messages_le (hcount : values.length ≤ capacity)
    (heach : ∀ message ∈ values,
      Size.delimited number (format.size message) ≤ Size.delimited number length) :
    (messages number name limit format).size values ≤ Size.repeated number capacity length := by
  have hsum := List.sum_le_card_nsmul
    (values.map fun message => Size.delimited number (format.size message))
    (Size.delimited number length) (List.forall_mem_map.mpr heach)
  rw [List.length_map, smul_eq_mul, List.sum_eq_foldr, List.foldr_map] at hsum
  exact hsum.trans (Nat.mul_le_mul_right _ hcount)

theorem Field.size_messages_eq (hcount : values.length = capacity)
    (heach : ∀ message ∈ values, format.size message = length) :
    (messages number name limit format).size values = Size.repeated number capacity length := by
  have hsum := List.sum_eq_card_nsmul
    (values.map fun message => Size.delimited number (format.size message))
    (Size.delimited number length)
    (List.forall_mem_map.mpr fun message hmessage => by rw [heach message hmessage])
  rw [List.length_map, smul_eq_mul, hcount, List.sum_eq_foldr, List.foldr_map] at hsum
  exact hsum

end

mutual

/-- No message within capacity is larger than the largest size. -/
theorem Format.size_le_maxSize {μ : Type} {message : μ} : (format : Format μ) →
    format.wellFormed = true → format.within message = true → format.size message ≤ format.maxSize
  | .record _ fields split _ _ _, hformed, hwithin => by
    rw [Format.wellFormed, Bool.and_eq_true] at hformed
    exact fields.size_le_maxSize hformed.2 hwithin

theorem Fields.size_le_maxSize {α : Type} {values : α} : (fields : Fields α) →
    fields.wellFormed = true → fields.within values = true → fields.size values ≤ fields.maxSize
  | .nil, _, _ => Nat.le_refl 0
  | .cons field others, hformed, hwithin => by
    rw [Fields.wellFormed, Bool.and_eq_true] at hformed
    rw [Fields.within, Bool.and_eq_true] at hwithin
    exact Nat.add_le_add (field.size_le_maxSize hformed.1 hwithin.1)
      (others.size_le_maxSize hformed.2 hwithin.2)

theorem Field.size_le_maxSize {α : Type} {value : α} : (field : Field α) →
    field.wellFormed = true → field.within value = true → field.size value ≤ field.maxSize
  | .leaf number _ kind, hformed, hwithin => by
    rw [Field.wellFormed, Bool.and_eq_true] at hformed
    exact kind.size_le_maxSize number hformed.2 hwithin
  | .message number _ format, hformed, hwithin => by
    simp only [Field.wellFormed, Bool.and_eq_true, decide_eq_true_eq] at hformed
    cases value with
    | none => exact Nat.zero_le _
    | some message =>
      exact Size.delimited_mono number (format.size_le_maxSize hformed.2 hwithin) hformed.1.2
  | .messages number _ capacity format, hformed, hwithin => by
    simp only [Field.wellFormed, Bool.and_eq_true, decide_eq_true_eq] at hformed
    simp only [Field.within, Bool.and_eq_true, decide_eq_true_eq, List.all_eq_true] at hwithin
    exact Field.size_messages_le hwithin.1 fun message hmessage => Size.delimited_mono number
      (format.size_le_maxSize hformed.2 (hwithin.2 message hmessage)) hformed.1.2
  | .choice _ alternatives split _ _ _, hformed, hwithin => by
    rw [Field.wellFormed, Bool.and_eq_true] at hformed
    cases value with
    | none => exact Nat.zero_le _
    | some kind => exact alternatives.size_le_maxSize hformed.2 hwithin

theorem Alternatives.size_le_maxSize {α : Type} {value : α} : (alternatives : Alternatives α) →
    alternatives.wellFormed = true → alternatives.within value = true →
    alternatives.size value ≤ alternatives.maxSize
  | .nil, _, _ => nomatch value
  | .signal number _ others, hformed, hwithin => by
    simp only [Alternatives.wellFormed, Bool.and_eq_true] at hformed
    cases value with
    | inl _ => exact Nat.le_max_left _ _
    | inr value => exact (others.size_le_maxSize hformed.2 hwithin).trans (Nat.le_max_right _ _)
  | .scalar number _ kind others, hformed, hwithin => by
    simp only [Alternatives.wellFormed, Bool.and_eq_true] at hformed
    cases value with
    | inl value => exact (kind.size_le_maxSize number value).trans (Nat.le_max_left _ _)
    | inr value => exact (others.size_le_maxSize hformed.2 hwithin).trans (Nat.le_max_right _ _)
  | .message number _ format others, hformed, hwithin => by
    simp only [Alternatives.wellFormed, Bool.and_eq_true, decide_eq_true_eq] at hformed
    cases value with
    | inl message =>
      exact (Size.delimited_mono number (format.size_le_maxSize hformed.1.2 hwithin)
        hformed.1.1.2).trans (Nat.le_max_left _ _)
    | inr value => exact (others.size_le_maxSize hformed.2 hwithin).trans (Nat.le_max_right _ _)

end

/-! ### A message of the largest size -/

def Scalar.fullest {α : Type} : Scalar α → α
  | .uint32 => 0xffffffff
  | .fixed32 => 0xffffffff
  | .float => ⟨0xffffffff⟩
  | .bool => true
  | .enum enumeration => (enumeration.ofNumber? enumeration.greatest).getD enumeration.first

def Leaf.fullest {α : Type} : Leaf α → α
  | .scalar kind => kind.fullest
  | .optional kind => some kind.fullest
  | .text capacity => "".pushn 'x' capacity
  | .optionalText capacity => some ("".pushn 'x' capacity)
  | .floats capacity => List.replicate capacity .zero

mutual

/-- The message in which everything is present and as long as it may be. -/
def Format.fullest {μ : Type} : Format μ → μ
  | .record _ fields _ join _ _ => join fields.fullest

def Fields.fullest {α : Type} : Fields α → α
  | .nil => ()
  | .cons field others => (field.fullest, others.fullest)

def Field.fullest {α : Type} : Field α → α
  | .leaf _ _ kind => kind.fullest
  | .message _ _ format => some format.fullest
  | .messages _ _ capacity format => List.replicate capacity format.fullest
  | .choice _ alternatives _ join _ _ => alternatives.fullest.map join

/-- The alternative whose record can be the longest, with such a payload. -/
def Alternatives.fullest {α : Type} : Alternatives α → Option α
  | .nil => none
  | .signal number _ others =>
    if others.maxSize ≤ Size.delimited number 0 then some (.inl ()) else others.fullest.map .inr
  | .scalar number _ kind others =>
    if others.maxSize ≤ kind.maxSize number then some (.inl kind.fullest)
    else others.fullest.map .inr
  | .message number _ format others =>
    if others.maxSize ≤ Size.delimited number format.maxSize then some (.inl format.fullest)
    else others.fullest.map .inr

end

theorem Scalar.number_fullest {ε : Type} (enumeration : Enumeration ε) :
    enumeration.number (enum enumeration).fullest = enumeration.greatest := by
  have hlast : enumeration.greatest < enumeration.variants.length := Nat.lt_succ_self _
  have hnumber := enumeration.number_getElem hlast
  rw [fullest, Enumeration.ofNumber?, List.getElem?_eq_getElem hlast]
  exact hnumber

theorem Scalar.size_fullest {α : Type} {scalar : Scalar α} (number : Nat) :
    scalar.size number scalar.fullest = scalar.maxSize number := by
  rw [Scalar.size]
  cases scalar with
  | uint32 => rfl
  | fixed32 => rfl
  | float => rfl
  | bool => rfl
  | enum enumeration => rw [valueSize, number_fullest, maxSize, Size.enumeration]

theorem Scalar.isZero_fullest {α : Type} {scalar : Scalar α} (h : scalar.wellFormed = true) :
    scalar.isZero scalar.fullest = false := by
  cases scalar with
  | uint32 => rfl
  | fixed32 => rfl
  | float => rfl
  | bool => rfl
  | enum enumeration =>
    simp only [wellFormed, Bool.and_eq_true, decide_eq_true_eq] at h
    rw [isZero, number_fullest, beq_eq_false_iff_ne]
    exact Nat.ne_of_gt h.1

theorem Leaf.within_fullest {α : Type} (kind : Leaf α) : kind.within kind.fullest = true := by
  cases kind with
  | scalar kind => rfl
  | optional kind => rfl
  | text capacity => simp [within, fullest, Text.utf8ByteSize_pushn]
  | optionalText capacity => simp [within, fullest, Text.utf8ByteSize_pushn]
  | floats capacity => simp [within, fullest]

theorem Leaf.size_fullest {α : Type} {kind : Leaf α} (number : Nat) (h : kind.wellFormed = true) :
    kind.size number kind.fullest = kind.maxSize number := by
  cases kind with
  | scalar kind =>
    rw [size, fullest, if_neg (by rw [kind.isZero_fullest h]; exact Bool.false_ne_true)]
    exact kind.size_fullest number
  | optional kind => exact kind.size_fullest number
  | text capacity =>
    simp only [wellFormed, Bool.and_eq_true, decide_eq_true_eq] at h
    have hsize := Text.utf8ByteSize_pushn capacity
    have hnonempty : ¬ ("".pushn 'x' capacity).isEmpty = true := by
      rw [String.isEmpty_iff_utf8ByteSize_eq_zero, hsize]
      exact Nat.ne_of_gt h.1
    rw [size, fullest, if_neg hnonempty, Text.size, hsize, maxSize]
  | optionalText capacity =>
    rw [size, fullest, Option.elim_some, Text.size, Text.utf8ByteSize_pushn, maxSize]
  | floats capacity =>
    simp only [wellFormed, Bool.and_eq_true, decide_eq_true_eq] at h
    have hnonempty : ¬ (List.replicate capacity Single.zero).isEmpty = true := by
      rw [List.isEmpty_iff, List.replicate_eq_nil_iff]
      exact Nat.ne_of_gt h.1
    rw [size, fullest, Floats.size, if_neg hnonempty, List.length_replicate, maxSize, Size.floats]
    rfl

mutual

theorem Format.within_fullest {μ : Type} : (format : Format μ) → format.within format.fullest = true
  | .record _ fields split join _ split_join => by
    rw [Format.fullest, Format.within, split_join]
    exact fields.within_fullest

theorem Fields.within_fullest {α : Type} : (fields : Fields α) → fields.within fields.fullest = true
  | .nil => rfl
  | .cons field others => by
    rw [Fields.fullest, Fields.within, Bool.and_eq_true]
    exact ⟨field.within_fullest, others.within_fullest⟩

theorem Field.within_fullest {α : Type} : (field : Field α) → field.within field.fullest = true
  | .leaf _ _ kind => kind.within_fullest
  | .message _ _ format => format.within_fullest
  | .messages _ _ capacity format => by
    have helements : (List.replicate capacity format.fullest).all format.within = true :=
      List.all_eq_true.mpr fun message hmessage =>
        (List.eq_of_mem_replicate hmessage).symm ▸ format.within_fullest
    simp only [Field.fullest, Field.within, List.length_replicate, Nat.le_refl, decide_true,
      helements, Bool.and_self]
  | .choice _ alternatives split join _ split_join => by
    have hchosen := alternatives.within_fullest
    rw [Field.fullest, Field.within, Option.all_map]
    simpa only [Function.comp_def, split_join] using hchosen

theorem Alternatives.within_fullest {α : Type} :
    (alternatives : Alternatives α) → alternatives.fullest.all alternatives.within = true
  | .nil => rfl
  | .signal number _ others => by
    have hothers := others.within_fullest
    rw [Alternatives.fullest]
    split
    · rfl
    · rw [Option.all_map]
      exact hothers
  | .scalar number _ kind others => by
    have hothers := others.within_fullest
    rw [Alternatives.fullest]
    split
    · rfl
    · rw [Option.all_map]
      exact hothers
  | .message number _ format others => by
    have hothers := others.within_fullest
    rw [Alternatives.fullest]
    split
    · exact format.within_fullest
    · rw [Option.all_map]
      exact hothers

end

mutual

/-- The fullest message has the largest size. -/
theorem Format.size_fullest {μ : Type} : (format : Format μ) → format.wellFormed = true →
    format.size format.fullest = format.maxSize
  | .record _ fields split join _ split_join, hformed => by
    rw [Format.wellFormed, Bool.and_eq_true] at hformed
    rw [Format.fullest, Format.size, split_join]
    exact fields.size_fullest hformed.2

theorem Fields.size_fullest {α : Type} : (fields : Fields α) → fields.wellFormed = true →
    fields.size fields.fullest = fields.maxSize
  | .nil, _ => rfl
  | .cons field others, hformed => by
    rw [Fields.wellFormed, Bool.and_eq_true] at hformed
    rw [Fields.fullest, Fields.size, field.size_fullest hformed.1, others.size_fullest hformed.2,
      Fields.maxSize]

theorem Field.size_fullest {α : Type} : (field : Field α) → field.wellFormed = true →
    field.size field.fullest = field.maxSize
  | .leaf number _ kind, hformed => by
    rw [Field.wellFormed, Bool.and_eq_true] at hformed
    exact kind.size_fullest number hformed.2
  | .message number _ format, hformed => by
    rw [Field.wellFormed, Bool.and_eq_true] at hformed
    rw [Field.fullest, Field.size, Option.elim_some, format.size_fullest hformed.2, Field.maxSize]
  | .messages number _ capacity format, hformed => by
    rw [Field.wellFormed, Bool.and_eq_true] at hformed
    exact Field.size_messages_eq List.length_replicate fun message hmessage => by
      rw [List.eq_of_mem_replicate hmessage, format.size_fullest hformed.2]
  | .choice _ alternatives split join _ split_join, hformed => by
    rw [Field.wellFormed, Bool.and_eq_true] at hformed
    have hchosen := alternatives.size_fullest hformed.2
    rw [Field.fullest, Field.size, Option.elim_map, Field.maxSize, ← hchosen]
    simp only [Function.comp_def, split_join]

/-- The chosen alternative is the one whose record can be the longest. -/
theorem Alternatives.size_fullest {α : Type} : (alternatives : Alternatives α) →
    alternatives.wellFormed = true →
    alternatives.fullest.elim 0 alternatives.size = alternatives.maxSize
  | .nil, _ => rfl
  | .signal number _ others, hformed => by
    simp only [Alternatives.wellFormed, Bool.and_eq_true] at hformed
    rw [Alternatives.fullest, Alternatives.maxSize]
    split
    · rename_i hlargest
      exact (Nat.max_eq_left hlargest).symm
    · rename_i hsmaller
      rw [Option.elim_map, Nat.max_eq_right (Nat.le_of_not_le hsmaller)]
      exact others.size_fullest hformed.2
  | .scalar number _ kind others, hformed => by
    simp only [Alternatives.wellFormed, Bool.and_eq_true] at hformed
    rw [Alternatives.fullest, Alternatives.maxSize]
    split
    · rename_i hlargest
      rw [Nat.max_eq_left hlargest]
      exact kind.size_fullest number
    · rename_i hsmaller
      rw [Option.elim_map, Nat.max_eq_right (Nat.le_of_not_le hsmaller)]
      exact others.size_fullest hformed.2
  | .message number _ format others, hformed => by
    simp only [Alternatives.wellFormed, Bool.and_eq_true] at hformed
    rw [Alternatives.fullest, Alternatives.maxSize]
    split
    · rename_i hlargest
      rw [Nat.max_eq_left hlargest, Option.elim_some, Alternatives.size,
        format.size_fullest hformed.1.2]
    · rename_i hsmaller
      rw [Option.elim_map, Nat.max_eq_right (Nat.le_of_not_le hsmaller)]
      exact others.size_fullest hformed.2

end

end EngineConsole
