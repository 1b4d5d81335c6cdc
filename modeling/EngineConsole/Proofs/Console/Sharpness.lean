import EngineConsole.Proofs.Message.Capacity
import Mathlib.Data.List.FinRange
import Mathlib.Order.Bounds.Basic

/-!
# No bound is too large

The largest size of a field is computed from its number and its capacity alone. It is a bound on the sizes of all records of the field, and it is one of them. What can spoil this is the length prefix, which holds the length modulo 2^32 and therefore becomes short again where the length goes beyond a multiple of it: there, and only there, a shorter payload can make a longer record. No message of the console link comes anywhere near such a length, but a list of other messages may exceed its bound.
-/

namespace EngineConsole

/-! ### Enumerations up to a number -/

def Enumeration.upTo (greatest : Nat) : Enumeration (Fin (greatest + 1)) where
  name := ""
  first := 0
  others := (List.finRange greatest).map Fin.succ
  label := fun variant => toString variant.val
  number := Fin.val
  numbered := by
    rw [← List.finRange_succ, List.map_coe_finRange_eq_range, List.length_map, List.length_finRange]
  complete := fun variant => by
    rw [← List.finRange_succ]
    exact List.mem_finRange variant

theorem Enumeration.greatest_upTo (greatest : Nat) : (upTo greatest).greatest = greatest := by
  rw [Enumeration.greatest, upTo, List.length_map, List.length_finRange]

/-! ### Messages of any length -/

def Format.ofText (capacity : Nat) : Format (Option String) :=
  .record "" (.optionalText 1 "" capacity .nil) (fun text => (text, ())) Prod.fst
    (fun _ => rfl) (fun _ => rfl)

theorem Format.size_ofText (capacity : Nat) (text : String) :
    (ofText capacity).size (some text) = Size.delimited 1 text.utf8ByteSize := rfl

theorem Format.maxSize_ofText (capacity : Nat) :
    (ofText capacity).maxSize = Size.delimited 1 capacity := rfl

theorem Format.within_ofText {capacity : Nat} {text : String} (h : text.utf8ByteSize ≤ capacity) :
    (ofText capacity).within (some text) = true := by
  simpa [ofText, within, Fields.within, Field.within, Leaf.within] using h

/-! ### Records -/

theorem Scalar.isGreatest_maxSize {α : Type} (scalar : Scalar α) (number : Nat) :
    IsGreatest (Set.range (scalar.size number)) (scalar.maxSize number) := by
  refine ⟨⟨scalar.fullest, scalar.size_fullest number⟩, ?_⟩
  rintro _ ⟨value, rfl⟩
  exact scalar.size_le_maxSize number value

namespace Size

/-- Of a payload that ends right behind a multiple of 2^32 and one that ends right before it, the latter makes the longer record. -/
theorem delimited_lt_of_not_peak (number : Nat) {length : Nat} (h : ¬ Peak length) :
    delimited number length < delimited number (length - length % 0x100000000 - 1) := by
  rw [Peak, not_or, Nat.not_lt, Nat.not_le] at h
  have hrest : (length - length % 0x100000000 - 1) % 0x100000000 = 0xffffffff := by omega
  have hlong : Varint.size 0xffffffff = 5 := rfl
  have hshort : Varint.size (length % 0x100000000) = 1 := if_pos (by omega)
  simp only [delimited, hrest, hlong, hshort]
  omega

theorem isGreatest_delimited_iff (number length : Nat) :
    IsGreatest (delimited number '' Set.Iic length) (delimited number length) ↔ Peak length := by
  constructor
  · intro h
    by_contra hpeak
    have hbefore : length - length % 0x100000000 - 1 ∈ Set.Iic length :=
      Set.mem_Iic.mpr (by omega)
    exact Nat.not_lt.mpr (h.2 (Set.mem_image_of_mem _ hbefore))
      (delimited_lt_of_not_peak number hpeak)
  · intro hpeak
    refine ⟨Set.mem_image_of_mem _ (Set.mem_Iic.mpr (Nat.le_refl length)), ?_⟩
    rintro _ ⟨small, hsmall, rfl⟩
    exact delimited_le number hsmall (.inl hpeak)

/-- No list of up to `capacity` messages, of whatever type, each of up to `length` bytes, takes more than `size` bytes as field `number`. -/
def Bounds (number capacity length size : Nat) : Prop :=
  ∀ (μ : Type) (name : String) (limit : Nat) (format : Format μ) (values : List μ),
    values.length ≤ capacity → (∀ message ∈ values, format.size message ≤ length) →
    (Field.messages number name limit format).size values ≤ size

theorem exists_size_ofText {length : Nat} (h : ¬ Peak length) :
    ∃ text, (Format.ofText length).size (some text) = length - length % 0x100000000 - 1 := by
  rw [Peak, not_or, Nat.not_lt, Nat.not_le] at h
  refine ⟨"".pushn 'x' (length - length % 0x100000000 - 7), ?_⟩
  have hrest : (length - length % 0x100000000 - 7) % 0x100000000 = 0xfffffff9 := by omega
  have htag : Tag.size 1 = 1 := rfl
  have hlong : Varint.size 0xfffffff9 = 5 := rfl
  rw [Format.size_ofText, Text.utf8ByteSize_pushn, delimited, hrest]
  omega

/-- The bound for a list fails exactly where the bound for a record does, unless there is no room for a record. -/
theorem bounds_repeated_iff (number capacity length : Nat) :
    Bounds number capacity length (repeated number capacity length) ↔
      capacity = 0 ∨ Peak length := by
  constructor
  · intro h
    by_contra hneither
    obtain ⟨hsome, hpeak⟩ := not_or.mp hneither
    obtain ⟨text, htext⟩ := exists_size_ofText hpeak
    have heach : ∀ message ∈ List.replicate capacity (some text),
        (Format.ofText length).size message = length - length % 0x100000000 - 1 :=
      fun message hmessage => by rw [List.eq_of_mem_replicate hmessage, htext]
    have hbound := h _ "" 0 _ _ (Nat.le_of_eq List.length_replicate) fun message hmessage => by
      rw [heach message hmessage]
      omega
    rw [Field.size_messages_eq List.length_replicate heach] at hbound
    exact Nat.not_lt.mpr hbound (Nat.mul_lt_mul_of_pos_left
      (delimited_lt_of_not_peak number hpeak) (Nat.pos_of_ne_zero hsome))
  · rintro hpeak μ name limit format values hcount heach
    refine Field.size_messages_le hcount fun message hmessage => ?_
    have hsome : 0 < capacity := (List.length_pos_of_mem hmessage).trans_le hcount
    exact delimited_le number (heach message hmessage) (.inl (hpeak.resolve_left hsome.ne'))

theorem delimited?_of_lt (number : Nat) {length : Nat} (h : length < 0x100000000) :
    delimited? number length = some (delimited number length) := by
  have htag : Tag.size number ≤ 5 := Varint.size_le_maxSize _
  have hlength : Varint.size (length % 0x100000000) ≤ 5 := Varint.size_le_maxSize _
  refine delimited?_eq_some_iff.mpr ⟨?_, rfl⟩
  rw [delimited]
  omega

theorem isGreatest_floats (number : Nat) {capacity : Nat} (hsome : 1 ≤ capacity)
    (hcapacity : 4 * capacity < 0x100000000) :
    IsGreatest (Floats.size number '' {values | values.length ≤ capacity})
      (floats number capacity) := by
  have hformed : (Leaf.floats capacity).wellFormed = true := by
    simp only [Leaf.wellFormed, Bool.and_eq_true, decide_eq_true_eq]
    omega
  constructor
  · exact ⟨(Leaf.floats capacity).fullest, Nat.le_of_eq List.length_replicate,
      Leaf.size_fullest number hformed⟩
  · rintro _ ⟨values, hvalues, rfl⟩
    have hwithin : (Leaf.floats capacity).within values = true := decide_eq_true hvalues
    exact Leaf.size_le_maxSize number hformed hwithin

theorem isGreatest_oneof {alternatives : List Nat} (h : alternatives ≠ []) :
    IsGreatest {size | size ∈ alternatives} (oneof alternatives) := by
  induction alternatives with
  | nil => exact absurd rfl h
  | cons first others ih =>
    have hcons : {size | size ∈ first :: others} = insert first {size | size ∈ others} :=
      Set.ext fun _ => List.mem_cons
    rw [hcons]
    cases others with
    | nil =>
      show IsGreatest _ (max first 0)
      simp
    | cons second others => exact (ih (List.cons_ne_nil second others)).insert first

/-! ### Every bound -/

/-- The bounds on the fields of number `number` are no larger than they have to be. -/
structure Sharp (number : Nat) : Prop where
  fixed32 : IsGreatest (Set.range (Scalar.fixed32.size number)) (Size.fixed32 number)
  float : IsGreatest (Set.range (Scalar.float.size number)) (Size.fixed32 number)
  uint32 : IsGreatest (Set.range (Scalar.uint32.size number)) (Size.uint32 number)
  bool : IsGreatest (Set.range (Scalar.bool.size number)) (Size.bool number)
  enumeration : ∀ {ε : Type} (enumeration : Enumeration ε),
    IsGreatest (Set.range ((Scalar.enum enumeration).size number))
      (Size.enumeration number enumeration.greatest)
  /-- Every number is the greatest one of some enumeration. -/
  upTo : ∀ greatest, IsGreatest (Set.range ((Scalar.enum (.upTo greatest)).size number))
    (Size.enumeration number greatest)
  delimited : ∀ {length : Nat}, length < 0x100000000 → ∃ size,
    delimited? number length = some size ∧
      IsGreatest (Size.delimited number '' Set.Iic length) size
  /-- Beyond 32 bits this goes on, but for the lengths right behind a multiple of 2^32. -/
  peak : ∀ length : Nat,
    IsGreatest (Size.delimited number '' Set.Iic length) (Size.delimited number length) ↔
      length < 0x100000000 ∨ 3 ≤ length % 0x100000000
  floats : ∀ {capacity : Nat}, 1 ≤ capacity → 4 * capacity < 0x100000000 → ∃ size,
    floats? number capacity = some size ∧
      IsGreatest (Floats.size number '' {values | values.length ≤ capacity}) size
  /-- A list of messages, each of a length up to `length`: what spoils the bound on a single record spoils this one as well. -/
  repeated : ∀ {capacity length size : Nat}, repeated? number capacity length = some size →
    (Bounds number capacity length size ↔
      capacity = 0 ∨ length < 0x100000000 ∨ 3 ≤ length % 0x100000000)
  /-- A full list of messages of length `length` takes as many bytes. -/
  full : ∀ {capacity length size : Nat}, repeated? number capacity length = some size →
    ∀ {μ : Type} (name : String) (limit : Nat) (format : Format μ) (values : List μ),
      values.length = capacity → (∀ message ∈ values, format.size message = length) →
      (Field.messages number name limit format).size values = size
  /-- The messages of the console link are all so short that `length` may be any number. -/
  messages : ∀ {capacity length size : Nat}, repeated? number capacity length = some size →
    ∀ (type : MessageType) (name : String) (limit : Nat) (values : List type.Value),
      values.length ≤ capacity → (∀ message ∈ values, type.format.within message = true ∧
        type.format.size message ≤ length) →
      (Field.messages number name limit type.format).size values ≤ size
  oneof : ∀ {alternatives : List Nat}, alternatives ≠ [] →
    IsGreatest {size | size ∈ alternatives} (Size.oneof alternatives)
  none : Size.oneof [] = 0

theorem sharp (number : Nat) : Sharp number where
  fixed32 := Scalar.isGreatest_maxSize .fixed32 number
  float := Scalar.isGreatest_maxSize .float number
  uint32 := Scalar.isGreatest_maxSize .uint32 number
  bool := Scalar.isGreatest_maxSize .bool number
  enumeration := fun enumeration => Scalar.isGreatest_maxSize (.enum enumeration) number
  upTo := fun greatest => by
    have hgreatest := Scalar.isGreatest_maxSize (.enum (.upTo greatest)) number
    rwa [Scalar.maxSize, Enumeration.greatest_upTo] at hgreatest
  delimited := fun {length} hlength =>
    ⟨_, delimited?_of_lt number hlength,
      (isGreatest_delimited_iff number length).mpr (.inl hlength)⟩
  peak := isGreatest_delimited_iff number
  floats := fun {capacity} hsome hcapacity =>
    ⟨_, delimited?_of_lt number (by omega), isGreatest_floats number hsome hcapacity⟩
  repeated := by
    intro capacity length size hsize
    obtain ⟨-, -, rfl⟩ := repeated?_eq_some_iff.mp hsize
    exact bounds_repeated_iff number capacity length
  full := by
    intro capacity length size hsize μ name limit format values
    obtain ⟨-, -, rfl⟩ := repeated?_eq_some_iff.mp hsize
    exact Field.size_messages_eq
  messages := by
    intro capacity length size hsize type name limit values hcount heach
    obtain ⟨-, -, rfl⟩ := repeated?_eq_some_iff.mp hsize
    refine Field.size_messages_le hcount fun message hmessage => ?_
    obtain ⟨hwithin, hlength⟩ := heach message hmessage
    have hmax := type.format.size_le_maxSize type.wellFormed_format hwithin
    exact delimited_le number hlength (.inr (hmax.trans type.maxSize_le))
  oneof := isGreatest_oneof
  none := rfl

/-- A text of 2^32 - 7 bytes makes a message of 2^32 - 1 bytes, and its type has messages of 2^32 bytes. The bound for a list of one message of up to 2^32 bytes counts a prefix of one byte, but the prefix of this message has five. -/
theorem not_bounds_multiple :
    let format := Format.ofText 0xfffffffa
    let text := "".pushn 'x' 0xfffffff9
    format.maxSize = 0x100000000 ∧ format.within (some text) = true ∧
      format.size (some text) = 0xffffffff ∧
      repeated? 1 1 0x100000000 = some 0x100000002 ∧
      (Field.messages 1 "" 1 format).size [some text] = 0x100000005 ∧
      ¬ Bounds 1 1 0x100000000 0x100000002 := by
  intro format text
  have hcapacity : text.utf8ByteSize = 0xfffffff9 := Text.utf8ByteSize_pushn _
  have hsize : format.size (some text) = 0xffffffff := by
    rw [Format.size_ofText, hcapacity]
    decide
  have hcount : [some text].length = 1 := rfl
  have hlist : (Field.messages 1 "" 1 format).size [some text] = repeated 1 1 0xffffffff :=
    Field.size_messages_eq hcount (List.forall_mem_singleton.mpr hsize)
  have hrepeated : repeated 1 1 0xffffffff = 0x100000005 := rfl
  have hwithin : format.within (some text) = true :=
    Format.within_ofText (by omega)
  refine ⟨Format.maxSize_ofText _, hwithin, hsize, rfl, hlist.trans hrepeated, fun h => ?_⟩
  have hbound := h _ "" 1 format [some text] (Nat.le_refl 1)
    (List.forall_mem_singleton.mpr (by omega))
  omega

end Size

end EngineConsole
