import EngineConsole.Proofs.Message.RoundTrip
import EngineConsole.Proofs.Record.Respelling

/-!
# Messages with unpacked lists

An encoder writes every list of floats packed, but a decoder takes each list in either form. So a message has many spellings, one for every choice of the lists that are unpacked, and the lengths around an unpacked list are those of the longer content. They are read like the packed one, with one exception: an element of a list of messages that has become longer than any packed one is refused. The main statement says so of every message and every choice.
-/

namespace EngineConsole

/-! ### Spellings -/

/-- The lists of floats that are unpacked, each by the path that leads to it: the numbers of the fields, and behind that of a list of messages the place of the element. -/
abbrev Forms := List Nat → Bool

def Forms.inside (forms : Forms) (step : Nat) : Forms := fun path => forms (step :: path)

/-- The frames that write the value of a field, a list of floats one by one if it is to be unpacked. -/
def Leaf.respell {α : Type} (number : Nat) (unpacked : Bool) : Leaf α → α → List Frame
  | .floats capacity, values =>
    if unpacked then Floats.unpacked number values else (floats capacity).frames number values
  | kind, value => kind.frames number value

mutual

/-- The frames that write a message with some lists unpacked. -/
def Format.respell {μ : Type} : Format μ → Forms → μ → List Frame
  | .record _ fields split _ _ _, forms, message => fields.respell forms (split message)

def Fields.respell {α : Type} : Fields α → Forms → α → List Frame
  | .nil, _, _ => []
  | .cons field others, forms, (value, values) =>
    field.respell forms value ++ others.respell forms values

/-- The frames that write a field. A message stands behind the length that its content has now. -/
def Field.respell {α : Type} : Field α → Forms → α → List Frame
  | .leaf number _ kind, forms, value => kind.respell number (forms [number]) value
  | .message number _ format, forms, value =>
    value.elim [] fun message =>
      [Delimited.enclose number (format.respell (forms.inside number) message)]
  | .messages number _ _ format, forms, values =>
    values.zipIdx.map fun entry =>
      Delimited.enclose number (format.respell ((forms.inside number).inside entry.2) entry.1)
  | .choice _ alternatives split _ _ _, forms, value =>
    value.elim [] fun kind => [alternatives.respell forms (split kind)]

def Alternatives.respell {α : Type} : Alternatives α → Forms → α → Frame
  | .signal number _ _, _, .inl () => .message number 0 []
  | .signal _ _ others, forms, .inr value => others.respell forms value
  | .scalar number _ kind _, _, .inl value =>
    .scalar ⟨number, kind.wireType⟩ (kind.encodeValue value)
  | .scalar _ _ _ others, forms, .inr value => others.respell forms value
  | .message number _ format _, forms, .inl message =>
    Delimited.enclose number (format.respell (forms.inside number) message)
  | .message _ _ _ others, forms, .inr value => others.respell forms value

end

mutual

/-- The errors for the elements that are longer now than any packed one, in the order in which they are met. -/
def Format.overlong {μ : Type} : Format μ → Forms → μ → List DecodeError
  | .record _ fields split _ _ _, forms, message => fields.overlong forms (split message)

def Fields.overlong {α : Type} : Fields α → Forms → α → List DecodeError
  | .nil, _, _ => []
  | .cons field others, forms, (value, values) =>
    field.overlong forms value ++ others.overlong forms values

/-- The errors in a field. What is inside of an element that is refused is not met. -/
def Field.overlong {α : Type} : Field α → Forms → α → List DecodeError
  | .leaf _ _ _, _, _ => []
  | .message number _ format, forms, value => value.elim [] (format.overlong (forms.inside number))
  | .messages number _ _ format, forms, values =>
    values.zipIdx.flatMap fun entry =>
      Delimited.elementErrors number format.maxSize
        (Frame.bytesAll (format.respell ((forms.inside number).inside entry.2) entry.1)).length
        (format.overlong ((forms.inside number).inside entry.2) entry.1)
  | .choice _ alternatives split _ _ _, forms, value =>
    value.elim [] fun kind => alternatives.overlong forms (split kind)

def Alternatives.overlong {α : Type} : Alternatives α → Forms → α → List DecodeError
  | .signal _ _ _, _, .inl () => []
  | .signal _ _ others, forms, .inr value => others.overlong forms value
  | .scalar _ _ _ _, _, .inl _ => []
  | .scalar _ _ _ others, forms, .inr value => others.overlong forms value
  | .message number _ format _, forms, .inl message =>
    format.overlong (forms.inside number) message
  | .message _ _ _ others, forms, .inr value => others.overlong forms value

end

theorem map_fst_zipIdx {α β : Type} (f : α → β) (values : List α) :
    values.zipIdx.map (fun entry => f entry.1) = values.map f := by
  rw [← List.zipIdx_map_fst 0 values, List.map_map, List.zipIdx_map_fst]
  rfl

def Format.element {μ : Type} (format : Format μ) (number : Nat) (forms : Forms) (entry : μ × Nat) :
    Delimited.Element μ where
  content := format.respell ((forms.inside number).inside entry.2) entry.1
  value := format.plain entry.1
  errors := format.overlong ((forms.inside number).inside entry.2) entry.1

/-! ### The tags are those of the fields -/

theorem Leaf.accepts_tag_of_mem_respell {α : Type} {number : Nat} {unpacked : Bool} {kind : Leaf α}
    {value : α} {frame : Frame} (h : frame ∈ kind.respell number unpacked value) :
    frame.tag.number = number ∧ kind.accepts frame.tag.wireType = true := by
  have hpacked : frame ∈ kind.frames number value →
      frame.tag.number = number ∧ kind.accepts frame.tag.wireType = true := fun hframe =>
    ⟨(kind.tag_of_mem_frames hframe).1, (kind.tag_of_mem_frames hframe).2.1⟩
  cases kind with
  | floats capacity =>
    rw [respell] at h
    split at h
    · obtain ⟨value, _, rfl⟩ := List.mem_map.mp h
      exact ⟨rfl, rfl⟩
    · exact hpacked h
  | _ => exact hpacked h

theorem Alternatives.tag_respell {α : Type} (forms : Forms) : (alternatives : Alternatives α) →
    (value : α) → (alternatives.respell forms value).tag = (alternatives.frame value).tag
  | .signal _ _ _, .inl () | .scalar _ _ _ _, .inl _ | .message _ _ _ _, .inl _ => rfl
  | .signal _ _ others, .inr value | .scalar _ _ _ others, .inr value
  | .message _ _ _ others, .inr value => others.tag_respell forms value

theorem Field.accepts_tag_of_mem_respell {α : Type} {forms : Forms} {field : Field α} {value : α}
    {frame : Frame} (h : frame ∈ field.respell forms value) : field.accepts frame.tag = true := by
  cases field with
  | leaf number name kind =>
    obtain ⟨hnumber, haccepts⟩ := kind.accepts_tag_of_mem_respell h
    rw [accepts, hnumber, haccepts, beq_self_eq_true, Bool.and_self]
  | message number name format =>
    cases value with
    | none => cases h
    | some message =>
      obtain rfl := List.mem_singleton.mp h
      exact beq_self_eq_true _
  | messages number name capacity format =>
    obtain ⟨element, _, rfl⟩ := List.mem_map.mp h
    exact beq_self_eq_true _
  | choice name alternatives split join join_split split_join =>
    cases value with
    | none => cases h
    | some kind =>
      obtain rfl := List.mem_singleton.mp h
      rw [accepts, alternatives.tag_respell]
      exact alternatives.accepts_tag_frame (split kind)

theorem Fields.number_mem_of_mem_respell {α : Type} {forms : Forms} {frame : Frame} :
    (fields : Fields α) → (values : α) → frame ∈ fields.respell forms values →
    frame.tag.number ∈ fields.numbers
  | .nil, _, h => nomatch h
  | .cons field others, (value, values), h => by
    rw [Fields.respell, List.mem_append] at h
    rw [Fields.numbers, List.mem_append]
    exact h.imp (fun h => field.mem_numbers_of_accepts (field.accepts_tag_of_mem_respell h))
      (others.number_mem_of_mem_respell values)

/-! ### Every spelling is read alike -/

theorem Leaf.chain_respell {α : Type} {kind : Leaf α} {number : Nat} {value : α}
    (hnumber : number < 0x20000000) (hformed : kind.wellFormed = true)
    (hwithin : kind.within value = true) (unpacked : Bool) :
    Delimited.Chain (fun tag => kind.merge number tag.wireType) kind.default
      (kind.respell number unpacked value) (kind.plain value) := by
  have hpacked : Delimited.Chain (fun tag => kind.merge number tag.wireType) kind.default
      (kind.frames number value) (kind.plain value) := by
    have hroom : kind.within (kind.overlay kind.default value) = true := by
      rw [kind.overlay_default, kind.within_plain, hwithin]
    rw [← kind.overlay_default]
    exact kind.chain_frames hnumber hformed hwithin hroom
  cases kind with
  | floats capacity =>
    rw [respell]
    split
    · rw [within, decide_eq_true_eq] at hwithin
      have hroom : ([] : List Single).length + value.length ≤ capacity := by
        rw [List.length_nil]
        omega
      have hmerge :
          (floats capacity).merge number .fixed32 = Floats.mergeUnpacked number capacity := by
        funext values reader
        rw [merge, if_pos rfl]
      exact Floats.chain_unpacked hmerge hnumber hroom
    · exact hpacked
  | _ => exact hpacked

theorem Frame.length_bytes_le_of_mem {frame : Frame} {frames : List Frame} (h : frame ∈ frames) :
    frame.bytes.length ≤ (bytesAll frames).length := by
  rw [bytesAll_eq_flatMap, List.length_flatMap]
  exact List.le_sum_of_mem (List.mem_map_of_mem h)

theorem Delimited.length_content_le (number : Nat) (content : List Frame) :
    (Frame.bytesAll content).length ≤ (enclose number content).bytes.length := by
  rw [enclose, Frame.bytes, List.length_append]
  omega

mutual

/-- A message is read from any of its spellings like from the packed one, up to the first element that is too long. -/
theorem Format.concludes_respell {μ : Type} : (format : Format μ) → format.wellFormed = true →
    (forms : Forms) → (message : μ) → format.within message = true →
    (Frame.bytesAll (format.respell forms message)).length < 0x100000000 →
    Merged.Concludes (format.merge format.default) (Frame.bytesAll (format.respell forms message))
      (format.plain message) (format.overlong forms message)
  | .record name fields split join _ split_join, hformed, forms, message, hwithin, hsmall => by
    rw [Format.wellFormed, Bool.and_eq_true, decide_eq_true_eq] at hformed
    have hcourse := fields.course_respell hformed.1 hformed.2 forms (split message) hwithin hsmall
    rw [← split_join fields.default] at hcourse
    exact hcourse.concludes.map join

theorem Fields.course_respell {α : Type} : (fields : Fields α) → fields.numbers.Nodup →
    fields.wellFormed = true → (forms : Forms) → (values : α) → fields.within values = true →
    (Frame.bytesAll (fields.respell forms values)).length < 0x100000000 →
    Delimited.Course fields.merge fields.default (fields.respell forms values) (fields.plain values)
      (fields.overlong forms values)
  | .nil, _, _, _, _, _, _ => Delimited.Chain.nil ()
  | .cons field others, hnodup, hformed, forms, (value, values), hwithin, hsmall => by
    rw [Fields.numbers, List.nodup_append] at hnodup
    rw [Fields.wellFormed, Bool.and_eq_true] at hformed
    rw [Fields.within, Bool.and_eq_true] at hwithin
    rw [Fields.respell, Frame.bytesAll_append, List.length_append] at hsmall
    have hfield := field.course_respell hformed.1 forms value hwithin.1 (by omega)
    have hothers := others.course_respell hnodup.2.1 hformed.2 forms values hwithin.2 (by omega)
    exact (hfield.map (fun value => (value, others.default)) fun frame hframe value reader =>
        Fields.merge_cons_of_accepts others (field.accepts_tag_of_mem_respell hframe) value _
          reader).append
      (hothers.map (fun values => (field.plain value, values))
        fun frame hframe values reader => Fields.merge_cons_of_number_mem hnodup.2.2
          (others.number_mem_of_mem_respell _ hframe) (field.plain value) values reader)

theorem Field.course_respell {α : Type} : (field : Field α) → field.wellFormed = true →
    (forms : Forms) → (value : α) → field.within value = true →
    (Frame.bytesAll (field.respell forms value)).length < 0x100000000 →
    Delimited.Course field.merge field.default (field.respell forms value) (field.plain value)
      (field.overlong forms value)
  | .leaf number _ kind, hformed, forms, value, hwithin, _ => by
    rw [Field.wellFormed, Bool.and_eq_true, decide_eq_true_eq] at hformed
    exact kind.chain_respell hformed.1 hformed.2 hwithin (forms [number])
  | .message _ _ _, _, _, none, _, _ => Delimited.Chain.nil none
  | .message number _ format, hformed, forms, some message, hwithin, hsmall => by
    simp only [Field.wellFormed, Bool.and_eq_true, decide_eq_true_eq] at hformed
    have hcontent := Delimited.length_content_le number
      (format.respell (forms.inside number) message)
    rw [Field.respell, Option.elim_some, Frame.bytesAll_singleton] at hsmall
    have hmerge := format.concludes_respell hformed.2 (forms.inside number) message hwithin
      (by omega)
    exact .single (Delimited.legible_enclose hformed.1.1 _)
      ((Delimited.settles_merge (by omega) hmerge).map some)
  | .messages number name capacity format, hformed, forms, values, hwithin, hsmall => by
    simp only [Field.wellFormed, Bool.and_eq_true, decide_eq_true_eq] at hformed
    simp only [Field.within, Bool.and_eq_true, decide_eq_true_eq, List.all_eq_true] at hwithin
    have hshort : ∀ entry ∈ values.zipIdx,
        (Frame.bytesAll (format.element number forms entry).content).length < 0x100000000 := by
      intro entry hentry
      have hcontent :=
        Delimited.length_content_le number (format.element number forms entry).content
      have hframe := Frame.length_bytes_le_of_mem (List.mem_map_of_mem
        (f := fun entry => Delimited.enclose number (format.element number forms entry).content)
        hentry)
      exact Nat.lt_of_le_of_lt (Nat.le_trans hcontent hframe) hsmall
    have hmerge : ∀ entry ∈ values.zipIdx, Merged.Concludes (format.merge format.default)
        (Frame.bytesAll (format.element number forms entry).content)
        (format.element number forms entry).value (format.element number forms entry).errors :=
      fun entry hentry => format.concludes_respell hformed.2 _ entry.1
        (hwithin.2 _ (List.fst_mem_of_mem_zipIdx hentry)) (hshort entry hentry)
    have hroom : (Field.messages number name capacity format).default.length +
        (values.zipIdx.map (format.element number forms)).length ≤ capacity := by
      simpa [Field.default] using hwithin.1
    have hstep : (Field.messages number name capacity format).merge ⟨number, .delimited⟩ =
        Delimited.append number capacity format.maxSize format.default format.merge := rfl
    have hcourse := Delimited.course_elements hstep hformed.1.1 hformed.1.2 hroom
      (List.forall_mem_map.mpr hshort) (List.forall_mem_map.mpr hmerge)
    have hvalues : (values.zipIdx.map (format.element number forms)).map Delimited.Element.value =
        values.map format.plain := by
      rw [List.map_map]
      exact map_fst_zipIdx format.plain values
    rw [hvalues, List.map_map, List.flatMap_map] at hcourse
    exact hcourse
  | .choice _ _ _ _ _ _, _, _, none, _, _ => Delimited.Chain.nil none
  | .choice _ alternatives split join _ split_join, hformed, forms, some kind, hwithin, hsmall => by
    rw [Field.wellFormed, Bool.and_eq_true, decide_eq_true_eq] at hformed
    rw [Field.respell, Option.elim_some, Frame.bytesAll_singleton] at hsmall
    have hsettles := alternatives.settles_respell hformed.1 hformed.2 forms (split kind) hwithin
      hsmall
    have hlegible : (alternatives.respell forms (split kind)).tag.Legible := by
      rw [alternatives.tag_respell]
      exact alternatives.legible_tag_frame hformed.2 (split kind)
    exact .single hlegible (hsettles.map fun chosen => (chosen.map join).or none)

theorem Alternatives.settles_respell {α : Type} : (alternatives : Alternatives α) →
    alternatives.numbers.Nodup → alternatives.wellFormed = true → (forms : Forms) → (value : α) →
    alternatives.within value = true →
    (alternatives.respell forms value).bytes.length < 0x100000000 →
    Merged.Settles (alternatives.merge (alternatives.respell forms value).tag none)
      (alternatives.respell forms value).payload (some (alternatives.plain value))
      (alternatives.overlong forms value)
  | .signal number name others, hnodup, hformed, _, .inl (), hwithin, _ =>
    (Alternatives.signal number name others).takes_frame hnodup hformed none (.inl ()) hwithin
      hwithin
  | .signal number name others, hnodup, hformed, forms, .inr value, hwithin, hsmall => by
    rw [Alternatives.numbers, List.nodup_cons] at hnodup
    rw [Alternatives.wellFormed, Bool.and_eq_true] at hformed
    have hsettles := others.settles_respell hnodup.2 hformed.2 forms value hwithin hsmall
    have hmerge : (Alternatives.signal number name others).merge
        (others.respell forms value).tag none = fun reader =>
        (others.merge (others.respell forms value).tag none reader).map (Option.map Sum.inr) := by
      funext reader
      rw [Alternatives.merge, others.tag_respell, others.tag_frame_beq_eq_false hnodup.1 value]
      rfl
    rw [Alternatives.respell, hmerge]
    exact hsettles.map (Option.map Sum.inr)
  | .scalar number name kind others, hnodup, hformed, _, .inl value, hwithin, _ =>
    (Alternatives.scalar number name kind others).takes_frame hnodup hformed none (.inl value)
      hwithin hwithin
  | .scalar number name kind others, hnodup, hformed, forms, .inr value, hwithin, hsmall => by
    rw [Alternatives.numbers, List.nodup_cons] at hnodup
    rw [Alternatives.wellFormed, Bool.and_eq_true] at hformed
    have hsettles := others.settles_respell hnodup.2 hformed.2 forms value hwithin hsmall
    have hmerge : (Alternatives.scalar number name kind others).merge
        (others.respell forms value).tag none = fun reader =>
        (others.merge (others.respell forms value).tag none reader).map (Option.map Sum.inr) := by
      funext reader
      rw [Alternatives.merge, others.tag_respell, others.tag_frame_beq_eq_false hnodup.1 value]
      rfl
    rw [Alternatives.respell, hmerge]
    exact hsettles.map (Option.map Sum.inr)
  | .message number name format others, _, hformed, forms, .inl message, hwithin, hsmall => by
    simp only [Alternatives.wellFormed, Bool.and_eq_true, decide_eq_true_eq] at hformed
    have hcontent := Delimited.length_content_le number
      (format.respell (forms.inside number) message)
    rw [Alternatives.respell] at hsmall
    have hmerge := format.concludes_respell hformed.1.2 (forms.inside number) message hwithin
      (by omega)
    have hstep : (Alternatives.message number name format others).merge ⟨number, .delimited⟩ none =
        fun reader => (Delimited.merge format.merge format.default reader).map fun message =>
          some (Sum.inl message) := by
      funext reader
      rw [Alternatives.merge, if_pos (beq_self_eq_true _)]
      rfl
    show Merged.Settles
      ((Alternatives.message number name format others).merge ⟨number, .delimited⟩ none) _ _ _
    rw [hstep]
    exact (Delimited.settles_merge (by omega) hmerge).map fun message => some (Sum.inl message)
  | .message number name format others, hnodup, hformed, forms, .inr value, hwithin, hsmall => by
    rw [Alternatives.numbers, List.nodup_cons] at hnodup
    rw [Alternatives.wellFormed, Bool.and_eq_true] at hformed
    have hsettles := others.settles_respell hnodup.2 hformed.2 forms value hwithin hsmall
    have hmerge : (Alternatives.message number name format others).merge
        (others.respell forms value).tag none = fun reader =>
        (others.merge (others.respell forms value).tag none reader).map (Option.map Sum.inr) := by
      funext reader
      rw [Alternatives.merge, others.tag_respell, others.tag_frame_beq_eq_false hnodup.1 value]
      rfl
    rw [Alternatives.respell, hmerge]
    exact hsettles.map (Option.map Sum.inr)

end

/-! ### How long a spelling is -/

/-- Unpacking adds a tag to each float, which is five bytes to four at the most. -/
theorem Leaf.length_respell_le {α : Type} {kind : Leaf α} (number : Nat)
    (hformed : kind.wellFormed = true) (unpacked : Bool) (value : α) :
    (Frame.bytesAll (kind.respell number unpacked value)).length ≤ 3 * kind.size number value := by
  have hpacked :
      (Frame.bytesAll (kind.frames number value)).length ≤ 3 * kind.size number value := by
    rw [kind.length_bytesAll_frames number hformed]
    omega
  cases kind with
  | floats capacity =>
    rw [respell]
    split
    · have htag := Nat.mul_le_mul_left value.length
        (Varint.size_le_maxSize (number * 8 % 0x100000000))
      rw [Floats.length_unpacked, size, Floats.size, Nat.mul_add]
      rw [← Tag.size, Varint.maxSize] at htag
      rw [Fixed32.size] at *
      split
      · rename_i hempty
        rw [List.isEmpty_iff.mp hempty]
        simp
      · rw [Size.delimited]
        omega
    · exact hpacked
  | _ => exact hpacked

theorem Delimited.length_enclose_le (number : Nat) {content : List Frame} {size : Nat}
    (h : (Frame.bytesAll content).length ≤ 3 * size) :
    (enclose number content).bytes.length ≤ 3 * Size.delimited number size := by
  have hlength := Varint.size_le_maxSize ((Frame.bytesAll content).length % 0x100000000)
  have htag := Varint.size_pos (number * 8 % 0x100000000)
  have hsize := Varint.size_pos (size % 0x100000000)
  rw [enclose, Frame.bytes, length_header_append, Size.delimited, Size.delimited, Tag.size]
  rw [Varint.maxSize] at hlength
  omega

theorem Frame.length_bytesAll_map_zipIdx_le {α : Type} {frame : α × Nat → Frame} {size : α → Nat}
    (h : ∀ entry, (frame entry).bytes.length ≤ 3 * size entry.1) (values : List α) (place : Nat) :
    (bytesAll ((values.zipIdx place).map frame)).length ≤
      3 * values.foldr (fun value others => size value + others) 0 := by
  induction values generalizing place with
  | nil => exact Nat.zero_le _
  | cons value values ih =>
    have hvalue : (frame (value, place)).bytes.length ≤ 3 * size value := h (value, place)
    have hothers := ih (place + 1)
    rw [List.zipIdx_cons, List.map_cons, bytesAll, List.length_append, List.foldr_cons]
    omega

mutual

/-- No spelling of a message is more than three times as long as the packed one. -/
theorem Format.length_respell_le {μ : Type} : (format : Format μ) → format.wellFormed = true →
    (forms : Forms) → (message : μ) →
    (Frame.bytesAll (format.respell forms message)).length ≤ 3 * format.size message
  | .record _ fields split _ _ _, hformed, forms, message => by
    rw [Format.wellFormed, Bool.and_eq_true] at hformed
    exact fields.length_respell_le hformed.2 forms (split message)

theorem Fields.length_respell_le {α : Type} : (fields : Fields α) → fields.wellFormed = true →
    (forms : Forms) → (values : α) →
    (Frame.bytesAll (fields.respell forms values)).length ≤ 3 * fields.size values
  | .nil, _, _, _ => Nat.zero_le _
  | .cons field others, hformed, forms, (value, values) => by
    rw [Fields.wellFormed, Bool.and_eq_true] at hformed
    have hfield := field.length_respell_le hformed.1 forms value
    have hothers := others.length_respell_le hformed.2 forms values
    rw [Fields.respell, Fields.size, Frame.bytesAll_append, List.length_append]
    omega

theorem Field.length_respell_le {α : Type} : (field : Field α) → field.wellFormed = true →
    (forms : Forms) → (value : α) →
    (Frame.bytesAll (field.respell forms value)).length ≤ 3 * field.size value
  | .leaf number _ kind, hformed, forms, value => by
    rw [Field.wellFormed, Bool.and_eq_true] at hformed
    exact kind.length_respell_le number hformed.2 (forms [number]) value
  | .message _ _ _, _, _, none => Nat.zero_le _
  | .message number _ format, hformed, forms, some message => by
    rw [Field.wellFormed, Bool.and_eq_true] at hformed
    rw [Field.respell, Field.size, Option.elim_some, Option.elim_some, Frame.bytesAll_singleton]
    exact Delimited.length_enclose_le number (format.length_respell_le hformed.2 _ message)
  | .messages number _ _ format, hformed, forms, values => by
    rw [Field.wellFormed, Bool.and_eq_true] at hformed
    have hcontent := fun entry : _ × Nat => Delimited.length_enclose_le number
      (format.length_respell_le hformed.2 ((forms.inside number).inside entry.2) entry.1)
    rw [Field.respell, Field.size]
    exact Frame.length_bytesAll_map_zipIdx_le hcontent values 0
  | .choice _ _ _ _ _ _, _, _, none => Nat.zero_le _
  | .choice _ alternatives split _ _ _, hformed, forms, some kind => by
    rw [Field.wellFormed, Bool.and_eq_true] at hformed
    rw [Field.respell, Field.size, Option.elim_some, Option.elim_some, Frame.bytesAll_singleton]
    exact alternatives.length_respell_le hformed.2 forms (split kind)

theorem Alternatives.length_respell_le {α : Type} : (alternatives : Alternatives α) →
    alternatives.wellFormed = true → (forms : Forms) → (value : α) →
    (alternatives.respell forms value).bytes.length ≤ 3 * alternatives.size value
  | .signal number _ _, _, _, .inl () => by
    have hempty : (Frame.bytesAll []).length ≤ 3 * 0 := Nat.le_refl 0
    rw [Alternatives.respell, Alternatives.size]
    exact Delimited.length_enclose_le number hempty
  | .signal _ _ others, hformed, forms, .inr value => by
    rw [Alternatives.wellFormed, Bool.and_eq_true] at hformed
    exact others.length_respell_le hformed.2 forms value
  | .scalar number name kind others, hformed, _, .inl value => by
    have hlength :=
      (Alternatives.scalar number name kind others).length_bytes_frame hformed (.inl value)
    rw [Alternatives.respell]
    rw [Alternatives.frame] at hlength
    omega
  | .scalar _ _ _ others, hformed, forms, .inr value => by
    rw [Alternatives.wellFormed, Bool.and_eq_true] at hformed
    exact others.length_respell_le hformed.2 forms value
  | .message number _ format _, hformed, forms, .inl message => by
    simp only [Alternatives.wellFormed, Bool.and_eq_true] at hformed
    exact Delimited.length_enclose_le number (format.length_respell_le hformed.1.2 _ message)
  | .message _ _ _ others, hformed, forms, .inr value => by
    rw [Alternatives.wellFormed, Bool.and_eq_true] at hformed
    exact others.length_respell_le hformed.2 forms value

end

/-! ### Where no list is unpacked -/

mutual

/-- No list of floats occurs in the messages, at any depth. -/
def Format.floatless {μ : Type} : Format μ → Bool
  | .record _ fields _ _ _ _ => fields.floatless

def Fields.floatless {α : Type} : Fields α → Bool
  | .nil => true
  | .cons field others => field.floatless && others.floatless

def Field.floatless {α : Type} : Field α → Bool
  | .leaf _ _ (.floats _) => false
  | .leaf _ _ _ => true
  | .message _ _ format => format.floatless
  | .messages _ _ _ format => format.floatless
  | .choice _ alternatives _ _ _ _ => alternatives.floatless

def Alternatives.floatless {α : Type} : Alternatives α → Bool
  | .nil => true
  | .signal _ _ others => others.floatless
  | .scalar _ _ _ others => others.floatless
  | .message _ _ format others => format.floatless && others.floatless

end

theorem Leaf.respell_of_packed {α : Type} {number : Nat} {name : String} {kind : Leaf α}
    {unpacked : Bool} (h : (Field.leaf number name kind).floatless = true ∨ unpacked = false)
    (value : α) : kind.respell number unpacked value = kind.frames number value := by
  cases kind with
  | floats capacity =>
    rcases h with h | rfl
    · contradiction
    · rfl
  | _ => rfl

theorem Format.enclose_respell {μ : Type} {format : Format μ} {forms : Forms} {message : μ}
    (hformed : format.wellFormed = true) (h : format.respell forms message = format.frames message)
    (number : Nat) : Delimited.enclose number (format.respell forms message) =
      .message number (format.size message) (format.frames message) := by
  rw [Delimited.enclose, h, format.length_bytesAll_frames hformed]

mutual

theorem Format.respell_of_packed {μ : Type} : (format : Format μ) → format.wellFormed = true →
    (forms : Forms) → (format.floatless = true ∨ ∀ path, forms path = false) → (message : μ) →
    format.respell forms message = format.frames message
  | .record _ fields split _ _ _, hformed, forms, h, message => by
    rw [Format.wellFormed, Bool.and_eq_true] at hformed
    exact fields.respell_of_packed hformed.2 forms h (split message)

theorem Fields.respell_of_packed {α : Type} : (fields : Fields α) → fields.wellFormed = true →
    (forms : Forms) → (fields.floatless = true ∨ ∀ path, forms path = false) → (values : α) →
    fields.respell forms values = fields.frames values
  | .nil, _, _, _, _ => rfl
  | .cons field others, hformed, forms, h, (value, values) => by
    rw [Fields.wellFormed, Bool.and_eq_true] at hformed
    rw [Fields.floatless, Bool.and_eq_true] at h
    rw [Fields.respell, Fields.frames,
      field.respell_of_packed hformed.1 forms (h.imp_left And.left),
      others.respell_of_packed hformed.2 forms (h.imp_left And.right)]

theorem Field.respell_of_packed {α : Type} : (field : Field α) → field.wellFormed = true →
    (forms : Forms) → (field.floatless = true ∨ ∀ path, forms path = false) → (value : α) →
    field.respell forms value = field.frames value
  | .leaf number _ kind, _, _, h, value => kind.respell_of_packed (h.imp_right (· [number])) value
  | .message _ _ _, _, _, _, none => rfl
  | .message number _ format, hformed, forms, h, some message => by
    rw [Field.wellFormed, Bool.and_eq_true] at hformed
    have hcontent := format.respell_of_packed hformed.2 (forms.inside number)
      (h.imp_right fun h path => h _) message
    rw [Field.respell, Field.frames, Option.elim_some, Option.elim_some,
      format.enclose_respell hformed.2 hcontent]
  | .messages number _ _ format, hformed, forms, h, values => by
    rw [Field.wellFormed, Bool.and_eq_true] at hformed
    have hcontent := fun entry : _ × Nat => format.enclose_respell hformed.2
      (format.respell_of_packed hformed.2 ((forms.inside number).inside entry.2)
        (h.imp_right fun h path => h _) entry.1) number
    rw [Field.respell, Field.frames, funext hcontent]
    exact map_fst_zipIdx (fun message => Frame.message number (format.size message)
      (format.frames message)) values
  | .choice _ _ _ _ _ _, _, _, _, none => rfl
  | .choice _ alternatives split _ _ _, hformed, forms, h, some kind => by
    rw [Field.wellFormed, Bool.and_eq_true] at hformed
    rw [Field.respell, Field.frames, Option.elim_some, Option.elim_some,
      alternatives.respell_of_packed hformed.2 forms h]

theorem Alternatives.respell_of_packed {α : Type} : (alternatives : Alternatives α) →
    alternatives.wellFormed = true → (forms : Forms) →
    (alternatives.floatless = true ∨ ∀ path, forms path = false) → (value : α) →
    alternatives.respell forms value = alternatives.frame value
  | .signal _ _ _, _, _, _, .inl () => rfl
  | .signal _ _ others, hformed, forms, h, .inr value => by
    rw [Alternatives.wellFormed, Bool.and_eq_true] at hformed
    exact others.respell_of_packed hformed.2 forms h value
  | .scalar _ _ _ _, _, _, _, .inl _ => rfl
  | .scalar _ _ _ others, hformed, forms, h, .inr value => by
    rw [Alternatives.wellFormed, Bool.and_eq_true] at hformed
    exact others.respell_of_packed hformed.2 forms h value
  | .message number _ format _, hformed, forms, h, .inl message => by
    simp only [Alternatives.wellFormed, Bool.and_eq_true] at hformed
    rw [Alternatives.floatless, Bool.and_eq_true] at h
    have hcontent := format.respell_of_packed hformed.1.2 (forms.inside number)
      (h.imp And.left fun h path => h _) message
    rw [Alternatives.respell, Alternatives.frame, format.enclose_respell hformed.1.2 hcontent]
  | .message _ _ _ others, hformed, forms, h, .inr value => by
    rw [Alternatives.wellFormed, Bool.and_eq_true] at hformed
    rw [Alternatives.floatless, Bool.and_eq_true] at h
    exact others.respell_of_packed hformed.2 forms (h.imp_left And.right) value

end

/-! ### Where nothing becomes too long -/

mutual

/-- No list of floats occurs in an element of a list of messages, at any depth. -/
def Format.steady {μ : Type} : Format μ → Bool
  | .record _ fields _ _ _ _ => fields.steady

def Fields.steady {α : Type} : Fields α → Bool
  | .nil => true
  | .cons field others => field.steady && others.steady

/-- The elements of the field have no lists of floats. Nothing else is limited in its length. -/
def Field.steady {α : Type} : Field α → Bool
  | .leaf _ _ _ => true
  | .message _ _ format => format.steady
  | .messages _ _ _ format => format.floatless && format.steady
  | .choice _ alternatives _ _ _ _ => alternatives.steady

def Alternatives.steady {α : Type} : Alternatives α → Bool
  | .nil => true
  | .signal _ _ others => others.steady
  | .scalar _ _ _ others => others.steady
  | .message _ _ format others => format.steady && others.steady

end

mutual

/-- Where no element of a list can become longer, none becomes too long. -/
theorem Format.overlong_of_steady {μ : Type} : (format : Format μ) →
    format.wellFormed = true → format.steady = true → (forms : Forms) → (message : μ) →
    format.within message = true → format.overlong forms message = []
  | .record _ fields split _ _ _, hformed, h, forms, message, hwithin => by
    rw [Format.wellFormed, Bool.and_eq_true] at hformed
    exact fields.overlong_of_steady hformed.2 h forms (split message) hwithin

theorem Fields.overlong_of_steady {α : Type} : (fields : Fields α) →
    fields.wellFormed = true → fields.steady = true → (forms : Forms) → (values : α) →
    fields.within values = true → fields.overlong forms values = []
  | .nil, _, _, _, _, _ => rfl
  | .cons field others, hformed, h, forms, (value, values), hwithin => by
    rw [Fields.wellFormed, Bool.and_eq_true] at hformed
    rw [Fields.steady, Bool.and_eq_true] at h
    rw [Fields.within, Bool.and_eq_true] at hwithin
    rw [Fields.overlong, field.overlong_of_steady hformed.1 h.1 forms value hwithin.1,
      others.overlong_of_steady hformed.2 h.2 forms values hwithin.2, List.append_nil]

theorem Field.overlong_of_steady {α : Type} : (field : Field α) →
    field.wellFormed = true → field.steady = true → (forms : Forms) → (value : α) →
    field.within value = true → field.overlong forms value = []
  | .leaf _ _ _, _, _, _, _, _ => rfl
  | .message _ _ _, _, _, _, none, _ => rfl
  | .message number _ format, hformed, h, forms, some message, hwithin => by
    rw [Field.wellFormed, Bool.and_eq_true] at hformed
    exact format.overlong_of_steady hformed.2 h (forms.inside number) message hwithin
  | .messages number _ _ format, hformed, h, forms, values, hwithin => by
    rw [Field.wellFormed, Bool.and_eq_true] at hformed
    rw [Field.steady, Bool.and_eq_true] at h
    simp only [Field.within, Bool.and_eq_true, List.all_eq_true] at hwithin
    rw [Field.overlong, List.flatMap_eq_nil_iff]
    intro entry hentry
    have hmessage := hwithin.2 entry.1 (List.fst_mem_of_mem_zipIdx hentry)
    -- the element is the packed one, so it is not too long
    rw [format.respell_of_packed hformed.2 _ (.inl h.1), format.length_bytesAll_frames hformed.2,
      Delimited.elementErrors, if_neg (Nat.not_lt.mpr (format.size_le_maxSize hformed.2 hmessage))]
    exact format.overlong_of_steady hformed.2 h.2 _ entry.1 hmessage
  | .choice _ _ _ _ _ _, _, _, _, none, _ => rfl
  | .choice _ alternatives split _ _ _, hformed, h, forms, some kind, hwithin => by
    rw [Field.wellFormed, Bool.and_eq_true] at hformed
    exact alternatives.overlong_of_steady hformed.2 h forms (split kind) hwithin

theorem Alternatives.overlong_of_steady {α : Type} : (alternatives : Alternatives α) →
    alternatives.wellFormed = true → alternatives.steady = true → (forms : Forms) → (value : α) →
    alternatives.within value = true → alternatives.overlong forms value = []
  | .signal _ _ _, _, _, _, .inl (), _ => rfl
  | .signal _ _ others, hformed, h, forms, .inr value, hwithin => by
    rw [Alternatives.wellFormed, Bool.and_eq_true] at hformed
    exact others.overlong_of_steady hformed.2 h forms value hwithin
  | .scalar _ _ _ _, _, _, _, .inl _, _ => rfl
  | .scalar _ _ _ others, hformed, h, forms, .inr value, hwithin => by
    rw [Alternatives.wellFormed, Bool.and_eq_true] at hformed
    exact others.overlong_of_steady hformed.2 h forms value hwithin
  | .message number _ format _, hformed, h, forms, .inl message, hwithin => by
    simp only [Alternatives.wellFormed, Bool.and_eq_true] at hformed
    rw [Alternatives.steady, Bool.and_eq_true] at h
    exact format.overlong_of_steady hformed.1.2 h.1 (forms.inside number) message hwithin
  | .message _ _ _ others, hformed, h, forms, .inr value, hwithin => by
    rw [Alternatives.wellFormed, Bool.and_eq_true] at hformed
    rw [Alternatives.steady, Bool.and_eq_true] at h
    exact others.overlong_of_steady hformed.2 h.2 forms value hwithin

end

/-! ### Decoding a spelling -/

namespace Format

variable {μ : Type} {format : Format μ} {message : μ}

theorem bytesAll_respell_of_packed (hformed : format.wellFormed = true) {forms : Forms}
    (h : ∀ path, forms path = false) (message : μ) :
    Frame.bytesAll (format.respell forms message) = format.bytes message := by
  rw [format.respell_of_packed hformed forms (.inr h), format.bytesAll_frames, bytes]

/-- Decoding a spelling fails with the first of the errors, and where there is none it gives the message and leaves nothing. -/
theorem decode_respell (hformed : format.wellFormed = true)
    (hsmall : 3 * format.maxSize < 0x100000000)
    (hwithin : format.within message = true) (forms : Forms) :
    let decoded := format.decode (.ofBytes (Frame.bytesAll (format.respell forms message)))
    decoded.error = (format.overlong forms message).head? ∧
      (format.overlong forms message = [] →
        decoded.value = format.plain message ∧ decoded.reader.unread = 0) := by
  have hlength := format.length_respell_le hformed forms message
  have hsize := format.size_le_maxSize hformed hwithin
  have hconcludes := format.concludes_respell hformed forms message hwithin (by omega)
  have hoffers := Reader.offers_ofBytes (Frame.bytesAll (format.respell forms message))
  cases herrors : format.overlong forms message with
  | nil =>
    rw [herrors] at hconcludes
    obtain ⟨after, hdecode, hadvanced⟩ := hconcludes _ hoffers (Reader.ends_ofBytes _)
    have hunread : after.unread + (Frame.bytesAll (format.respell forms message)).length =
        (Frame.bytesAll (format.respell forms message)).length := hadvanced.unread
    have hnothing : after.unread = 0 := by omega
    rw [decode, hdecode]
    exact ⟨rfl, fun _ => ⟨rfl, hnothing⟩⟩
  | cons error others =>
    rw [herrors] at hconcludes
    obtain ⟨_, herror, rfl⟩ := hconcludes _ hoffers
    exact ⟨herror, fun hnone => nomatch hnone⟩

end Format

end EngineConsole
