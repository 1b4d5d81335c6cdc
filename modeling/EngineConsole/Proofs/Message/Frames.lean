import EngineConsole.Message.Decode
import EngineConsole.Message.Encode
import EngineConsole.Proofs.Message.Capacity
import EngineConsole.Proofs.Record.Merge

/-!
# The frames of a message

An encoder writes the length of a nested message before the message itself, so it has to know that length in advance, and it takes it from the size of the message. The frames of a message record these lengths as the encoder declares them. They spell the same bytes as the encoding, each declared length is the length of what follows, and each frame has a tag that the field which wrote it accepts.
-/

namespace EngineConsole

/-! ### Frames -/

def Leaf.frames {α : Type} (number : Nat) : Leaf α → α → List Frame
  | .scalar kind, value =>
    if kind.isZero value then [] else [.scalar ⟨number, kind.wireType⟩ (kind.encodeValue value)]
  | .optional kind, value =>
    value.elim [] fun value => [.scalar ⟨number, kind.wireType⟩ (kind.encodeValue value)]
  | .text _, value =>
    if value.isEmpty then [] else [.blob number (Text.bytes value).length (Text.bytes value)]
  | .optionalText _, value =>
    value.elim [] fun text => [.blob number (Text.bytes text).length (Text.bytes text)]
  | .floats _, values =>
    if values.isEmpty then []
    else [.blob number (values.length * Fixed32.size) (values.flatMap Single.encode)]

mutual

/-- The frames that write a message. -/
def Format.frames {μ : Type} : Format μ → μ → List Frame
  | .record _ fields split _ _ _, message => fields.frames (split message)

def Fields.frames {α : Type} : Fields α → α → List Frame
  | .nil, _ => []
  | .cons field others, (value, values) => field.frames value ++ others.frames values

/-- The frames that write a field. The length declared for a message is its size. -/
def Field.frames {α : Type} : Field α → α → List Frame
  | .leaf number _ kind, value => kind.frames number value
  | .message number _ format, value =>
    value.elim [] fun message => [.message number (format.size message) (format.frames message)]
  | .messages number _ _ format, values =>
    values.map fun message => .message number (format.size message) (format.frames message)
  | .choice _ alternatives split _ _ _, value =>
    value.elim [] fun kind => [alternatives.frame (split kind)]

def Alternatives.frame {α : Type} : Alternatives α → α → Frame
  | .signal number _ _, .inl () => .message number 0 []
  | .signal _ _ others, .inr value => others.frame value
  | .scalar number _ kind _, .inl value => .scalar ⟨number, kind.wireType⟩ (kind.encodeValue value)
  | .scalar _ _ _ others, .inr value => others.frame value
  | .message number _ format _, .inl message =>
    .message number (format.size message) (format.frames message)
  | .message _ _ _ others, .inr value => others.frame value

end

/-! ### The frames spell the encoding -/

theorem Leaf.bytesAll_frames {α : Type} (number : Nat) (kind : Leaf α) (value : α) :
    Frame.bytesAll (kind.frames number value) = (kind.encode number value).flatten := by
  have htext : ∀ text, Frame.bytesAll [.blob number (Text.bytes text).length (Text.bytes text)] =
      (Text.encode number text).flatten := fun text => by
    simp only [Frame.bytesAll, Frame.bytes, Text.encode, List.flatten_cons, List.flatten_nil,
      List.append_assoc]
  cases kind with
  | scalar kind =>
    rw [frames, encode]
    split
    · rfl
    · rfl
  | optional kind =>
    cases value with
    | none => rfl
    | some value => rfl
  | text capacity =>
    rw [frames, encode]
    split
    · rfl
    · exact htext value
  | optionalText capacity =>
    cases value with
    | none => rfl
    | some text => exact htext text
  | floats capacity =>
    rw [frames, encode, Floats.flatten_encode, Floats.length_flatMap_encode]
    split
    · rfl
    · rw [Frame.bytesAll_singleton, Frame.bytes]

mutual

/-- The frames of a message spell its encoding. -/
theorem Format.bytesAll_frames {μ : Type} : (format : Format μ) → (message : μ) →
    Frame.bytesAll (format.frames message) = (format.encode message).flatten
  | .record _ fields split _ _ _, message => fields.bytesAll_frames (split message)

theorem Fields.bytesAll_frames {α : Type} : (fields : Fields α) → (values : α) →
    Frame.bytesAll (fields.frames values) = (fields.encode values).flatten
  | .nil, _ => rfl
  | .cons field others, (value, values) => by
    rw [Fields.frames, Fields.encode, Frame.bytesAll_append, List.flatten_append,
      field.bytesAll_frames, others.bytesAll_frames]

theorem Field.bytesAll_frames {α : Type} : (field : Field α) → (value : α) →
    Frame.bytesAll (field.frames value) = (field.encode value).flatten
  | .leaf number _ kind, value => kind.bytesAll_frames number value
  | .message _ _ _, none => rfl
  | .message number _ format, some message => by
    have hcontent := format.bytesAll_frames message
    rw [Field.frames, Field.encode, Option.elim_some, Option.elim_some, Frame.bytesAll_singleton,
      Frame.bytes, hcontent, List.flatten_cons]
  | .messages number _ _ format, values => by
    have hcontent := format.bytesAll_frames
    rw [Field.frames, Field.encode]
    induction values with
    | nil => rfl
    | cons message values ih =>
      rw [List.map_cons, Frame.bytesAll, Frame.bytes, hcontent, ih, List.flatMap_cons,
        List.flatten_append, List.flatten_cons]
  | .choice _ _ _ _ _ _, none => rfl
  | .choice _ alternatives split _ _ _, some kind => by
    rw [Field.frames, Field.encode, Option.elim_some, Option.elim_some, Frame.bytesAll_singleton]
    exact alternatives.bytes_frame (split kind)

theorem Alternatives.bytes_frame {α : Type} : (alternatives : Alternatives α) → (value : α) →
    (alternatives.frame value).bytes = (alternatives.encode value).flatten
  | .signal _ _ _, .inl () => rfl
  | .signal _ _ others, .inr value => others.bytes_frame value
  | .scalar number _ kind _, .inl value => List.flatten_singleton.symm
  | .scalar _ _ _ others, .inr value => others.bytes_frame value
  | .message number _ format _, .inl message => by
    have hcontent := format.bytesAll_frames message
    rw [Alternatives.frame, Alternatives.encode, Frame.bytes, hcontent, List.flatten_cons]
  | .message _ _ _ others, .inr value => others.bytes_frame value

end

/-! ### The size counts the bytes -/

theorem Leaf.length_bytesAll_frames {α : Type} {kind : Leaf α} (number : Nat)
    (hformed : kind.wellFormed = true) (value : α) :
    (Frame.bytesAll (kind.frames number value)).length = kind.size number value := by
  have hscalar : ∀ {β : Type} {scalar : Scalar β} (value : β), scalar.wellFormed = true →
      (Frame.bytesAll [.scalar ⟨number, scalar.wireType⟩ (scalar.encodeValue value)]).length =
        scalar.size number value := fun value hscalar => by
    rw [Frame.bytesAll_singleton, Frame.bytes]
    exact Scalar.length_encode (Scalar.numbered_of_wellFormed hscalar) number value
  have htext : ∀ text,
      (Frame.bytesAll [.blob number (Text.bytes text).length (Text.bytes text)]).length =
        Text.size number text := fun text => by
    rw [Frame.bytesAll_singleton, Frame.bytes, Delimited.length_header_append, Text.length_bytes,
      Text.size]
  cases kind with
  | scalar kind =>
    rw [frames, size]
    split
    · rfl
    · exact hscalar value hformed
  | optional kind =>
    cases value with
    | none => rfl
    | some value => exact hscalar value hformed
  | text capacity =>
    rw [frames, size]
    split
    · rfl
    · exact htext value
  | optionalText capacity =>
    cases value with
    | none => rfl
    | some text => exact htext text
  | floats capacity =>
    rw [frames, size, Floats.size]
    split
    · rfl
    · rw [Frame.bytesAll_singleton, Frame.bytes, ← Floats.length_flatMap_encode,
        Delimited.length_header_append]

theorem Frame.length_bytes_message {number size : Nat} {content : List Frame}
    (h : (bytesAll content).length = size) :
    (Frame.message number size content).bytes.length = Size.delimited number size := by
  rw [bytes, ← h, Delimited.length_header_append]

mutual

theorem Format.length_bytesAll_frames {μ : Type} : (format : Format μ) →
    format.wellFormed = true → (message : μ) →
    (Frame.bytesAll (format.frames message)).length = format.size message
  | .record _ fields split _ _ _, hformed, message => by
    rw [Format.wellFormed, Bool.and_eq_true] at hformed
    exact fields.length_bytesAll_frames hformed.2 (split message)

theorem Fields.length_bytesAll_frames {α : Type} : (fields : Fields α) →
    fields.wellFormed = true → (values : α) →
    (Frame.bytesAll (fields.frames values)).length = fields.size values
  | .nil, _, _ => rfl
  | .cons field others, hformed, (value, values) => by
    rw [Fields.wellFormed, Bool.and_eq_true] at hformed
    rw [Fields.frames, Fields.size, Frame.bytesAll_append, List.length_append,
      field.length_bytesAll_frames hformed.1, others.length_bytesAll_frames hformed.2]

theorem Field.length_bytesAll_frames {α : Type} : (field : Field α) →
    field.wellFormed = true → (value : α) →
    (Frame.bytesAll (field.frames value)).length = field.size value
  | .leaf number _ kind, hformed, value => by
    rw [Field.wellFormed, Bool.and_eq_true] at hformed
    exact kind.length_bytesAll_frames number hformed.2 value
  | .message _ _ _, _, none => rfl
  | .message number _ format, hformed, some message => by
    rw [Field.wellFormed, Bool.and_eq_true] at hformed
    rw [Field.frames, Field.size, Option.elim_some, Option.elim_some, Frame.bytesAll_singleton]
    exact Frame.length_bytes_message (format.length_bytesAll_frames hformed.2 message)
  | .messages number _ _ format, hformed, values => by
    rw [Field.wellFormed, Bool.and_eq_true] at hformed
    have hcontent := format.length_bytesAll_frames hformed.2
    rw [Field.frames, Field.size]
    induction values with
    | nil => rfl
    | cons message values ih =>
      rw [List.map_cons, Frame.bytesAll, List.length_append,
        Frame.length_bytes_message (hcontent message), ih, List.foldr_cons]
  | .choice _ _ _ _ _ _, _, none => rfl
  | .choice _ alternatives split _ _ _, hformed, some kind => by
    rw [Field.wellFormed, Bool.and_eq_true] at hformed
    rw [Field.frames, Field.size, Option.elim_some, Option.elim_some, Frame.bytesAll_singleton]
    exact alternatives.length_bytes_frame hformed.2 (split kind)

theorem Alternatives.length_bytes_frame {α : Type} : (alternatives : Alternatives α) →
    alternatives.wellFormed = true → (value : α) →
    (alternatives.frame value).bytes.length = alternatives.size value
  | .signal number _ _, _, .inl () => Frame.length_bytes_message rfl
  | .signal _ _ others, hformed, .inr value => by
    rw [Alternatives.wellFormed, Bool.and_eq_true] at hformed
    exact others.length_bytes_frame hformed.2 value
  | .scalar number _ kind _, hformed, .inl value => by
    simp only [Alternatives.wellFormed, Bool.and_eq_true] at hformed
    exact Scalar.length_encode (Scalar.numbered_of_wellFormed hformed.1.2) number value
  | .scalar _ _ _ others, hformed, .inr value => by
    rw [Alternatives.wellFormed, Bool.and_eq_true] at hformed
    exact others.length_bytes_frame hformed.2 value
  | .message number _ format _, hformed, .inl message => by
    simp only [Alternatives.wellFormed, Bool.and_eq_true] at hformed
    exact Frame.length_bytes_message (format.length_bytesAll_frames hformed.1.2 message)
  | .message _ _ _ others, hformed, .inr value => by
    rw [Alternatives.wellFormed, Bool.and_eq_true] at hformed
    exact others.length_bytes_frame hformed.2 value

end

namespace Format

theorem length_bytes {μ : Type} {format : Format μ} (hformed : format.wellFormed = true)
    (message : μ) : (format.bytes message).length = format.size message := by
  rw [bytes, ← format.bytesAll_frames, format.length_bytesAll_frames hformed]

end Format

/-! ### Every declared length is exact -/

theorem Leaf.exactAll_frames {α : Type} (number : Nat) (kind : Leaf α) (value : α) :
    Frame.ExactAll (kind.frames number value) := by
  rw [Frame.exactAll_iff]
  cases kind with
  | scalar kind =>
    rw [frames]
    split
    · exact List.forall_mem_nil _
    · exact List.forall_mem_singleton.mpr trivial
  | optional kind =>
    cases value with
    | none => exact List.forall_mem_nil _
    | some value => exact List.forall_mem_singleton.mpr trivial
  | text capacity =>
    rw [frames]
    split
    · exact List.forall_mem_nil _
    · exact List.forall_mem_singleton.mpr rfl
  | optionalText capacity =>
    cases value with
    | none => exact List.forall_mem_nil _
    | some text => exact List.forall_mem_singleton.mpr rfl
  | floats capacity =>
    rw [frames]
    split
    · exact List.forall_mem_nil _
    · exact List.forall_mem_singleton.mpr (Floats.length_flatMap_encode value).symm

mutual

/-- The lengths declared in a message, at every depth, are the lengths of what follows them. -/
theorem Format.exactAll_frames {μ : Type} : (format : Format μ) →
    format.wellFormed = true → (message : μ) → Frame.ExactAll (format.frames message)
  | .record _ fields split _ _ _, hformed, message => by
    rw [Format.wellFormed, Bool.and_eq_true] at hformed
    exact fields.exactAll_frames hformed.2 (split message)

theorem Fields.exactAll_frames {α : Type} : (fields : Fields α) →
    fields.wellFormed = true → (values : α) → Frame.ExactAll (fields.frames values)
  | .nil, _, _ => trivial
  | .cons field others, hformed, (value, values) => by
    rw [Fields.wellFormed, Bool.and_eq_true] at hformed
    rw [Fields.frames, Frame.exactAll_append]
    exact ⟨field.exactAll_frames hformed.1 value, others.exactAll_frames hformed.2 values⟩

theorem Field.exactAll_frames {α : Type} : (field : Field α) →
    field.wellFormed = true → (value : α) → Frame.ExactAll (field.frames value)
  | .leaf number _ kind, _, value => kind.exactAll_frames number value
  | .message _ _ _, _, none => trivial
  | .message number _ format, hformed, some message => by
    rw [Field.wellFormed, Bool.and_eq_true] at hformed
    have hlength := (format.length_bytesAll_frames hformed.2 message).symm
    exact ⟨⟨hlength, format.exactAll_frames hformed.2 message⟩, trivial⟩
  | .messages number _ _ format, hformed, values => by
    rw [Field.wellFormed, Bool.and_eq_true] at hformed
    rw [Field.frames, Frame.exactAll_iff, List.forall_mem_map]
    intro message _
    have hlength := (format.length_bytesAll_frames hformed.2 message).symm
    exact ⟨hlength, format.exactAll_frames hformed.2 message⟩
  | .choice _ _ _ _ _ _, _, none => trivial
  | .choice _ alternatives split _ _ _, hformed, some kind => by
    rw [Field.wellFormed, Bool.and_eq_true] at hformed
    exact ⟨alternatives.exact_frame hformed.2 (split kind), trivial⟩

theorem Alternatives.exact_frame {α : Type} : (alternatives : Alternatives α) →
    alternatives.wellFormed = true → (value : α) → (alternatives.frame value).Exact
  | .signal _ _ _, _, .inl () => ⟨rfl, trivial⟩
  | .signal _ _ others, hformed, .inr value => by
    rw [Alternatives.wellFormed, Bool.and_eq_true] at hformed
    exact others.exact_frame hformed.2 value
  | .scalar _ _ _ _, _, .inl _ => trivial
  | .scalar _ _ _ others, hformed, .inr value => by
    rw [Alternatives.wellFormed, Bool.and_eq_true] at hformed
    exact others.exact_frame hformed.2 value
  | .message _ _ format _, hformed, .inl message => by
    simp only [Alternatives.wellFormed, Bool.and_eq_true] at hformed
    have hlength := (format.length_bytesAll_frames hformed.1.2 message).symm
    exact ⟨hlength, format.exactAll_frames hformed.1.2 message⟩
  | .message _ _ _ others, hformed, .inr value => by
    rw [Alternatives.wellFormed, Bool.and_eq_true] at hformed
    exact others.exact_frame hformed.2 value

end

/-! ### The tags of the frames -/

theorem Leaf.tag_of_mem_frames {α : Type} {number : Nat} {kind : Leaf α} {value : α} {frame : Frame}
    (h : frame ∈ kind.frames number value) :
    frame.tag.number = number ∧ kind.accepts frame.tag.wireType = true ∧
      ∀ raw, frame.tag.wireType ≠ .unsupported raw := by
  cases kind with
  | scalar kind =>
    rw [frames] at h
    split at h
    · cases h
    · obtain rfl := List.mem_singleton.mp h
      exact ⟨rfl, beq_self_eq_true _, kind.wireType_ne_unsupported⟩
  | optional kind =>
    cases value with
    | none => cases h
    | some value =>
      obtain rfl := List.mem_singleton.mp h
      exact ⟨rfl, beq_self_eq_true _, kind.wireType_ne_unsupported⟩
  | text capacity =>
    rw [frames] at h
    split at h
    · cases h
    · obtain rfl := List.mem_singleton.mp h
      exact ⟨rfl, rfl, fun _ => WireType.noConfusion⟩
  | optionalText capacity =>
    cases value with
    | none => cases h
    | some text =>
      obtain rfl := List.mem_singleton.mp h
      exact ⟨rfl, rfl, fun _ => WireType.noConfusion⟩
  | floats capacity =>
    rw [frames] at h
    split at h
    · cases h
    · obtain rfl := List.mem_singleton.mp h
      exact ⟨rfl, rfl, fun _ => WireType.noConfusion⟩

theorem Alternatives.accepts_tag_frame {α : Type} : (alternatives : Alternatives α) → (value : α) →
    alternatives.accepts (alternatives.frame value).tag = true
  | .signal _ _ _, .inl () => by simp [Alternatives.accepts, Alternatives.frame, Frame.tag]
  | .signal _ _ others, .inr value => by
    rw [Alternatives.accepts, Alternatives.frame, others.accepts_tag_frame value, Bool.or_true]
  | .scalar _ _ _ _, .inl _ => by simp [Alternatives.accepts, Alternatives.frame, Frame.tag]
  | .scalar _ _ _ others, .inr value => by
    rw [Alternatives.accepts, Alternatives.frame, others.accepts_tag_frame value, Bool.or_true]
  | .message _ _ _ _, .inl _ => by simp [Alternatives.accepts, Alternatives.frame, Frame.tag]
  | .message _ _ _ others, .inr value => by
    rw [Alternatives.accepts, Alternatives.frame, others.accepts_tag_frame value, Bool.or_true]

theorem Alternatives.tag_frame_beq_eq_false {α : Type} {alternatives : Alternatives α} {number : Nat}
    {wireType : WireType} (h : number ∉ alternatives.numbers) (value : α) :
    ((alternatives.frame value).tag == ⟨number, wireType⟩) = false := by
  rw [beq_eq_false_iff_ne]
  intro htag
  have hmem := alternatives.mem_numbers_of_accepts (alternatives.accepts_tag_frame value)
  rw [htag] at hmem
  exact h hmem

theorem Alternatives.legible_tag_frame {α : Type} : (alternatives : Alternatives α) →
    alternatives.wellFormed = true → (value : α) → (alternatives.frame value).tag.Legible
  | .signal _ _ _, hformed, .inl () => by
    simp only [Alternatives.wellFormed, Bool.and_eq_true, decide_eq_true_eq] at hformed
    exact ⟨hformed.1, fun _ => WireType.noConfusion⟩
  | .signal _ _ others, hformed, .inr value => by
    rw [Alternatives.wellFormed, Bool.and_eq_true] at hformed
    exact others.legible_tag_frame hformed.2 value
  | .scalar _ _ kind _, hformed, .inl _ => by
    simp only [Alternatives.wellFormed, Bool.and_eq_true, decide_eq_true_eq] at hformed
    exact ⟨hformed.1.1, kind.wireType_ne_unsupported⟩
  | .scalar _ _ _ others, hformed, .inr value => by
    rw [Alternatives.wellFormed, Bool.and_eq_true] at hformed
    exact others.legible_tag_frame hformed.2 value
  | .message _ _ _ _, hformed, .inl _ => by
    simp only [Alternatives.wellFormed, Bool.and_eq_true, decide_eq_true_eq] at hformed
    exact ⟨hformed.1.1.1, fun _ => WireType.noConfusion⟩
  | .message _ _ _ others, hformed, .inr value => by
    rw [Alternatives.wellFormed, Bool.and_eq_true] at hformed
    exact others.legible_tag_frame hformed.2 value

theorem Field.accepts_tag_of_mem_frames {α : Type} {field : Field α} {value : α} {frame : Frame}
    (h : frame ∈ field.frames value) : field.accepts frame.tag = true := by
  cases field with
  | leaf number name kind =>
    obtain ⟨hnumber, haccepts, _⟩ := kind.tag_of_mem_frames h
    rw [accepts, hnumber, haccepts, beq_self_eq_true, Bool.and_self]
  | message number name format =>
    cases value with
    | none => cases h
    | some message =>
      obtain rfl := List.mem_singleton.mp h
      exact beq_self_eq_true _
  | messages number name capacity format =>
    obtain ⟨message, _, rfl⟩ := List.mem_map.mp h
    exact beq_self_eq_true _
  | choice name alternatives split join join_split split_join =>
    cases value with
    | none => cases h
    | some kind =>
      obtain rfl := List.mem_singleton.mp h
      exact alternatives.accepts_tag_frame (split kind)

theorem Fields.number_mem_of_mem_frames {α : Type} {frame : Frame} : (fields : Fields α) →
    (values : α) → frame ∈ fields.frames values → frame.tag.number ∈ fields.numbers
  | .nil, _, h => nomatch h
  | .cons field others, (value, values), h => by
    rw [Fields.frames, List.mem_append] at h
    rw [Fields.numbers, List.mem_append]
    exact h.imp (fun h => field.mem_numbers_of_accepts (field.accepts_tag_of_mem_frames h))
      (others.number_mem_of_mem_frames values)

end EngineConsole
