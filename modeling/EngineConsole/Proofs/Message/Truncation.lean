import EngineConsole.Proofs.Message.Concatenation
import EngineConsole.Proofs.Message.RoundTrip
import EngineConsole.Proofs.Record.Truncation

/-!
# Messages that break off

Of an encoding that breaks off, the records that end before the cut are merged. Whether that is a success depends on the cut alone: it is one if no record is broken, or if of the broken one not even the tag is left. What comes out then is the message without the values that were cut off.
-/

namespace EngineConsole

/-! ### A message without the values that are cut off -/

/-- The value of a field that is written within `count` bytes as a whole, else the default. -/
def Field.kept {α : Type} (count : Nat) (field : Field α) (value : α) : α :=
  if field.size value ≤ count then value else field.default

/-- What is left of the value of a field if its records are cut off behind `count` bytes. A list of messages keeps the elements that end at or before the cut; every other value is written in one record. -/
def Field.cut {α : Type} (count : Nat) : Field α → α → α
  | .messages number _ _ format, values =>
    fitting (fun message => Size.delimited number (format.size message)) count values
  | .leaf number name kind, value => (Field.leaf number name kind).kept count value
  | .message number name format, value => (Field.message number name format).kept count value
  | .choice name alternatives split join join_split split_join, value =>
    (Field.choice name alternatives split join join_split split_join).kept count value

def Fields.cut {α : Type} : Nat → Fields α → α → α
  | _, .nil, _ => ()
  | count, .cons field others, (value, values) =>
    (field.cut count value, others.cut (count - field.size value) values)

/-- What is left of a message if its encoding is cut off behind `count` bytes. -/
def Format.cut {μ : Type} (count : Nat) : Format μ → μ → μ
  | .record _ fields split join _ _, message => join (fields.cut count (split message))

theorem Field.within_kept {α : Type} {field : Field α} {value : α} (count : Nat)
    (h : field.within value = true) : field.within (field.kept count value) = true := by
  rw [kept]
  split
  · exact h
  · exact field.within_default

theorem Field.within_cut {α : Type} {field : Field α} {value : α} (count : Nat)
    (h : field.within value = true) : field.within (field.cut count value) = true := by
  cases field with
  | messages number name capacity format =>
    simp only [within, Bool.and_eq_true, decide_eq_true_eq, List.all_eq_true] at h ⊢
    have hsublist := fitting_sublist
      (fun message => Size.delimited number (format.size message)) count value
    exact ⟨hsublist.length_le.trans h.1, fun message hmessage =>
      h.2 message (hsublist.subset hmessage)⟩
  | leaf | message | choice => exact within_kept count h

theorem Fields.within_cut {α : Type} : (count : Nat) → (fields : Fields α) → {values : α} →
    fields.within values = true → fields.within (fields.cut count values) = true
  | _, .nil, _, _ => rfl
  | count, .cons field others, (value, values), h => by
    rw [Fields.within, Bool.and_eq_true] at h
    rw [Fields.cut, Fields.within, field.within_cut count h.1, others.within_cut _ h.2,
      Bool.and_self]

theorem Format.within_cut {μ : Type} (count : Nat) {format : Format μ} {message : μ}
    (h : format.within message = true) : format.within (format.cut count message) = true := by
  cases format with
  | record name fields split join join_split split_join =>
    rw [cut, within, split_join]
    exact fields.within_cut count h

/-! ### Its frames are those before the cut -/

theorem Scalar.isZero_default {α : Type} (scalar : Scalar α) :
    scalar.isZero scalar.default = true := by
  cases scalar with
  | enum enumeration =>
    have hfirst := enumeration.number_getElem (Nat.succ_pos enumeration.others.length)
    exact beq_iff_eq.mpr hfirst
  | _ => rfl

theorem Field.frames_default {α : Type} (field : Field α) : field.frames field.default = [] := by
  cases field with
  | leaf number name kind =>
    cases kind with
    | scalar kind =>
      show (if kind.isZero kind.default = true then [] else _) = []
      rw [if_pos kind.isZero_default]
    | _ => rfl
  | _ => rfl

theorem Leaf.length_frames_le_one {α : Type} (number : Nat) (kind : Leaf α) (value : α) :
    (kind.frames number value).length ≤ 1 := by
  cases kind with
  | scalar kind =>
    rw [frames]
    split <;> simp
  | optional kind => cases value <;> simp [frames]
  | text capacity =>
    rw [frames]
    split <;> simp
  | optionalText capacity => cases value <;> simp [frames]
  | floats capacity =>
    rw [frames]
    split <;> simp

/-- A value that is written in one frame is kept or replaced together with this frame. -/
theorem Field.frames_kept {α : Type} {field : Field α} (hformed : field.wellFormed = true)
    (count : Nat) {value : α} (hone : (field.frames value).length ≤ 1) :
    field.frames (field.kept count value) = Frame.whole count (field.frames value) := by
  rw [kept, ← field.length_bytesAll_frames hformed value]
  split
  · rename_i hfits
    rw [Frame.whole_of_le hfits]
  · rename_i hbroken
    rw [field.frames_default, Frame.whole_of_lt hone (Nat.not_le.mp hbroken)]

theorem Field.frames_cut {α : Type} {field : Field α} (hformed : field.wellFormed = true)
    (count : Nat) (value : α) :
    field.frames (field.cut count value) = Frame.whole count (field.frames value) := by
  cases field with
  | leaf number name kind =>
    exact frames_kept hformed count (kind.length_frames_le_one number value)
  | message number name format =>
    have hone : ((Field.message number name format).frames value).length ≤ 1 := by
      cases value <;> simp [frames]
    exact frames_kept hformed count hone
  | messages number name capacity format =>
    rw [wellFormed, Bool.and_eq_true] at hformed
    have hsize : (fun message => (Frame.message number (format.size message)
        (format.frames message)).bytes.length) =
          fun message => Size.delimited number (format.size message) := by
      funext message
      exact Frame.length_bytes_message (format.length_bytesAll_frames hformed.2 message)
    rw [cut, frames, frames, Frame.whole, fitting_map, hsize]
  | choice name alternatives split join join_split split_join =>
    have hone : ((Field.choice name alternatives split join join_split split_join).frames
        value).length ≤ 1 := by
      cases value <;> simp [frames]
    exact frames_kept hformed count hone

theorem Fields.frames_cut {α : Type} : (count : Nat) → (fields : Fields α) →
    fields.wellFormed = true → (values : α) →
    fields.frames (fields.cut count values) = Frame.whole count (fields.frames values)
  | _, .nil, _, _ => rfl
  | count, .cons field others, hformed, (value, values) => by
    rw [Fields.wellFormed, Bool.and_eq_true] at hformed
    rw [Fields.cut, Fields.frames, Fields.frames, field.frames_cut hformed.1,
      others.frames_cut _ hformed.2, Frame.whole_append, field.length_bytesAll_frames hformed.1]

namespace Format

variable {μ : Type} {format : Format μ} {message : μ}

/-- What is left of a message is written by the frames that end at or before the cut. -/
theorem frames_cut (hformed : format.wellFormed = true) (count : Nat) (message : μ) :
    format.frames (format.cut count message) = Frame.whole count (format.frames message) := by
  cases format with
  | record name fields split join join_split split_join =>
    rw [wellFormed, Bool.and_eq_true] at hformed
    rw [cut, frames, split_join, fields.frames_cut count hformed.2, frames]

/-! ### Decoding up to the cut -/

/-- The frames before a given one are merged from nothing and end between two records, and from there the payload of that one is taken as a whole. -/
theorem takes_frame (hformed : format.wellFormed = true) (hwithin : format.within message = true)
    {done rest : List Frame} {frame : Frame} (h : format.frames message = done ++ frame :: rest) :
    format.EndsBetweenRecords format.default (Frame.bytesAll done) ∧ frame.tag.Legible ∧
      ∃ next, Merged.Takes
        (format.mergeRecord frame.tag (format.decode (.ofBytes (Frame.bytesAll done))).value)
        frame.payload next := by
  have hroom := hwithin
  rw [← format.within_plain message, ← format.overlay_default] at hroom
  cases format with
  | record name fields split join join_split split_join =>
    rw [wellFormed, Bool.and_eq_true, decide_eq_true_eq] at hformed
    rw [overlay, within, split_join] at hroom
    have hchain := fields.chain_frames hformed.1 hformed.2 _ (split message) hwithin hroom
    rw [frames] at h
    rw [h] at hchain
    obtain ⟨middle, hdone, hframe⟩ := hchain.of_append
    obtain ⟨after, hpasses, hafter⟩ := hdone.passes (Reader.offers_ofBytes (Frame.bytesAll done))
    have hpasses' : (record name fields split join join_split split_join).Passes
        (record name fields split join join_split split_join).default
        (.ofBytes (Frame.bytesAll done)) (join middle) after := by
      rw [Passes, split_join]
      exact hpasses
    have hunread : after.unread + (Frame.bytesAll done).length = (Frame.bytesAll done).length :=
      hafter.unread
    obtain ⟨hends, hvalue⟩ := hpasses'.endsBetweenRecords (by omega)
    cases hframe with
    | cons legible takes _ =>
      refine ⟨hends, legible, ?_⟩
      have hrecord : (record name fields split join join_split split_join).mergeRecord frame.tag
          (join middle) = fun reader => (fields.merge frame.tag middle reader).map join := by
        funext reader
        rw [mergeRecord, split_join]
      rw [decode, hvalue, hrecord]
      exact ⟨_, takes.map join⟩

theorem decode_whole (hformed : format.wellFormed = true) (hwithin : format.within message = true)
    (count : Nat) :
    ∃ after, format.decode (.ofBytes (Frame.bytesAll (Frame.whole count (format.frames message)))) =
      { value := format.plain (format.cut count message), reader := after } := by
  rw [← frames_cut hformed, format.bytesAll_frames]
  obtain ⟨after, hdecode, -⟩ := completes_decode hformed (within_cut count hwithin) _
    (Reader.offers_ofBytes _) (Reader.ends_ofBytes _)
  exact ⟨after, hdecode⟩

theorem error_merge_of_broken {frame : Frame} {next : μ} {count : Nat}
    (hlegible : frame.tag.Legible)
    (htakes : Merged.Takes (format.mergeRecord frame.tag message) frame.payload next)
    (htag : (Tag.encode frame.tag).length ≤ count) (hshort : count < frame.bytes.length) :
    (format.merge message (.ofBytes (frame.bytes.take count))).error ≠ none := by
  have hlength : (frame.bytes.take count).length = count := List.length_take_of_le (by omega)
  have hpart : frame.bytes.take count =
      Tag.encode frame.tag ++ frame.payload.take (count - (Tag.encode frame.tag).length) := by
    rw [frame.bytes_eq, List.take_append, List.take_of_length_le htag]
  have hoffers := Reader.offers_ofBytes (frame.bytes.take count)
  have hunread : Reader.unread (.ofBytes (frame.bytes.take count)) = count := hlength
  rw [hpart] at hoffers hunread ⊢
  obtain ⟨behindTag, hread, hbehindTag⟩ := Tag.read_of_offers hlegible hoffers.of_append_left
  refine error_merge_of_record hread ?_
  refine htakes.error_of_broken (format.repeatable_mergeRecord frame.tag message) ?_ ?_ ?_
  · rw [hbehindTag.supply]
    trivial
  · rw [hbehindTag.rest]
    show (Tag.encode frame.tag ++ _).drop _ <+: frame.payload
    rw [List.drop_left]
    exact List.take_prefix _ _
  · have hbehind := hbehindTag.unread
    rw [frame.bytes_eq, List.length_append] at hshort
    omega

/-! ### The three kinds of cut -/

theorem decode_of_boundary (hformed : format.wellFormed = true)
    (hwithin : format.within message = true) {count : Nat}
    (h : Frame.Boundary (format.frames message) count) :
    (format.decode (.ofBytes ((format.bytes message).take count))).error = none ∧
      (format.decode (.ofBytes ((format.bytes message).take count))).value =
        format.plain (format.cut count message) := by
  obtain ⟨after, hdecode⟩ := decode_whole hformed hwithin count
  rw [bytes, ← format.bytesAll_frames, h.take_eq, hdecode]
  exact ⟨rfl, rfl⟩

/-- A cut inside a tag ends the message like one in front of it, since no tag can be read there. -/
theorem decode_of_insideTag (hformed : format.wellFormed = true)
    (hwithin : format.within message = true) {count : Nat}
    (h : Frame.InsideTag (format.frames message) count) :
    (format.decode (.ofBytes ((format.bytes message).take count))).error = none ∧
      (format.decode (.ofBytes ((format.bytes message).take count))).value =
        format.plain (format.cut count message) := by
  obtain ⟨after, hdecode⟩ := decode_whole hformed hwithin count
  obtain ⟨done, frame, rest, hframes, hbefore, hafter⟩ := h
  have hframe : frame.bytes.length = (Tag.encode frame.tag).length + frame.payload.length := by
    rw [frame.bytes_eq, List.length_append]
  obtain ⟨hends, hlegible, -⟩ := takes_frame hformed hwithin hframes
  rw [hframes, Frame.whole_of_cut (by omega) (by omega)] at hdecode
  rw [bytes, ← format.bytesAll_frames, hframes, Frame.take_bytesAll (by omega) (by omega)]
  obtain ⟨hvalue, herror, -⟩ :=
    merge_append hends (frame.bytes.take (count - (Frame.bytesAll done).length))
  have hnone : (Tag.read (.ofBytes (frame.bytes.take (count - (Frame.bytesAll done).length)))).1 =
      none := by
    have hpart : frame.bytes.take (count - (Frame.bytesAll done).length) =
        (Tag.encode frame.tag).take (count - (Frame.bytesAll done).length) := by
      rw [frame.bytes_eq, List.take_append_of_le_length (by omega)]
    rw [hpart]
    apply Tag.read_of_broken hlegible (List.take_prefix _ _)
    show ((Tag.encode frame.tag).take _).length < _
    rw [List.length_take]
    omega
  rw [merge_of_ends (Prod.ext hnone rfl)] at hvalue herror
  refine ⟨herror, hvalue.trans ?_⟩
  show (format.decode (.ofBytes (Frame.bytesAll done))).value = _
  rw [hdecode]

theorem error_decode_of_insidePayload (hformed : format.wellFormed = true)
    (hwithin : format.within message = true) {count : Nat}
    (h : Frame.InsidePayload (format.frames message) count) :
    (format.decode (.ofBytes ((format.bytes message).take count))).error ≠ none := by
  obtain ⟨done, frame, rest, hframes, hbefore, hafter⟩ := h
  obtain ⟨hends, hlegible, next, htakes⟩ := takes_frame hformed hwithin hframes
  rw [bytes, ← format.bytesAll_frames, hframes, Frame.take_bytesAll (by omega) (by omega)]
  obtain ⟨-, herror, -⟩ :=
    merge_append hends (frame.bytes.take (count - (Frame.bytesAll done).length))
  rw [decode, herror]
  exact error_merge_of_broken hlegible htakes (by omega) (by omega)

end Format

end EngineConsole
