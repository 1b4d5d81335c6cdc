import EngineConsole.Proofs.Message.Frames

/-!
# Merging an encoded message

What becomes of a message when the encoding of another one, a patch, is merged into it: the patch is laid over it. What the patch does not write stays, what it writes replaces or extends what was there. The merge takes exactly the bytes of the patch and never fails, provided that the result is within capacity.
-/

namespace EngineConsole

/-! ### Laying a patch over a message -/

/-- What was set in the patch replaces the value; the floats of the patch follow those of the value. -/
def Leaf.overlay {α : Type} : Leaf α → α → α → α
  | .scalar kind, base, patch => if kind.isZero patch then base else patch
  | .optional _, base, patch => patch.or base
  | .text _, base, patch => if patch.isEmpty then base else patch
  | .optionalText _, base, patch => patch.or base
  | .floats _, base, patch => base ++ patch

mutual

/-- Lays a message over another one, field by field. -/
def Format.overlay {μ : Type} : Format μ → μ → μ → μ
  | .record _ fields split join _ _, base, patch => join (fields.overlay (split base) (split patch))

def Fields.overlay {α : Type} : Fields α → α → α → α
  | .nil, _, _ => ()
  | .cons field others, (base, bases), (patch, patches) =>
    (field.overlay base patch, others.overlay bases patches)

/-- Lays the value of a field over another one: messages are laid over each other, and lists follow each other. -/
def Field.overlay {α : Type} : Field α → α → α → α
  | .leaf _ _ kind, base, patch => kind.overlay base patch
  | .message _ _ format, base, patch =>
    patch.elim base fun patch => some (format.overlay (base.getD format.default) patch)
  | .messages _ _ _ format, base, patch => base ++ patch.map (format.overlay format.default)
  | .choice _ alternatives split join _ _, base, patch =>
    patch.elim base fun patch => some (join (alternatives.overlay (base.map split) (split patch)))

/-- Lays an alternative over the one that was chosen. Only a message is laid over a message, and only where both are the same alternative. -/
def Alternatives.overlay {α : Type} : Alternatives α → Option α → α → α
  | .signal _ _ _, _, .inl () => .inl ()
  | .signal _ _ others, chosen, .inr patch =>
    .inr (others.overlay (chosen.bind Sum.getRight?) patch)
  | .scalar _ _ _ _, _, .inl patch => .inl patch
  | .scalar _ _ _ others, chosen, .inr patch =>
    .inr (others.overlay (chosen.bind Sum.getRight?) patch)
  | .message _ _ format _, chosen, .inl patch =>
    .inl (format.overlay ((chosen.bind Sum.getLeft?).getD format.default) patch)
  | .message _ _ _ others, chosen, .inr patch =>
    .inr (others.overlay (chosen.bind Sum.getRight?) patch)

end

/-! ### The merge takes the patch -/

theorem Leaf.chain_frames {α : Type} {kind : Leaf α} {number : Nat} {base patch : α}
    (hnumber : number < 0x20000000) (hformed : kind.wellFormed = true)
    (hwithin : kind.within patch = true) (hroom : kind.within (kind.overlay base patch) = true) :
    Delimited.Chain (fun tag => kind.merge number tag.wireType) base (kind.frames number patch)
      (kind.overlay base patch) := by
  have htext : ∀ {capacity : Nat} {text : String}, capacity < 0x100000000 →
      text.utf8ByteSize ≤ capacity → Fetched.Yields (Text.fetch number capacity)
        (Frame.blob number (Text.bytes text).length (Text.bytes text)).payload text :=
    fun hcapacity hsize => by
      rw [Frame.payload_blob rfl]
      exact Text.yields_fetch number hsize (Nat.lt_of_le_of_lt hsize hcapacity)
  cases kind with
  | scalar kind =>
    rw [frames, overlay]
    split
    · exact .nil base
    · have hnumbered := Scalar.numbered_of_wellFormed hformed
      exact .single ⟨hnumber, kind.wireType_ne_unsupported⟩
        (Merged.takes_assign (kind.yields_fetch hnumbered number patch) base id)
  | optional kind =>
    cases patch with
    | none => exact .nil base
    | some value =>
      have hnumbered := Scalar.numbered_of_wellFormed hformed
      exact .single ⟨hnumber, kind.wireType_ne_unsupported⟩
        (Merged.takes_assign (kind.yields_fetch hnumbered number value) base some)
  | text capacity =>
    simp only [wellFormed, within, Bool.and_eq_true, decide_eq_true_eq] at hformed hwithin
    rw [frames, overlay]
    split
    · exact .nil base
    · exact .single ⟨hnumber, fun _ => WireType.noConfusion⟩
        (Merged.takes_assign (htext hformed.2 hwithin) base id)
  | optionalText capacity =>
    cases patch with
    | none => exact .nil base
    | some text =>
      simp only [wellFormed, within, Option.all_some, Bool.and_eq_true, decide_eq_true_eq]
        at hformed hwithin
      exact .single ⟨hnumber, fun _ => WireType.noConfusion⟩
        (Merged.takes_assign (htext hformed.2 hwithin) base some)
  | floats capacity =>
    simp only [wellFormed, within, overlay, List.length_append, Bool.and_eq_true,
      decide_eq_true_eq] at hformed hroom
    rw [frames, overlay]
    split
    · rename_i hempty
      rw [List.isEmpty_iff.mp hempty, List.append_nil]
      exact .nil base
    · refine .single ⟨hnumber, fun _ => WireType.noConfusion⟩ ?_
      rw [Frame.payload_blob (Floats.length_flatMap_encode patch).symm]
      exact Floats.takes_mergePacked number hformed.2 hroom

theorem Fields.merge_cons_of_accepts {α β : Type} {field : Field α} {tag : Tag} (others : Fields β)
    (h : field.accepts tag = true) (value : α) (values : β) (reader : Reader) :
    (Fields.cons field others).merge tag (value, values) reader =
      (field.merge tag value reader).map fun value => (value, values) := by
  rw [Fields.merge, if_pos h]

/-- What has a number of the other fields is merged into them, since their numbers are their own. -/
theorem Fields.merge_cons_of_number_mem {α β : Type} {field : Field α} {others : Fields β}
    {tag : Tag} (hnumbers : ∀ m ∈ field.numbers, ∀ n ∈ others.numbers, m ≠ n)
    (h : tag.number ∈ others.numbers)
    (value : α) (values : β) (reader : Reader) :
    (Fields.cons field others).merge tag (value, values) reader =
      (others.merge tag values reader).map fun values => (value, values) := by
  have hother : ¬ field.accepts tag = true := fun haccepts =>
    hnumbers _ (field.mem_numbers_of_accepts haccepts) _ h rfl
  rw [Fields.merge, if_neg hother]

mutual

/-- Merging the frames of a patch lays the patch over the message. -/
theorem Format.completes_frames {μ : Type} : (format : Format μ) → format.wellFormed = true →
    (base patch : μ) → format.within patch = true →
    format.within (format.overlay base patch) = true →
    Merged.Completes (format.merge base) (Frame.bytesAll (format.frames patch))
      (format.overlay base patch)
  | .record _ fields split join _ split_join, hformed, base, patch, hwithin, hroom => by
    rw [Format.wellFormed, Bool.and_eq_true, decide_eq_true_eq] at hformed
    rw [Format.within, Format.overlay, split_join] at hroom
    have hchain := fields.chain_frames hformed.1 hformed.2 (split base) (split patch) hwithin hroom
    exact hchain.completes_unread.map join

theorem Fields.chain_frames {α : Type} : (fields : Fields α) → fields.numbers.Nodup →
    fields.wellFormed = true → (base patch : α) → fields.within patch = true →
    fields.within (fields.overlay base patch) = true →
    Delimited.Chain fields.merge base (fields.frames patch) (fields.overlay base patch)
  | .nil, _, _, _, _, _, _ => .nil ()
  | .cons field others, hnodup, hformed, (base, bases), (patch, patches), hwithin, hroom => by
    rw [Fields.numbers, List.nodup_append] at hnodup
    rw [Fields.wellFormed, Bool.and_eq_true] at hformed
    rw [Fields.within, Bool.and_eq_true] at hwithin
    rw [Fields.overlay, Fields.within, Bool.and_eq_true] at hroom
    have hfield := field.chain_frames hformed.1 base patch hwithin.1 hroom.1
    have hothers := others.chain_frames hnodup.2.1 hformed.2 bases patches hwithin.2 hroom.2
    -- the frames of the field leave the other values alone, and those of the others this one
    exact (hfield.map (fun value => (value, bases)) fun frame hframe value reader =>
        Fields.merge_cons_of_accepts others (field.accepts_tag_of_mem_frames hframe) value bases
          reader).append
      (hothers.map (fun values => (field.overlay base patch, values))
        fun frame hframe values reader => Fields.merge_cons_of_number_mem hnodup.2.2
          (others.number_mem_of_mem_frames patches hframe) (field.overlay base patch) values reader)

theorem Field.chain_frames {α : Type} : (field : Field α) → field.wellFormed = true →
    (base patch : α) → field.within patch = true →
    field.within (field.overlay base patch) = true →
    Delimited.Chain field.merge base (field.frames patch) (field.overlay base patch)
  | .leaf number _ kind, hformed, base, patch, hwithin, hroom => by
    rw [Field.wellFormed, Bool.and_eq_true, decide_eq_true_eq] at hformed
    exact kind.chain_frames hformed.1 hformed.2 hwithin hroom
  | .message _ _ _, _, base, none, _, _ => .nil base
  | .message number _ format, hformed, base, some patch, hwithin, hroom => by
    simp only [Field.wellFormed, Bool.and_eq_true, decide_eq_true_eq] at hformed
    have hmerge := format.completes_frames hformed.2 (base.getD format.default) patch hwithin hroom
    have hlength := format.length_bytesAll_frames hformed.2 patch
    have hsize := format.size_le_maxSize hformed.2 hwithin
    refine .single ⟨hformed.1.1, fun _ => WireType.noConfusion⟩ ?_
    rw [Frame.payload_message hlength.symm]
    exact (Delimited.takes_merge (by omega) hmerge).map some
  | .messages number name capacity format, hformed, base, patch, hwithin, hroom => by
    simp only [Field.wellFormed, Bool.and_eq_true, decide_eq_true_eq] at hformed
    simp only [Field.within, Bool.and_eq_true, decide_eq_true_eq, List.all_eq_true] at hwithin
    simp only [Field.within, Field.overlay, Bool.and_eq_true, decide_eq_true_eq,
      List.length_append, List.length_map, List.all_append, List.all_map, List.all_eq_true,
      Function.comp_apply] at hroom
    have helement : ∀ message ∈ patch, Merged.Completes (format.merge format.default)
        (Frame.bytesAll (format.frames message)) (format.overlay format.default message) :=
      fun message hmessage => format.completes_frames hformed.2 format.default message
        (hwithin.2 message hmessage) (hroom.2.2 message hmessage)
    have hsize : ∀ message ∈ patch, format.size message ≤ format.maxSize := fun message hmessage =>
      format.size_le_maxSize hformed.2 (hwithin.2 message hmessage)
    have hcapacity := hroom.1
    -- the list grows with every element, so the induction is over the patch with the base general;
    -- of the capacities it keeps only the room that is left
    clear hwithin hroom
    rw [Field.frames, Field.overlay]
    induction patch generalizing base with
    | nil =>
      rw [List.map_nil, List.map_nil, List.append_nil]
      exact .nil base
    | cons message patch ih =>
      rw [List.length_cons] at hcapacity
      have hlength := format.length_bytesAll_frames hformed.2 message
      have hfits := hlength.trans_le (hsize message List.mem_cons_self)
      have hothers := ih (base ++ [format.overlay format.default message])
        (fun other hother => helement other (List.mem_cons_of_mem message hother))
        (fun other hother => hsize other (List.mem_cons_of_mem message hother))
        (by rw [List.length_append, List.length_singleton]; omega)
      rw [List.append_assoc, List.singleton_append] at hothers
      refine .cons ⟨hformed.1.1, fun _ => WireType.noConfusion⟩ ?_ hothers
      rw [Frame.payload_message hlength.symm]
      exact Delimited.takes_append number hformed.1.2 hfits (by omega)
        (helement message List.mem_cons_self)
  | .choice _ _ _ _ _ _, _, base, none, _, _ => .nil base
  | .choice _ alternatives split join _ split_join, hformed, base, some patch, hwithin, hroom => by
    rw [Field.wellFormed, Bool.and_eq_true, decide_eq_true_eq] at hformed
    simp only [Field.within, Field.overlay, Option.all_some, Option.elim_some, split_join] at hroom
    have htakes := alternatives.takes_frame hformed.1 hformed.2 (base.map split) (split patch)
      hwithin hroom
    exact .single (alternatives.legible_tag_frame hformed.2 (split patch))
      (htakes.map fun chosen => (chosen.map join).or base)

theorem Alternatives.takes_frame {α : Type} : (alternatives : Alternatives α) →
    alternatives.numbers.Nodup → alternatives.wellFormed = true → (chosen : Option α) →
    (patch : α) → alternatives.within patch = true →
    alternatives.within (alternatives.overlay chosen patch) = true →
    Merged.Takes (alternatives.merge (alternatives.frame patch).tag chosen)
      (alternatives.frame patch).payload (some (alternatives.overlay chosen patch))
  | .signal number _ others, _, _, chosen, .inl (), _, _ => by
    have hnothing : Merged.Completes (mergeNothing ()) (Frame.bytesAll []) () :=
      (Delimited.Chain.nil ()).completes_unread
    intro reader hoffers
    have hempty : (Frame.bytesAll []).length < 0x100000000 := by decide
    obtain ⟨after, hmerge, hadvanced⟩ := Delimited.takes_merge hempty hnothing reader hoffers
    refine ⟨after, ?_, hadvanced⟩
    rw [Alternatives.merge, Alternatives.frame, Frame.tag, if_pos (beq_self_eq_true _), hmerge]
    rfl
  | .signal number _ others, hnodup, hformed, chosen, .inr patch, hwithin, hroom => by
    rw [Alternatives.numbers, List.nodup_cons] at hnodup
    rw [Alternatives.wellFormed, Bool.and_eq_true] at hformed
    have htakes := others.takes_frame hnodup.2 hformed.2 (chosen.bind Sum.getRight?) patch
      hwithin hroom
    intro reader hoffers
    rw [Alternatives.merge, Alternatives.frame, others.tag_frame_beq_eq_false hnodup.1 patch]
    exact htakes.map (Option.map Sum.inr) reader hoffers
  | .scalar number _ kind others, hnodup, hformed, chosen, .inl patch, _, _ => by
    simp only [Alternatives.wellFormed, Bool.and_eq_true] at hformed
    have hnumbered := Scalar.numbered_of_wellFormed hformed.1.2
    intro reader hoffers
    rw [Alternatives.merge, Alternatives.frame, Frame.tag, if_pos (beq_self_eq_true _)]
    exact Merged.takes_assign (kind.yields_fetch hnumbered number patch) none
      (fun value => some (Sum.inl value)) reader hoffers
  | .scalar number _ kind others, hnodup, hformed, chosen, .inr patch, hwithin, hroom => by
    rw [Alternatives.numbers, List.nodup_cons] at hnodup
    rw [Alternatives.wellFormed, Bool.and_eq_true] at hformed
    have htakes := others.takes_frame hnodup.2 hformed.2 (chosen.bind Sum.getRight?) patch
      hwithin hroom
    intro reader hoffers
    rw [Alternatives.merge, Alternatives.frame, others.tag_frame_beq_eq_false hnodup.1 patch]
    exact htakes.map (Option.map Sum.inr) reader hoffers
  | .message number _ format others, _, hformed, chosen, .inl patch, hwithin, hroom => by
    simp only [Alternatives.wellFormed, Bool.and_eq_true, decide_eq_true_eq] at hformed
    have hmerge := format.completes_frames hformed.1.2
      ((chosen.bind Sum.getLeft?).getD format.default) patch hwithin hroom
    have hlength := format.length_bytesAll_frames hformed.1.2 patch
    have hsize := format.size_le_maxSize hformed.1.2 hwithin
    intro reader hoffers
    rw [Alternatives.frame, Frame.payload_message hlength.symm] at hoffers ⊢
    rw [Alternatives.merge, Frame.tag, if_pos (beq_self_eq_true _)]
    exact (Delimited.takes_merge (by omega) hmerge).map (fun message => some (Sum.inl message))
      reader hoffers
  | .message number _ format others, hnodup, hformed, chosen, .inr patch, hwithin, hroom => by
    rw [Alternatives.numbers, List.nodup_cons] at hnodup
    rw [Alternatives.wellFormed, Bool.and_eq_true] at hformed
    have htakes := others.takes_frame hnodup.2 hformed.2 (chosen.bind Sum.getRight?) patch
      hwithin hroom
    intro reader hoffers
    rw [Alternatives.merge, Alternatives.frame, others.tag_frame_beq_eq_false hnodup.1 patch]
    exact htakes.map (Option.map Sum.inr) reader hoffers

end

end EngineConsole
