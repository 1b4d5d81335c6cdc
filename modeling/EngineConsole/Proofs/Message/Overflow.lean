import EngineConsole.Proofs.Message.Containment
import EngineConsole.Proofs.Message.RoundTrip
import EngineConsole.Proofs.Record.Overflow

/-!
# Patches that do not fit

A patch is laid over a message as long as every list it extends has room for what the patch adds. Where one has not, the merge of the encoded patch fails, and it fails for no other reason.
-/

namespace EngineConsole

/-! ### Room for a patch -/

/-- The list of floats has room for those of the patch. Nothing else is extended. -/
def Leaf.fits {α : Type} : Leaf α → α → α → Bool
  | .floats capacity, base, patch => base.length + patch.length ≤ capacity
  | _, _, _ => true

mutual

/-- Every list that a patch extends, at any depth where message and patch meet, has room for what the patch adds. -/
def Format.fits {μ : Type} : Format μ → μ → μ → Bool
  | .record _ fields split _ _ _, base, patch => fields.fits (split base) (split patch)

def Fields.fits {α : Type} : Fields α → α → α → Bool
  | .nil, _, _ => true
  | .cons field others, (base, bases), (patch, patches) =>
    field.fits base patch && others.fits bases patches

/-- The field has room for its part of the patch. The elements of a list are new messages, so nothing inside them is extended. -/
def Field.fits {α : Type} : Field α → α → α → Bool
  | .leaf _ _ kind, base, patch => kind.fits base patch
  | .message _ _ format, base, patch =>
    patch.elim true fun patch => format.fits (base.getD format.default) patch
  | .messages _ _ capacity _, base, patch => base.length + patch.length ≤ capacity
  | .choice _ alternatives split _ _ _, base, patch =>
    patch.elim true fun patch => alternatives.fits (base.map split) (split patch)

/-- The chosen alternative has room for the patch. Where another one was chosen, the patch meets a new message. -/
def Alternatives.fits {α : Type} : Alternatives α → Option α → α → Bool
  | .signal _ _ _, _, .inl () => true
  | .signal _ _ others, chosen, .inr patch => others.fits (chosen.bind Sum.getRight?) patch
  | .scalar _ _ _ _, _, .inl _ => true
  | .scalar _ _ _ others, chosen, .inr patch => others.fits (chosen.bind Sum.getRight?) patch
  | .message _ _ format _, chosen, .inl patch =>
    format.fits ((chosen.bind Sum.getLeft?).getD format.default) patch
  | .message _ _ _ others, chosen, .inr patch => others.fits (chosen.bind Sum.getRight?) patch

end

/-! ### Room and capacity -/

theorem Leaf.within_overlay {α : Type} {kind : Leaf α} {base patch : α}
    (hbase : kind.within base = true) (hpatch : kind.within patch = true) :
    kind.within (kind.overlay base patch) = kind.fits base patch := by
  cases kind with
  | scalar kind => rfl
  | optional kind => rfl
  | text capacity =>
    show (text capacity).within (if patch.isEmpty = true then base else patch) = true
    split
    · exact hbase
    · exact hpatch
  | optionalText capacity =>
    cases patch with
    | none => exact hbase
    | some text => exact hpatch
  | floats capacity => rw [within, overlay, List.length_append, fits]

mutual

/-- A patch laid over a message leaves it within capacity exactly if it fits. -/
theorem Format.within_overlay {μ : Type} : (format : Format μ) → (base patch : μ) →
    format.within base = true → format.within patch = true →
    format.within (format.overlay base patch) = format.fits base patch
  | .record _ fields split _ _ split_join, base, patch, hbase, hpatch => by
    rw [Format.within, Format.overlay, split_join, Format.fits]
    exact fields.within_overlay (split base) (split patch) hbase hpatch

theorem Fields.within_overlay {α : Type} : (fields : Fields α) → (base patch : α) →
    fields.within base = true → fields.within patch = true →
    fields.within (fields.overlay base patch) = fields.fits base patch
  | .nil, _, _, _, _ => rfl
  | .cons field others, (base, bases), (patch, patches), hbase, hpatch => by
    rw [Fields.within, Bool.and_eq_true] at hbase hpatch
    rw [Fields.overlay, Fields.within, field.within_overlay base patch hbase.1 hpatch.1,
      others.within_overlay bases patches hbase.2 hpatch.2, Fields.fits]

theorem Field.within_overlay {α : Type} : (field : Field α) → (base patch : α) →
    field.within base = true → field.within patch = true →
    field.within (field.overlay base patch) = field.fits base patch
  | .leaf _ _ kind, base, patch, hbase, hpatch => kind.within_overlay hbase hpatch
  | .message _ _ _, _, none, hbase, _ => hbase
  | .message _ _ format, base, some patch, hbase, hpatch =>
    format.within_overlay (base.getD format.default) patch (Format.within_getD_default hbase) hpatch
  | .messages _ _ capacity format, base, patch, hbase, hpatch => by
    rw [Field.within, Bool.and_eq_true] at hbase hpatch
    have helement : format.within ∘ format.overlay format.default = format.within :=
      funext fun message => by
        rw [Function.comp_apply, format.overlay_default, format.within_plain]
    rw [Field.overlay, Field.within, List.length_append, List.length_map, List.all_append,
      List.all_map, helement, hbase.2, hpatch.2, Bool.and_self, Bool.and_true, Field.fits]
  | .choice _ _ _ _ _ _, _, none, hbase, _ => hbase
  | .choice _ alternatives split join _ split_join, base, some patch, hbase, hpatch => by
    rw [Field.overlay, Option.elim_some, Field.within, Option.all_some, split_join, Field.fits,
      Option.elim_some]
    refine alternatives.within_overlay (base.map split) (split patch) ?_ hpatch
    rw [Option.all_map]
    exact hbase

theorem Alternatives.within_overlay {α : Type} : (alternatives : Alternatives α) →
    (chosen : Option α) → (patch : α) → chosen.all alternatives.within = true →
    alternatives.within patch = true →
    alternatives.within (alternatives.overlay chosen patch) = alternatives.fits chosen patch
  | .signal _ _ _, _, .inl (), _, _ => rfl
  | .signal _ _ others, _, .inr patch, hchosen, hpatch =>
    others.within_overlay _ patch (all_bind_getRight? hchosen fun _ => rfl) hpatch
  | .scalar _ _ _ _, _, .inl _, _, _ => rfl
  | .scalar _ _ _ others, _, .inr patch, hchosen, hpatch =>
    others.within_overlay _ patch (all_bind_getRight? hchosen fun _ => rfl) hpatch
  | .message _ _ format _, _, .inl patch, hchosen, hpatch =>
    format.within_overlay _ patch (Format.within_getD_getLeft? hchosen fun _ => rfl) hpatch
  | .message _ _ _ others, _, .inr patch, hchosen, hpatch =>
    others.within_overlay _ patch (all_bind_getRight? hchosen fun _ => rfl) hpatch

end

/-! ### The merge stops at the list that is full -/

theorem Leaf.blocked_frames {α : Type} {kind : Leaf α} {number : Nat} {base patch : α}
    (hnumber : number < 0x20000000) (hformed : kind.wellFormed = true)
    (hbase : kind.within base = true) (hpatch : kind.within patch = true)
    (hfits : kind.fits base patch = false) :
    Delimited.Blocked DecodeError.IsOverflow (fun tag => kind.merge number tag.wireType) base
      (kind.frames number patch) := by
  cases kind with
  | scalar kind => contradiction
  | optional kind => contradiction
  | text capacity => contradiction
  | optionalText capacity => contradiction
  | floats capacity =>
    simp only [wellFormed, within, fits, Bool.and_eq_true, decide_eq_true_eq,
      decide_eq_false_iff_not] at hformed hbase hpatch hfits
    have hnonempty : ¬ patch.isEmpty = true := by
      intro hempty
      rw [List.isEmpty_iff.mp hempty, List.length_nil] at hfits
      omega
    rw [frames, if_neg hnonempty]
    refine .here ⟨hnumber, fun _ => WireType.noConfusion⟩ ?_
    rw [Frame.payload_blob (Floats.length_flatMap_encode patch).symm]
    exact Floats.overflows_mergePacked number hformed.2 hbase hpatch (by omega)

mutual

/-- Merging the frames of a patch that does not fit stops at a full list. -/
theorem Format.overflows_frames {μ : Type} : (format : Format μ) → format.wellFormed = true →
    (base patch : μ) → format.within base = true → format.within patch = true →
    format.fits base patch = false →
    Merged.Fails DecodeError.IsOverflow (format.merge base) (Frame.bytesAll (format.frames patch))
  | .record _ fields split join _ _, hformed, base, patch, hbase, hpatch, hfits => by
    rw [Format.wellFormed, Bool.and_eq_true, decide_eq_true_eq] at hformed
    have hblocked := fields.blocked_frames hformed.1 hformed.2 (split base) (split patch)
      hbase hpatch hfits
    exact hblocked.fails_unread.map join

theorem Fields.blocked_frames {α : Type} : (fields : Fields α) → fields.numbers.Nodup →
    fields.wellFormed = true → (base patch : α) → fields.within base = true →
    fields.within patch = true → fields.fits base patch = false →
    Delimited.Blocked DecodeError.IsOverflow fields.merge base (fields.frames patch)
  | .nil, _, _, _, _, _, _, hfits => by contradiction
  | .cons field others, hnodup, hformed, (base, bases), (patch, patches), hbase, hpatch, hfits => by
    rw [Fields.numbers, List.nodup_append] at hnodup
    rw [Fields.wellFormed, Bool.and_eq_true] at hformed
    rw [Fields.within, Bool.and_eq_true] at hbase hpatch
    rw [Fields.fits] at hfits
    cases hfield : field.fits base patch with
    | false =>
      have hblocked := field.blocked_frames hformed.1 base patch hbase.1 hpatch.1 hfield
      exact (hblocked.map (fun value => (value, bases)) fun frame hframe value reader =>
        Fields.merge_cons_of_accepts others (field.accepts_tag_of_mem_frames hframe) value bases
          reader).append _
    | true =>
      rw [hfield, Bool.true_and] at hfits
      have hroom := (field.within_overlay base patch hbase.1 hpatch.1).trans hfield
      have hchain := field.chain_frames hformed.1 base patch hpatch.1 hroom
      have hblocked := others.blocked_frames hnodup.2.1 hformed.2 bases patches hbase.2 hpatch.2 hfits
      -- the frames of the field are taken, so the merge gets to those of the others
      exact (hchain.map (fun value => (value, bases)) fun frame hframe value reader =>
          Fields.merge_cons_of_accepts others (field.accepts_tag_of_mem_frames hframe) value bases
            reader).blocked
        (hblocked.map (fun values => (field.overlay base patch, values))
          fun frame hframe values reader => Fields.merge_cons_of_number_mem hnodup.2.2
            (others.number_mem_of_mem_frames patches hframe) (field.overlay base patch) values reader)

theorem Field.blocked_frames {α : Type} : (field : Field α) → field.wellFormed = true →
    (base patch : α) → field.within base = true → field.within patch = true →
    field.fits base patch = false →
    Delimited.Blocked DecodeError.IsOverflow field.merge base (field.frames patch)
  | .leaf number _ kind, hformed, base, patch, hbase, hpatch, hfits => by
    rw [Field.wellFormed, Bool.and_eq_true, decide_eq_true_eq] at hformed
    exact kind.blocked_frames hformed.1 hformed.2 hbase hpatch hfits
  | .message _ _ _, _, _, none, _, _, hfits => by contradiction
  | .message number _ format, hformed, base, some patch, hbase, hpatch, hfits => by
    simp only [Field.wellFormed, Bool.and_eq_true, decide_eq_true_eq] at hformed
    have hmerge := format.overflows_frames hformed.2 (base.getD format.default) patch
      (Format.within_getD_default hbase) hpatch hfits
    have hlength := format.length_bytesAll_frames hformed.2 patch
    have hsize := format.size_le_maxSize hformed.2 hpatch
    refine .here ⟨hformed.1.1, fun _ => WireType.noConfusion⟩ ?_
    rw [Frame.payload_message hlength.symm]
    exact (Delimited.fails_merge (by omega) hmerge).map some
  | .messages number _ capacity format, hformed, base, patch, hbase, hpatch, hfits => by
    simp only [Field.wellFormed, Bool.and_eq_true, decide_eq_true_eq] at hformed
    simp only [Field.within, Bool.and_eq_true, decide_eq_true_eq, List.all_eq_true] at hbase hpatch
    simp only [Field.fits, decide_eq_false_iff_not] at hfits
    have hlength := hbase.1
    have hwithin := hpatch.2
    clear hbase hpatch
    rw [Field.frames]
    -- the list grows with every element that is taken, so the induction is over the patch with the
    -- base general; what it keeps is that the base is not too long and the patch is
    induction patch generalizing base with
    | nil =>
      rw [List.length_nil] at hfits
      omega
    | cons message patch ih =>
      rw [List.length_cons] at hfits
      have hsize := format.size_le_maxSize hformed.2 (hwithin message List.mem_cons_self)
      have hfits' := (format.length_bytesAll_frames hformed.2 message).trans_le hsize
      have hlegible : (Frame.message number (format.size message) (format.frames message)).tag.Legible :=
        ⟨hformed.1.1, fun _ => WireType.noConfusion⟩
      have hlength := (format.length_bytesAll_frames hformed.2 message).symm
      by_cases hfull : capacity ≤ base.length
      · refine .here hlegible ?_
        rw [Frame.payload_message hlength]
        exact Delimited.overflows_append number format.default hformed.1.2 hfits' hfull
      · have hmessage := format.completes_decode hformed.2 (hwithin message List.mem_cons_self)
        rw [Format.bytes, ← format.bytesAll_frames] at hmessage
        have hothers := ih (base ++ [format.plain message])
          (by rw [List.length_append, List.length_singleton]; omega)
          (by rw [List.length_append, List.length_singleton]; omega)
          (fun other hother => hwithin other (List.mem_cons_of_mem message hother))
        refine .later hlegible ?_ hothers
        rw [Frame.payload_message hlength]
        exact Delimited.takes_append number hformed.1.2 hfits' (by omega) hmessage
  | .choice _ _ _ _ _ _, _, _, none, _, _, hfits => by contradiction
  | .choice _ alternatives split join _ _, hformed, base, some patch, hbase, hpatch, hfits => by
    rw [Field.wellFormed, Bool.and_eq_true, decide_eq_true_eq] at hformed
    have hchosen : (base.map split).all alternatives.within = true := by
      rw [Option.all_map]
      exact hbase
    have hoverflows := alternatives.overflows_frame hformed.1 hformed.2 (base.map split)
      (split patch) hchosen hpatch hfits
    exact .here (alternatives.legible_tag_frame hformed.2 (split patch))
      (hoverflows.map fun chosen => (chosen.map join).or base)

theorem Alternatives.overflows_frame {α : Type} : (alternatives : Alternatives α) →
    alternatives.numbers.Nodup → alternatives.wellFormed = true → (chosen : Option α) →
    (patch : α) → chosen.all alternatives.within = true → alternatives.within patch = true →
    alternatives.fits chosen patch = false →
    Merged.Fails DecodeError.IsOverflow (alternatives.merge (alternatives.frame patch).tag chosen)
      (alternatives.frame patch).payload
  | .signal _ _ _, _, _, _, .inl (), _, _, hfits => by contradiction
  | .signal number _ others, hnodup, hformed, chosen, .inr patch, hchosen, hpatch, hfits => by
    rw [Alternatives.numbers, List.nodup_cons] at hnodup
    rw [Alternatives.wellFormed, Bool.and_eq_true] at hformed
    have hoverflows := others.overflows_frame hnodup.2 hformed.2 (chosen.bind Sum.getRight?) patch
      (all_bind_getRight? hchosen fun _ => rfl) hpatch hfits
    intro reader hoffers
    rw [Alternatives.merge, Alternatives.frame, others.tag_frame_beq_eq_false hnodup.1 patch]
    exact hoverflows.map (Option.map Sum.inr) reader hoffers
  | .scalar _ _ _ _, _, _, _, .inl _, _, _, hfits => by contradiction
  | .scalar number _ kind others, hnodup, hformed, chosen, .inr patch, hchosen, hpatch, hfits => by
    rw [Alternatives.numbers, List.nodup_cons] at hnodup
    rw [Alternatives.wellFormed, Bool.and_eq_true] at hformed
    have hoverflows := others.overflows_frame hnodup.2 hformed.2 (chosen.bind Sum.getRight?) patch
      (all_bind_getRight? hchosen fun _ => rfl) hpatch hfits
    intro reader hoffers
    rw [Alternatives.merge, Alternatives.frame, others.tag_frame_beq_eq_false hnodup.1 patch]
    exact hoverflows.map (Option.map Sum.inr) reader hoffers
  | .message number _ format others, _, hformed, chosen, .inl patch, hchosen, hpatch, hfits => by
    simp only [Alternatives.wellFormed, Bool.and_eq_true, decide_eq_true_eq] at hformed
    have hmerge := format.overflows_frames hformed.1.2
      ((chosen.bind Sum.getLeft?).getD format.default) patch
      (Format.within_getD_getLeft? hchosen fun _ => rfl) hpatch hfits
    have hlength := format.length_bytesAll_frames hformed.1.2 patch
    have hsize := format.size_le_maxSize hformed.1.2 hpatch
    intro reader hoffers
    rw [Alternatives.frame, Frame.payload_message hlength.symm] at hoffers
    rw [Alternatives.merge, Alternatives.frame, Frame.tag, if_pos (beq_self_eq_true _)]
    exact (Delimited.fails_merge (by omega) hmerge).map (fun message => some (Sum.inl message))
      reader hoffers
  | .message number _ format others, hnodup, hformed, chosen, .inr patch, hchosen, hpatch, hfits => by
    rw [Alternatives.numbers, List.nodup_cons] at hnodup
    rw [Alternatives.wellFormed, Bool.and_eq_true] at hformed
    have hoverflows := others.overflows_frame hnodup.2 hformed.2 (chosen.bind Sum.getRight?) patch
      (all_bind_getRight? hchosen fun _ => rfl) hpatch hfits
    intro reader hoffers
    rw [Alternatives.merge, Alternatives.frame, others.tag_frame_beq_eq_false hnodup.1 patch]
    exact hoverflows.map (Option.map Sum.inr) reader hoffers

end

end EngineConsole
