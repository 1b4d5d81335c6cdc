import EngineConsole.Message.Decode
import EngineConsole.Proofs.Message.Capacity
import EngineConsole.Proofs.Record.Invariant
import EngineConsole.Proofs.Record.Reach

/-!
# Merging arbitrary bytes

The bytes may come from anywhere. Whatever they are, a merge ends for a reason of its own, stays inside the bytes and the spans that it was given, and leaves a message within capacity behind, also when it fails.
-/

namespace EngineConsole

/-! ### The reader -/

theorem dropTag_moves {α : Type} (tag : Tag) (value : α) : Merged.Moves (dropTag tag value) :=
  fun reader => .refl reader

theorem mergeNothing_moves (value : Unit) : Merged.Moves (mergeNothing value) := fun reader =>
  Delimited.moves_mergeRecords dropTag_moves (reader.unread + 1) value reader

theorem Leaf.moves_merge {α : Type} (number : Nat) (wireType : WireType) (kind : Leaf α)
    (value : α) : Merged.Moves (kind.merge number wireType value) := by
  cases kind with
  | scalar kind => exact Merged.moves_assign (kind.moves_fetch number) value id
  | optional kind => exact Merged.moves_assign (kind.moves_fetch number) value some
  | text capacity => exact Merged.moves_assign (Text.moves_fetch number capacity) value id
  | optionalText capacity => exact Merged.moves_assign (Text.moves_fetch number capacity) value some
  | floats capacity =>
    intro reader
    rw [merge]
    split
    · exact Floats.moves_mergeUnpacked number capacity value reader
    · exact Floats.moves_mergePacked number capacity value reader

mutual

theorem Format.moves_merge {μ : Type} : (format : Format μ) → (message : μ) →
    Merged.Moves (format.merge message)
  | .record _ fields split _ _ _, message => fun reader =>
    Delimited.moves_mergeRecords fields.moves_merge (reader.unread + 1) (split message) reader

theorem Fields.moves_merge {α : Type} : (fields : Fields α) → (tag : Tag) → (values : α) →
    Merged.Moves (fields.merge tag values)
  | .nil, tag, values => dropTag_moves tag values
  | .cons field others, tag, (value, values) => by
    intro reader
    rw [Fields.merge]
    split
    · exact field.moves_merge tag value reader
    · exact others.moves_merge tag values reader

theorem Field.moves_merge {α : Type} : (field : Field α) → (tag : Tag) → (value : α) →
    Merged.Moves (field.merge tag value)
  | .leaf number _ kind, tag, value => kind.moves_merge number tag.wireType value
  | .message _ _ format, _, value => Delimited.moves_merge (format.moves_merge _)
  | .messages number _ capacity format, _, values =>
    Delimited.moves_append number capacity format.maxSize values (format.moves_merge _)
  | .choice _ alternatives split _ _ _, tag, value => alternatives.moves_merge tag (value.map split)

theorem Alternatives.moves_merge {α : Type} : (alternatives : Alternatives α) → (tag : Tag) →
    (chosen : Option α) → Merged.Moves (alternatives.merge tag chosen)
  | .nil, _, _ => fun reader => .refl reader
  | .signal _ _ others, tag, chosen => by
    intro reader
    rw [Alternatives.merge]
    split
    · exact Delimited.moves_merge (mergeNothing_moves ()) reader
    · exact others.moves_merge tag _ reader
  | .scalar number _ kind others, tag, chosen => by
    intro reader
    rw [Alternatives.merge]
    split
    · exact Merged.moves_assign (kind.moves_fetch number) none _ reader
    · exact others.moves_merge tag _ reader
  | .message _ _ format others, tag, chosen => by
    intro reader
    rw [Alternatives.merge]
    split
    · exact Delimited.moves_merge (format.moves_merge _) reader
    · exact others.moves_merge tag _ reader

end

/-- The merge is what the record loop makes of the message when nothing bounds its steps. -/
def Format.Complete {μ : Type} : Format μ → μ → Reader → Merged μ → Prop
  | .record _ fields split join _ _, message, reader, merged =>
    ∃ records, Delimited.Run fields.merge (split message) reader records ∧ merged = records.map join

theorem Format.complete_merge {μ : Type} (format : Format μ) (message : μ) (reader : Reader) :
    format.Complete message reader (format.merge message reader) := by
  cases format with
  | record name fields split join join_split split_join =>
    exact ⟨_, Delimited.run_mergeRecords fields.moves_merge (Nat.lt_succ_self _), rfl⟩

/-! ### The limits -/

theorem Leaf.within_merge {α : Type} (number : Nat) (wireType : WireType) {kind : Leaf α} {value : α}
    (reader : Reader) (h : kind.within value = true) :
    kind.within (kind.merge number wireType value reader).value = true := by
  cases kind with
  | scalar kind => rfl
  | optional kind => rfl
  | text capacity =>
    exact Fetched.holds_assign (P := fun value => (text capacity).within value = true) h
      fun found hfound => decide_eq_true (Text.utf8ByteSize_le_of_fetch hfound)
  | optionalText capacity =>
    exact Fetched.holds_assign (P := fun value => (optionalText capacity).within value = true) h
      fun found hfound => decide_eq_true (Text.utf8ByteSize_le_of_fetch hfound)
  | floats capacity =>
    rw [within, decide_eq_true_eq] at h ⊢
    rw [merge]
    split
    · exact Floats.length_le_of_mergeUnpacked number reader h
    · exact Floats.length_le_of_mergePacked number reader h

theorem all_bind_getRight? {α β : Type} {P : α ⊕ β → Bool} {Q : β → Bool} {chosen : Option (α ⊕ β)}
    (h : chosen.all P = true) (hQ : ∀ value, P (.inr value) = Q value) :
    (chosen.bind Sum.getRight?).all Q = true := by
  match chosen, h with
  | none, _ => rfl
  | some (.inl _), _ => rfl
  | some (.inr value), h => exact (hQ value).symm.trans h

/-- The message from which the merge into an alternative starts is within capacity: the chosen one, or the default if another alternative was chosen. -/
theorem Format.within_getD_getLeft? {μ β : Type} {format : Format μ} {chosen : Option (μ ⊕ β)}
    {P : μ ⊕ β → Bool} (h : chosen.all P = true)
    (hP : ∀ message, P (.inl message) = format.within message) :
    format.within ((chosen.bind Sum.getLeft?).getD format.default) = true := by
  match chosen, h with
  | none, _ => exact format.within_default
  | some (.inl message), h => exact (hP message).symm.trans h
  | some (.inr _), _ => exact format.within_default

mutual

/-- A merge keeps a message within capacity, whatever it reads and whether it fails or not. -/
theorem Format.within_merge {μ : Type} : (format : Format μ) → (message : μ) → (reader : Reader) →
    format.within message = true → format.within (format.merge message reader).value = true
  | .record _ fields split join _ split_join, message, reader, h => by
    have hrecords := Delimited.holds_mergeRecords (P := fun values => fields.within values = true)
      (reader.unread + 1) reader h fields.within_merge
    rw [Format.within, Format.merge, Merged.map, split_join]
    exact hrecords

theorem Fields.within_merge {α : Type} : (fields : Fields α) → (tag : Tag) → (values : α) →
    (reader : Reader) → fields.within values = true →
    fields.within (fields.merge tag values reader).value = true
  | .nil, _, _, _, _ => rfl
  | .cons field others, tag, (value, values), reader, h => by
    rw [Fields.within, Bool.and_eq_true] at h
    rw [Fields.merge]
    split
    · exact Bool.and_eq_true _ _ ▸ ⟨field.within_merge tag value reader h.1, h.2⟩
    · exact Bool.and_eq_true _ _ ▸ ⟨h.1, others.within_merge tag values reader h.2⟩

theorem Field.within_merge {α : Type} : (field : Field α) → (tag : Tag) → (value : α) →
    (reader : Reader) → field.within value = true →
    field.within (field.merge tag value reader).value = true
  | .leaf number _ kind, tag, value, reader, h => kind.within_merge number tag.wireType reader h
  | .message _ _ format, tag, value, reader, h =>
    Delimited.holds_merge (P := fun message => format.within message = true) reader
      (Format.within_getD_default h) format.within_merge
  | .messages number _ capacity format, tag, values, reader, h => by
    rw [Field.within, Bool.and_eq_true, decide_eq_true_eq, List.all_eq_true] at h ⊢
    exact Delimited.holds_append (P := fun message => format.within message = true) number
      format.maxSize reader h.1 h.2 format.within_default format.within_merge
  | .choice _ alternatives split join _ split_join, tag, value, reader, h => by
    have hchosen := alternatives.within_merge tag (value.map split) reader (by
      rw [Option.all_map]
      exact h)
    rw [Field.merge, Merged.map]
    cases hmerged : (alternatives.merge tag (value.map split) reader).value with
    | none => exact h
    | some chosen =>
      rw [hmerged, Option.all_some] at hchosen
      rw [Option.map_some, Option.some_or, Field.within, Option.all_some, split_join]
      exact hchosen

theorem Alternatives.within_merge {α : Type} : (alternatives : Alternatives α) → (tag : Tag) →
    (chosen : Option α) → (reader : Reader) → chosen.all alternatives.within = true →
    (alternatives.merge tag chosen reader).value.all alternatives.within = true
  | .nil, _, _, _, _ => rfl
  | .signal _ _ others, tag, chosen, reader, h => by
    have hothers := others.within_merge tag (chosen.bind Sum.getRight?) reader
      (all_bind_getRight? h fun _ => rfl)
    rw [Alternatives.merge]
    split
    · rw [Merged.map]
      split
      · rfl
      · rfl
    · rw [Merged.map, Option.all_map]
      exact hothers
  | .scalar number _ kind others, tag, chosen, reader, h => by
    have hothers := others.within_merge tag (chosen.bind Sum.getRight?) reader
      (all_bind_getRight? h fun _ => rfl)
    rw [Alternatives.merge]
    split
    · rw [Fetched.assign]
      split
      · rfl
      · rfl
    · rw [Merged.map, Option.all_map]
      exact hothers
  | .message _ _ format others, tag, chosen, reader, h => by
    have hothers := others.within_merge tag (chosen.bind Sum.getRight?) reader
      (all_bind_getRight? h fun _ => rfl)
    have hstart := Format.within_getD_getLeft? h fun _ => rfl
    rw [Alternatives.merge]
    split
    · exact Delimited.holds_merge (P := fun message => format.within message = true) reader hstart
        format.within_merge
    · rw [Merged.map, Option.all_map]
      exact hothers

end

end EngineConsole
