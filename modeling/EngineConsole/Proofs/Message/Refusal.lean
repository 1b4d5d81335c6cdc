import EngineConsole.Proofs.Message.Containment
import EngineConsole.Proofs.Record.Heeding

/-!
# Refused requests while a message is merged

Where tags are read in the course of a merge follows the structure of the format: once for each record of the message, and in turn inside each record that holds a message. At all other places a refused request fails the merge at once.
-/

namespace EngineConsole

/-! ### Where tags are read -/

def nothingHeads (value : Unit) (reader : Reader) : List Reader :=
  Delimited.recordHeads (fun _ _ _ => []) dropTag (reader.unread + 1) value reader

mutual

/-- The readers at which tags are read when a message is merged, inside messages too. -/
def Format.heads {μ : Type} : Format μ → μ → Reader → List Reader
  | .record _ fields split _ _ _, message, reader =>
    Delimited.recordHeads fields.heads fields.merge (reader.unread + 1) (split message) reader

def Fields.heads {α : Type} : Fields α → Tag → α → Reader → List Reader
  | .nil, _, _, _ => []
  | .cons field others, tag, (value, values), reader =>
    if field.accepts tag then field.heads tag value reader else others.heads tag values reader

def Field.heads {α : Type} : Field α → Tag → α → Reader → List Reader
  | .leaf _ _ _, _, _, _ => []
  | .message _ _ format, _, value, reader =>
    Delimited.spanHeads (format.heads (value.getD format.default)) reader
  | .messages _ _ capacity format, _, values, reader =>
    Delimited.appendHeads capacity format.maxSize (format.heads format.default) values reader
  | .choice _ alternatives split _ _ _, tag, value, reader =>
    alternatives.heads tag (value.map split) reader

def Alternatives.heads {α : Type} : Alternatives α → Tag → Option α → Reader → List Reader
  | .nil, _, _, _ => []
  | .signal number _ others, tag, chosen, reader =>
    if tag == ⟨number, .delimited⟩ then Delimited.spanHeads (nothingHeads ()) reader
    else others.heads tag (chosen.bind Sum.getRight?) reader
  | .scalar number _ kind others, tag, chosen, reader =>
    if tag == ⟨number, kind.wireType⟩ then []
    else others.heads tag (chosen.bind Sum.getRight?) reader
  | .message number _ format others, tag, chosen, reader =>
    if tag == ⟨number, .delimited⟩ then
      Delimited.spanHeads (format.heads ((chosen.bind Sum.getLeft?).getD format.default)) reader
    else others.heads tag (chosen.bind Sum.getRight?) reader

end

/-! ### Merges heed refusals -/

theorem heeds_dropTag {α : Type} (tag : Tag) (value : α) :
    Merged.Heeds (fun _ => []) (dropTag tag value) := fun reader => .refl reader

theorem heedsOrEnds_mergeNothing (value : Unit) :
    Merged.HeedsOrEnds (nothingHeads value) (mergeNothing value) := fun reader =>
  Delimited.heedsOrEnds_mergeRecords dropTag_moves heeds_dropTag (reader.unread + 1) value reader

theorem Leaf.heeds_merge {α : Type} (number : Nat) (wireType : WireType) (kind : Leaf α)
    (value : α) : Merged.Heeds (fun _ => []) (kind.merge number wireType value) := by
  cases kind with
  | scalar kind => exact Merged.heeds_assign (kind.heeds_fetch number) value id
  | optional kind => exact Merged.heeds_assign (kind.heeds_fetch number) value some
  | text capacity => exact Merged.heeds_assign (Text.heeds_fetch number capacity) value id
  | optionalText capacity =>
    exact Merged.heeds_assign (Text.heeds_fetch number capacity) value some
  | floats capacity =>
    intro reader
    rw [merge]
    split
    · exact Floats.heeds_mergeUnpacked number capacity value reader
    · exact Floats.heeds_mergePacked number capacity value reader

mutual

/-- The merge of a message heeds every refusal; only where a tag is read does a refusal end a message instead. -/
theorem Format.heedsOrEnds_merge {μ : Type} : (format : Format μ) → (message : μ) →
    Merged.HeedsOrEnds (format.heads message) (format.merge message)
  | .record _ fields split _ _ _, message => fun reader =>
    Delimited.heedsOrEnds_mergeRecords fields.moves_merge fields.heeds_merge (reader.unread + 1)
      (split message) reader

theorem Fields.heeds_merge {α : Type} : (fields : Fields α) → (tag : Tag) → (values : α) →
    Merged.Heeds (fields.heads tag values) (fields.merge tag values)
  | .nil, tag, values => heeds_dropTag tag values
  | .cons field others, tag, (value, values) => by
    intro reader
    rw [Fields.merge, Fields.heads]
    split
    · exact field.heeds_merge tag value reader
    · exact others.heeds_merge tag values reader

theorem Field.heeds_merge {α : Type} : (field : Field α) → (tag : Tag) → (value : α) →
    Merged.Heeds (field.heads tag value) (field.merge tag value)
  | .leaf number _ kind, tag, value => kind.heeds_merge number tag.wireType value
  | .message _ _ format, _, value => Delimited.heeds_merge (format.heedsOrEnds_merge _)
  | .messages number _ capacity format, _, values =>
    Delimited.heeds_append number capacity format.maxSize values (format.heedsOrEnds_merge _)
  | .choice _ alternatives split _ _ _, tag, value => alternatives.heeds_merge tag (value.map split)

theorem Alternatives.heeds_merge {α : Type} : (alternatives : Alternatives α) → (tag : Tag) →
    (chosen : Option α) → Merged.Heeds (alternatives.heads tag chosen) (alternatives.merge tag chosen)
  | .nil, _, _ => fun reader => .refl reader
  | .signal _ _ others, tag, chosen => by
    intro reader
    rw [Alternatives.merge, Alternatives.heads]
    split
    · exact Delimited.heeds_merge (heedsOrEnds_mergeNothing ()) reader
    · exact others.heeds_merge tag _ reader
  | .scalar number _ kind others, tag, chosen => by
    intro reader
    rw [Alternatives.merge, Alternatives.heads]
    split
    · exact Merged.heeds_assign (kind.heeds_fetch number) none _ reader
    · exact others.heeds_merge tag _ reader
  | .message _ _ format others, tag, chosen => by
    intro reader
    rw [Alternatives.merge, Alternatives.heads]
    split
    · exact Delimited.heeds_merge (format.heedsOrEnds_merge _) reader
    · exact others.heeds_merge tag _ reader

end

end EngineConsole
