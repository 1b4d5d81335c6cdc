import EngineConsole.Proofs.Message.Containment
import EngineConsole.Proofs.Record.Simulation

/-!
# Merging from two readers

Any relation between readers that requests keep is kept by the merge of a message of any format. What is to be proved about merges from two readers, or about the requests of a single one, is proved of one request and holds of all merges from then on.
-/

namespace EngineConsole

variable {R : Nat → Reader → Reader → Prop} {E : Source → TransferError → TransferError → Prop}

namespace Reader.Simulation

variable {α : Type} (simulation : Reader.Simulation R E)

include simulation

omit simulation in
theorem follows_dropTag (tag : Tag) (value : α) : Merged.Follows R E (dropTag tag value) :=
  fun _ _ _ hreaders => ⟨rfl, hreaders, rfl, .none⟩

theorem follows_mergeNothing (value : Unit) : Merged.Follows R E (mergeNothing value) :=
  fun _ reader other hreaders => simulation.alike_mergeRecords dropTag_moves follows_dropTag value
    hreaders (Nat.lt_succ_self reader.unread) (Nat.lt_succ_self other.unread)

theorem follows_leaf (number : Nat) (wireType : WireType) (kind : Leaf α) (value : α) :
    Merged.Follows R E (kind.merge number wireType value) := by
  intro depth reader other hreaders
  cases kind with
  | scalar kind => exact (simulation.follows_scalar kind number hreaders).assign value id
  | optional kind => exact (simulation.follows_scalar kind number hreaders).assign value some
  | text capacity => exact (simulation.follows_text number capacity hreaders).assign value id
  | optionalText capacity =>
    exact (simulation.follows_text number capacity hreaders).assign value some
  | floats capacity =>
    rw [Leaf.merge, Leaf.merge]
    split
    · exact simulation.follows_mergeUnpacked number capacity value hreaders
    · exact simulation.follows_mergePacked number capacity value hreaders

end Reader.Simulation

mutual

theorem Format.follows_merge {μ : Type} (simulation : Reader.Simulation R E) :
    (format : Format μ) → (message : μ) → Merged.Follows R E (format.merge message)
  | .record _ fields split join _ _, message => fun _ reader other hreaders =>
    (simulation.alike_mergeRecords fields.moves_merge (fields.follows_merge simulation)
      (split message) hreaders (Nat.lt_succ_self reader.unread)
      (Nat.lt_succ_self other.unread)).map join

theorem Fields.follows_merge {α : Type} (simulation : Reader.Simulation R E) :
    (fields : Fields α) → (tag : Tag) → (values : α) → Merged.Follows R E (fields.merge tag values)
  | .nil, tag, values => Reader.Simulation.follows_dropTag tag values
  | .cons field others, tag, (value, values) => by
    intro depth reader other hreaders
    rw [Fields.merge, Fields.merge]
    split
    · exact (field.follows_merge simulation tag value hreaders).map _
    · exact (others.follows_merge simulation tag values hreaders).map _

theorem Field.follows_merge {α : Type} (simulation : Reader.Simulation R E) :
    (field : Field α) → (tag : Tag) → (value : α) → Merged.Follows R E (field.merge tag value)
  | .leaf number _ kind, tag, value => simulation.follows_leaf number tag.wireType kind value
  | .message _ _ format, _, _ => fun _ _ _ hreaders =>
    (simulation.follows_merge (format.follows_merge simulation _) hreaders).map some
  | .messages number _ capacity format, _, values =>
    simulation.follows_append number capacity format.maxSize values
      (format.follows_merge simulation _)
  | .choice _ alternatives split join _ _, tag, value => fun _ _ _ hreaders =>
    (alternatives.follows_merge simulation tag (value.map split) hreaders).map
      fun chosen => (chosen.map join).or value

theorem Alternatives.follows_merge {α : Type} (simulation : Reader.Simulation R E) :
    (alternatives : Alternatives α) → (tag : Tag) → (chosen : Option α) →
    Merged.Follows R E (alternatives.merge tag chosen)
  | .nil, _, _ => fun _ _ _ hreaders => ⟨rfl, hreaders, rfl, .none⟩
  | .signal _ _ others, tag, chosen => by
    intro depth reader other hreaders
    rw [Alternatives.merge, Alternatives.merge]
    split
    · have hmerge := simulation.follows_merge (simulation.follows_mergeNothing ()) hreaders
      simp only [hmerge.isNone_error]
      exact hmerge.map _
    · exact (others.follows_merge simulation tag _ hreaders).map _
  | .scalar number _ kind others, tag, chosen => by
    intro depth reader other hreaders
    rw [Alternatives.merge, Alternatives.merge]
    split
    · exact (simulation.follows_scalar kind number hreaders).assign none _
    · exact (others.follows_merge simulation tag _ hreaders).map _
  | .message _ _ format others, tag, chosen => by
    intro depth reader other hreaders
    rw [Alternatives.merge, Alternatives.merge]
    split
    · exact (simulation.follows_merge (format.follows_merge simulation _) hreaders).map _
    · exact (others.follows_merge simulation tag _ hreaders).map _

end

end EngineConsole
