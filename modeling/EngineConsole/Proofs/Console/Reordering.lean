import EngineConsole.Console.Catalogue
import EngineConsole.Proofs.Message.Reordering

/-!
# Console messages in any order

A sender may write the fields of a message of the console link in whatever order it likes. The order of the records matters within one field and within one choice, and nowhere else.
-/

namespace EngineConsole

/-- Complete records that each address a field, of whatever kind, may be reordered as long as the order within each field and within each choice is kept: if they are merged successfully, so are the reordered ones, and into the same value. -/
theorem MessageType.merge_reordered (type : MessageType) (value : type.Value)
    {records others : List Bytes} (hcomplete : ∀ record ∈ records, type.format.CompleteRecord record)
    (hreordered : type.format.Reordered records others)
    (hnone : (type.format.merge value (.ofBytes records.flatten)).error = none) :
    (type.format.merge value (.ofBytes others.flatten)).error = none ∧
      (type.format.merge value (.ofBytes others.flatten)).value =
        (type.format.merge value (.ofBytes records.flatten)).value := by
  obtain ⟨last, hlast⟩ := Format.foldlM_of_merge_flatten hcomplete hnone
  have hothers := Format.foldlM_of_reordered hcomplete hreordered value
  rw [hlast] at hothers
  obtain ⟨-, hvalue⟩ := Format.merge_flatten_of_foldlM hlast
  obtain ⟨hnone', hvalue'⟩ := Format.merge_flatten_of_foldlM hothers
  exact ⟨hnone', hvalue'.trans hvalue.symm⟩

/-! ### A request in another order -/

namespace Request

/-- The identifier twice, and between its records those of two alternatives. -/
def identifiersFirst : List Bytes := [[0x08, 0x05], [0x12, 0x00], [0x08, 0x07], [0x22, 0x02, 0x0a, 0x00]]

def kindsFirst : List Bytes := [[0x12, 0x00], [0x22, 0x02, 0x0a, 0x00], [0x08, 0x05], [0x08, 0x07]]

theorem completeRecord_identifiersFirst :
    ∀ record ∈ identifiersFirst, format.CompleteRecord record := by
  intro record hrecord
  simp only [identifiersFirst, List.mem_cons, List.not_mem_nil, or_false] at hrecord
  rcases hrecord with rfl | rfl | rfl | rfl
  · exact ⟨⟨1, .varint⟩, _, rfl, by decide, _, _, rfl, rfl⟩
  · exact ⟨⟨2, .delimited⟩, _, rfl, by decide, _, _, rfl, rfl⟩
  · exact ⟨⟨1, .varint⟩, _, rfl, by decide, _, _, rfl, rfl⟩
  · exact ⟨⟨4, .delimited⟩, _, rfl, by decide, _, _, rfl, rfl⟩

theorem reordered_kindsFirst : format.Reordered identifiersFirst kindsFirst where
  perm := by decide
  order := by
    intro place
    match place with
    | 0 => decide
    | 1 => decide
    | place + 2 => rfl

end Request

/-- The identifier that comes last is kept and so is the alternative that comes last, in either order. -/
theorem MessageType.merge_reordered_request :
    (∀ record ∈ Request.identifiersFirst, request.format.CompleteRecord record) ∧
    request.format.Reordered Request.identifiersFirst Request.kindsFirst ∧
    (request.format.merge {} (.ofBytes Request.identifiersFirst.flatten)).error = none ∧
    (request.format.merge {} (.ofBytes Request.kindsFirst.flatten)).error = none ∧
    (request.format.merge {} (.ofBytes Request.kindsFirst.flatten)).value =
      { id := 7, kind := some (.setConfig { config := some {} }) } := by
  have hcomplete := Request.completeRecord_identifiersFirst
  have hreordered := Request.reordered_kindsFirst
  have hnone : (request.format.merge {} (.ofBytes Request.identifiersFirst.flatten)).error = none := by
    decide +kernel
  obtain ⟨hnone', hvalue⟩ := merge_reordered .request {} hcomplete hreordered hnone
  exact ⟨hcomplete, hreordered, hnone, hnone', hvalue.trans (by decide +kernel)⟩

end EngineConsole
