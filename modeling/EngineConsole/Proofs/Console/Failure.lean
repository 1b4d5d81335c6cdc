import EngineConsole.Console.Catalogue
import EngineConsole.Proofs.Message.Failure

/-!
# Broken messages on the console link

A message that breaks off or is corrupted cannot be merged as a whole. What was merged before stays, and the damage is limited to one field.
-/

namespace EngineConsole

/-- A merge that fails has failed on one record. The bytes before it are complete records, merged without a failure; the record itself has changed no field but the one that its tag addresses, and not even that one if it holds a number, a text, a list of messages or an alternative that is a number or without payload. -/
theorem MessageType.merge_failure (type : MessageType) (value : type.Value) {data : Bytes}
    {error : DecodeError} (h : (type.format.merge value (.ofBytes data)).error = some error) :
    ∃ done rest kept tag, type.format.Broken value data done rest kept tag ∧
      type.format.AgreeApart tag kept (type.format.merge value (.ofBytes data)).value ∧
      (type.format.atomic tag = true →
        (type.format.merge value (.ofBytes data)).value = kept) := by
  obtain ⟨done, rest, kept, tag, hbroken⟩ := type.format.broken_of_error h
  have herror : (type.format.merge value (.ofBytes data)).error ≠ none := by
    rw [h]
    exact Option.some_ne_none error
  exact ⟨done, rest, kept, tag, hbroken, hbroken.agreeApart, hbroken.value_eq herror⟩

/-- A request whose configuration breaks off: the identifier before it is merged, and the configuration has taken the place of the signal that was chosen. -/
theorem MessageType.merge_failure_request :
    (request.format.merge { id := 9, kind := some .getConfig }
      (.ofBytes [0x08, 0x05, 0x22, 0x04, 0x0a, 0x7f])).error =
        some (.transfer (.endOfData 16 2)) ∧
    ∃ done rest kept tag,
      request.format.Broken { id := 9, kind := some .getConfig }
        [0x08, 0x05, 0x22, 0x04, 0x0a, 0x7f] done rest kept tag ∧
      request.format.AgreeApart tag kept (request.format.merge
        { id := 9, kind := some .getConfig } (.ofBytes [0x08, 0x05, 0x22, 0x04, 0x0a, 0x7f])).value ∧
      (request.format.atomic tag = true → (request.format.merge
        { id := 9, kind := some .getConfig }
        (.ofBytes [0x08, 0x05, 0x22, 0x04, 0x0a, 0x7f])).value = kept) :=
  have h : (request.format.merge { id := 9, kind := some .getConfig }
    (.ofBytes [0x08, 0x05, 0x22, 0x04, 0x0a, 0x7f])).error = some (.transfer (.endOfData 16 2)) := by
    decide
  ⟨h, merge_failure .request _ h⟩

end EngineConsole
