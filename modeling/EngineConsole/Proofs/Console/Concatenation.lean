import EngineConsole.Console.Catalogue
import EngineConsole.Proofs.Message.Concatenation

/-!
# Console messages in parts

A message of the console link may be sent in parts that are cut between two records. Merging the parts one after the other is merging the whole, down to the error, and tags that the receiver does not know may stand between any two records.
-/

namespace EngineConsole

/-- The bytes behind a part that ends between two records are merged as if they were alone, into what the part has made of the value: with the same value and the same error in the end, and as many more bytes consumed as the part has. A tag that addresses no field, in any form in which it can be read, is such a part that changes nothing, so inserting such tags between the records of any data changes neither the value nor the error. -/
theorem MessageType.merge_parts (type : MessageType) (value : type.Value) :
    (∀ first second, type.format.EndsBetweenRecords value first →
      (type.format.merge value (.ofBytes (first ++ second))).value =
          (type.format.merge (type.format.merge value (.ofBytes first)).value
            (.ofBytes second)).value ∧
        (type.format.merge value (.ofBytes (first ++ second))).error =
          (type.format.merge (type.format.merge value (.ofBytes first)).value
            (.ofBytes second)).error ∧
        (type.format.merge value (.ofBytes (first ++ second))).reader.source.position =
          first.length + (type.format.merge (type.format.merge value (.ofBytes first)).value
            (.ofBytes second)).reader.source.position) ∧
    (∀ inserted, type.format.Unrecognized inserted →
      type.format.EndsBetweenRecords value inserted ∧
        (type.format.merge value (.ofBytes inserted)).value = value) ∧
    ∀ data padded, type.format.Padded value data padded →
      (type.format.merge value (.ofBytes padded)).value =
          (type.format.merge value (.ofBytes data)).value ∧
        (type.format.merge value (.ofBytes padded)).error =
          (type.format.merge value (.ofBytes data)).error := by
  refine ⟨?_, ?_, ?_⟩
  · intro first second hfirst
    obtain ⟨hvalue, herror, -, hposition⟩ := Format.merge_append hfirst second
    exact ⟨hvalue, herror, hposition⟩
  · intro inserted hinserted
    exact hinserted.endsBetweenRecords value
  · intro data padded hpadded
    obtain ⟨hvalue, herror, -⟩ := hpadded.merge
    exact ⟨hvalue, herror⟩

/-! ### A request in parts -/

namespace Request

def identifierBytes : Bytes := [0x08, 0x05]

def brokenConfig : Bytes := [0x22, 0x04, 0x0a, 0x7f]

/-- The tag of the identifier with a wire type that it does not have, in two bytes more than it takes. -/
def foreignTag : Bytes := [0x8d, 0x80, 0x00]

theorem endsBetweenRecords_identifierBytes (request : Request) :
    format.EndsBetweenRecords request identifierBytes := by
  have hpasses : format.Passes request (.ofBytes identifierBytes) { request with id := 5 }
      ⟨⟨.memory, [], 2, [1, 1]⟩, []⟩ := .cons rfl rfl (.nil _ _)
  exact (hpasses.endsBetweenRecords rfl).1

theorem unrecognized_foreignTag : format.Unrecognized foreignTag :=
  ⟨⟨1, .fixed32⟩, ⟨⟨.memory, [], 3, [1, 1, 1]⟩, []⟩, rfl, rfl, rfl⟩

end Request

/-- A configuration that breaks off fails behind the identifier as it does alone, and a foreign tag between the two makes no difference. -/
theorem MessageType.merge_parts_request :
    request.format.EndsBetweenRecords { id := 9, kind := some .getConfig }
        Request.identifierBytes ∧
      (request.format.merge { id := 9, kind := some .getConfig }
        (.ofBytes (Request.identifierBytes ++ Request.brokenConfig))).error =
          some (.transfer (.endOfData 16 2)) ∧
      (request.format.merge { id := 9, kind := some .getConfig }
        (.ofBytes (Request.identifierBytes ++ (Request.foreignTag ++ Request.brokenConfig)))).value =
          { id := 5, kind := some (.setConfig { config := some {} }) } ∧
      (request.format.merge { id := 9, kind := some .getConfig }
        (.ofBytes (Request.identifierBytes ++ (Request.foreignTag ++ Request.brokenConfig)))).error =
          some (.transfer (.endOfData 16 2)) := by
  have hends := Request.endsBetweenRecords_identifierBytes { id := 9, kind := some .getConfig }
  have hpadded : request.format.Padded { id := 9, kind := some .getConfig }
      (Request.identifierBytes ++ Request.brokenConfig)
      (Request.identifierBytes ++ (Request.foreignTag ++ Request.brokenConfig)) :=
    .records hends (.tag Request.unrecognized_foreignTag (.none _ _))
  obtain ⟨-, hwhole, -⟩ :=
    (merge_parts .request { id := 9, kind := some .getConfig }).1 _ Request.brokenConfig hends
  obtain ⟨hvalue, herror⟩ :=
    (merge_parts .request { id := 9, kind := some .getConfig }).2.2 _ _ hpadded
  refine ⟨hends, hwhole.trans (by decide), hvalue.trans (by decide), ?_⟩
  rw [herror, hwhole]
  decide

end EngineConsole
