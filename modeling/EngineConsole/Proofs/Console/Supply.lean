import EngineConsole.Console.Catalogue
import EngineConsole.Proofs.Message.Simulation
import EngineConsole.Proofs.Record.Supply

/-!
# Messages from memory and through a callback

It makes no difference whether the bytes of a message lie in memory or come through a callback that refuses nothing it could serve: the merge takes the same way and comes to the same value. Only where the bytes themselves end too early does the failure not say so any more. A span that ends too early is noticed by the decoder, and its failure is the same in both cases.
-/

namespace EngineConsole

namespace MessageType

/-- A merge through a callback comes to the value and the notices of the merge from memory and leaves the same reader behind, with the same bytes consumed and the same requests made. It fails exactly if the other one does, and for the same reason, unless this is the failure with which the memory refused the last request: then the callback has failed. -/
theorem merge_throughCallback (type : MessageType) (value : type.Value) (data : Bytes) :
    let memory := type.format.merge value (.ofBytes data)
    let callback := type.format.merge value { source := .ofCallback data fun _ => false }
    callback.value = memory.value ∧ callback.notices = memory.notices ∧
    callback.reader = memory.reader.throughCallback ∧
    callback.error =
      memory.error.map (DecodeError.throughCallback (memory.reader.source.lastRefusal data)) := by
  intro memory callback
  have hfollows := type.format.follows_merge (.inStep data) value
  have hmerge := @hfollows 0 _ _ (Reader.inStep_ofBytes data)
  exact ⟨hmerge.value.symm, hmerge.notices.symm, hmerge.reader.other, hmerge.error_throughCallback⟩

/-- A request of two bytes of which one is there, and a request of a single byte that is there: in both cases the number behind the tag is missing, in the first one at the end of the data and in the second one at the end of the span. -/
theorem merge_throughCallback_request :
    let memory := fun data => consoleMessage.format.merge {} (.ofBytes data)
    let callback := fun data =>
      consoleMessage.format.merge {} { source := .ofCallback data fun _ => false }
    (memory [0x22, 0x02, 0x08]).error = some (.transfer (.endOfData 1 0)) ∧
    (callback [0x22, 0x02, 0x08]).error = some (.transfer .sourceFailed) ∧
    (memory [0x22, 0x01, 0x08]).error = some (.transfer (.endOfData 1 0)) ∧
    (callback [0x22, 0x01, 0x08]).error = some (.transfer (.endOfData 1 0)) := by
  intro memory callback
  have hdata : (memory [0x22, 0x02, 0x08]).error = some (.transfer (.endOfData 1 0)) := by decide
  have hspan : (memory [0x22, 0x01, 0x08]).error = some (.transfer (.endOfData 1 0)) := by decide
  refine ⟨hdata, ?_, hspan, ?_⟩
  · refine (merge_throughCallback consoleMessage {} [0x22, 0x02, 0x08]).2.2.2.trans ?_
    decide
  · refine (merge_throughCallback consoleMessage {} [0x22, 0x01, 0x08]).2.2.2.trans ?_
    decide

end MessageType

end EngineConsole
