import EngineConsole.Console.Catalogue
import EngineConsole.Proofs.Message.Refusal

/-!
# Callbacks that refuse

A callback that delivers the bytes of a message may refuse a call at any time. The merge then gives up at once, with one exception: where the call was for a byte of a tag, the message ends there, and if it stands inside another one, the rest of it is skipped and the other one goes on. So if a callback refuses a call now and then, a part of a message can be missing without a failure.
-/

namespace EngineConsole

namespace MessageType

/-- A call that the callback refuses is the last one, and the merge fails for that reason or, if the call was for a byte of a tag of the message itself, ends there without a failure. Only inside a message further down are there calls behind a refused one: it was for a byte of a tag, and the calls that follow directly are those that skip the rest of the span of that message. -/
theorem merge_refusals (type : MessageType) (value : type.Value) (data : Bytes)
    (refuses : Nat → Bool) :
    let source := Source.ofCallback data refuses
    let merged := type.format.merge value { source }
    let calls := merged.reader.source.requests.reverse
    merged.reader.source = source.askAll calls ∧
    ∀ earlier count later, calls = earlier ++ count :: later →
      refuses earlier.length = true ∨ (source.askAll earlier).rest.length < count →
      later = [] ∧ merged.error = some (.transfer .sourceFailed) ∨
      (later = [] ∧ merged.error = none ∧ ∃ head ∈ type.format.heads value { source },
        head.spans = [] ∧ Tag.read head = (none, merged.reader)) ∨
      source.EndsMessage (type.format.heads value { source }) 0 earlier count later := by
  intro source merged calls
  obtain ⟨counts, hsource, hheeded⟩ := type.format.heedsOrEnds_merge value { source }
  have hcalls : calls = counts := by
    show merged.reader.source.requests.reverse = counts
    rw [hsource, Source.requests_askAll, List.reverse_append, List.reverse_reverse]
    rfl
  rw [hcalls]
  refine ⟨hsource, fun earlier count later hcounts hrefused => ?_⟩
  have hrefusal := Source.refusal_askAll_ofCallback hrefused
  rcases hheeded earlier count later .sourceFailed hcounts hrefusal with
    ⟨hlast, herror | ⟨hnone, head, hhead, hspans, hread⟩⟩ | hends
  · exact .inl ⟨hlast, herror⟩
  · exact .inr (.inl ⟨hlast, hnone, head, hhead, List.length_eq_zero_iff.mp hspans, hread⟩)
  · exact .inr (.inr hends)

/-- The third call asks for the tag of a field of the request, and the two calls behind it are those that skip what was left of the request and find that the message ends. -/
theorem merge_refusals_request :
    let refuses := fun call : Nat => call == 2
    let source := Source.ofCallback [0x22, 0x02, 0x08, 0x07] refuses
    (consoleMessage.format.merge {} { source }).reader.source.requests.reverse =
      [1, 1] ++ 1 :: [2, 1] ∧
    refuses [1, 1].length = true ∧
    source.EndsMessage (consoleMessage.format.heads {} { source }) 0 [1, 1] 1 [2, 1] := by
  intro refuses source
  have hcalls : (consoleMessage.format.merge {} { source }).reader.source.requests.reverse =
      [1, 1] ++ 1 :: [2, 1] := by decide
  obtain ⟨-, hrefusals⟩ := merge_refusals consoleMessage {} [0x22, 0x02, 0x08, 0x07] refuses
  rcases hrefusals [1, 1] 1 [2, 1] hcalls (.inl rfl) with ⟨hlast, -⟩ | ⟨hlast, -⟩ | hends
  · contradiction
  · contradiction
  · exact ⟨hcalls, rfl, hends⟩

/-- A callback refuses its third call and is called twice more, and the merge succeeds with an empty request in place of the one that was sent. -/
theorem merge_goes_on :
    let refuses := fun call : Nat => call == 2
    let source := Source.ofCallback [0x22, 0x02, 0x08, 0x07] refuses
    let merged := consoleMessage.format.merge {} { source }
    refuses 2 = true ∧ merged.reader.source.requests.reverse = [1, 1, 1, 2, 1] ∧
      merged.error = none ∧ merged.value.kind = some (.request {}) := by
  decide

end MessageType

end EngineConsole
