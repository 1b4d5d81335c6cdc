import EngineConsole.Proofs.Console.Sizes
import EngineConsole.Proofs.Message.RoundTrip

/-!
# Round trips on the console link

What one side of the link encodes, the other side decodes. It does not matter whether the bytes lie in memory or come through a callback, as long as the callback serves what it is asked for.
-/

namespace EngineConsole

theorem Format.decode_eq_of_willing {μ : Type} {format : Format μ}
    (hformed : format.wellFormed = true) {message : μ} (hwithin : format.within message = true)
    {source : Source} (hwilling : source.supply.Willing) (hrest : source.rest = format.bytes message) :
    ∃ after, format.decode { source } = { value := format.plain message, reader := after } ∧
      after.unread = 0 ∧
      after.source.position = source.position + (format.bytes message).length := by
  have hoffers := Reader.offers_of_rest_eq hwilling hrest
  have hunread : Reader.unread { source } = (format.bytes message).length := by
    rw [Reader.unread, hrest]
  obtain ⟨after, hdecode, hadvanced⟩ :=
    format.completes_decode hformed hwithin { source } hoffers (.inl hunread)
  refine ⟨after, hdecode, ?_, hadvanced.position⟩
  have hleft := hadvanced.unread
  omega

namespace MessageType

/-- Every message within capacity is decoded from its encoding, in memory or behind a callback that serves every request: without a failure and without a notice, to the last byte, and into its plain form, which differs from the message at most in the sign of the zeros of implicit presence. -/
theorem decode_bytes (type : MessageType) {message : type.Value}
    (hwithin : type.format.within message = true) :
    ∀ source ∈ [Source.ofBytes (type.format.bytes message),
        Source.ofCallback (type.format.bytes message) (fun _ => false)],
      ∃ after, type.format.decode { source } =
          { value := type.format.plain message, reader := after, notices := [], error := none } ∧
        after.unread = 0 ∧ after.source.position = (type.format.bytes message).length := by
  intro source hsource
  have hwilling : source.supply.Willing := by
    rcases List.mem_pair.mp hsource with rfl | rfl
    · trivial
    · exact fun _ => rfl
  have hrest : source.rest = type.format.bytes message := by
    rcases List.mem_pair.mp hsource with rfl | rfl
    · rfl
    · rfl
  have hstart : source.position = 0 := by
    rcases List.mem_pair.mp hsource with rfl | rfl
    · rfl
    · rfl
  obtain ⟨after, hdecode, hunread, hposition⟩ :=
    type.format.decode_eq_of_willing type.wellFormed_format hwithin hwilling hrest
  rw [hstart, Nat.zero_add] at hposition
  exact ⟨after, hdecode, hunread, hposition⟩

theorem decode_bytes_deep : consoleMessage.format.within ConsoleMessage.deep = true ∧
    ∀ source ∈ [Source.ofBytes (consoleMessage.format.bytes ConsoleMessage.deep),
        Source.ofCallback (consoleMessage.format.bytes ConsoleMessage.deep) (fun _ => false)],
      ∃ after, consoleMessage.format.decode { source } =
          { value := consoleMessage.format.plain ConsoleMessage.deep, reader := after, notices := [],
            error := none } ∧
        after.unread = 0 ∧
        after.source.position = (consoleMessage.format.bytes ConsoleMessage.deep).length :=
  ⟨by decide, decode_bytes .consoleMessage (by decide)⟩

end MessageType

end EngineConsole
