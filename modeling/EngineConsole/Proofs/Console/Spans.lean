import EngineConsole.Console.Catalogue
import EngineConsole.Proofs.Message.Simulation
import EngineConsole.Proofs.Record.Span

/-!
# Submessages on the console link

The length in front of a submessage comes from the line and may be anything. Whatever it is and whatever follows it, the bytes behind the span are safe: they are not requested while the submessage is decoded, and they have no influence on what comes out.
-/

namespace EngineConsole

/-- While a submessage of declared length is merged, no request, served or refused, goes beyond the span: what was consumed of it and what is requested next are at most its length. A merge that succeeds has consumed exactly the span, so a span that is longer than what is left is never merged successfully. -/
theorem MessageType.merge_staysWithin (type : MessageType) (value : type.Value) {reader behind : Reader}
    {length : Nat} (hlength : Varint.readLength reader = .ok length behind) :
    (∃ counts, (Delimited.merge type.format.merge value reader).reader.source =
        behind.source.askAll counts ∧
      (Delimited.merge type.format.merge value reader).reader.source.requests =
        counts.reverse ++ behind.source.requests ∧
      behind.source.StaysWithin length counts) ∧
    ((Delimited.merge type.format.merge value reader).error = none →
      behind.Advanced length (Delimited.merge type.format.merge value reader).reader) ∧
    (behind.unread < length → (Delimited.merge type.format.merge value reader).error ≠ none) := by
  have hmerge : Delimited.merge type.format.merge value reader =
      Delimited.mergeSpan type.format.merge length value behind := by
    rw [Delimited.merge, hlength]
  have hadvanced : (Delimited.merge type.format.merge value reader).error = none →
      behind.Advanced length (Delimited.merge type.format.merge value reader).reader := by
    rw [hmerge]
    exact Delimited.advanced_of_mergeSpan (type.format.moves_merge value)
  refine ⟨?_, hadvanced, fun hshort hnone => ?_⟩
  · obtain ⟨counts, hsource, hcounts⟩ := Delimited.confined_mergeSpan
      (type.format.follows_merge (.confined behind.source length) value)
    rw [hmerge, hsource]
    exact ⟨counts, rfl, behind.source.requests_askAll counts, hcounts⟩
  · have hheld := (hadvanced hnone).held
    omega

/-- A callback that refuses from its fifth call on. Five bytes are declared, and the field inside declares more than that. -/
def Reader.overdeclared : Reader where
  source := .ofCallback [0x05, 0x2a, 0x7f, 0x0a, 0x01, 0x02] fun call => 4 ≤ call

theorem MessageType.merge_staysWithin_overdeclared : ∃ behind : Reader,
    Varint.readLength Reader.overdeclared = .ok 5 behind ∧
    (∃ counts, (Delimited.merge consoleMessage.format.merge {} Reader.overdeclared).reader.source =
        behind.source.askAll counts ∧
      (Delimited.merge consoleMessage.format.merge {} Reader.overdeclared).reader.source.requests =
        counts.reverse ++ behind.source.requests ∧
      behind.source.StaysWithin 5 counts) ∧
    ((Delimited.merge consoleMessage.format.merge {} Reader.overdeclared).error = none →
      behind.Advanced 5 (Delimited.merge consoleMessage.format.merge {} Reader.overdeclared).reader) ∧
    (behind.unread < 5 →
      (Delimited.merge consoleMessage.format.merge {} Reader.overdeclared).error ≠ none) :=
  have hlength : Varint.readLength Reader.overdeclared = .ok 5 _ := rfl
  ⟨_, hlength, merge_staysWithin .consoleMessage {} hlength⟩

/-- A submessage that is read from a longer input, inside of any spans that contain it, is merged as if its bytes were all there is: to the same value, with the same notices and with the same error. Without an error, the reader stands behind the span. -/
theorem MessageType.merge_payload (type : MessageType) (value : type.Value) {span following : Bytes}
    {reader : Reader} (hlength : span.length < 0x100000000)
    (hwilling : reader.source.supply.Willing)
    (hrest : reader.source.rest = Delimited.payload span ++ following)
    (hspans : ∀ left ∈ reader.spans, (Delimited.payload span).length ≤ left) :
    (Delimited.merge type.format.merge value reader).value =
        (type.format.merge value (.ofBytes span)).value ∧
      (Delimited.merge type.format.merge value reader).notices =
        (type.format.merge value (.ofBytes span)).notices ∧
      (Delimited.merge type.format.merge value reader).error =
        (type.format.merge value (.ofBytes span)).error ∧
      ((Delimited.merge type.format.merge value reader).error = none →
        (Delimited.merge type.format.merge value reader).reader.source.rest = following ∧
        reader.Advanced (Delimited.payload span).length
          (Delimited.merge type.format.merge value reader).reader) := by
  have hoffers : reader.Offers (Delimited.payload span) :=
    ⟨hwilling, hrest ▸ List.prefix_append _ following, hspans⟩
  obtain ⟨behind, hread, hbehind⟩ :=
    Varint.yields_readLength hlength reader hoffers.of_append_left
  have hmerge : Delimited.merge type.format.merge value reader =
      Delimited.mergeSpan type.format.merge span.length value behind := by
    rw [Delimited.merge, hread]
  have halike := Delimited.alike_mergeSpan_ofBytes (type.format.follows_merge .window value)
    (hoffers.advance hbehind)
  rw [hmerge]
  refine ⟨halike.value, halike.notices, halike.error_eq, fun hnone => ?_⟩
  have hspan := Delimited.advanced_of_mergeSpan (type.format.moves_merge value) hnone
  have hadvanced : reader.Advanced (Delimited.payload span).length
      (Delimited.mergeSpan type.format.merge span.length value behind).reader := by
    rw [Delimited.payload, List.length_append]
    exact hbehind.trans hspan
  refine ⟨?_, hadvanced⟩
  rw [hadvanced.rest, hrest, List.drop_left]

/-- A span with other bytes behind it, inside of two others; the field in it declares more than it has left. -/
def Reader.enclosed : Reader where
  source := .ofBytes [0x03, 0x2a, 0x7f, 0x0a, 0x01, 0x02]
  spans := [5, 9]

theorem MessageType.merge_payload_enclosed : Reader.enclosed.source.rest =
      Delimited.payload [0x2a, 0x7f, 0x0a] ++ [0x01, 0x02] ∧
    (∀ left ∈ Reader.enclosed.spans, (Delimited.payload [0x2a, 0x7f, 0x0a]).length ≤ left) ∧
    (Delimited.merge consoleMessage.format.merge {} Reader.enclosed).value =
        (consoleMessage.format.merge {} (.ofBytes [0x2a, 0x7f, 0x0a])).value ∧
      (Delimited.merge consoleMessage.format.merge {} Reader.enclosed).notices =
        (consoleMessage.format.merge {} (.ofBytes [0x2a, 0x7f, 0x0a])).notices ∧
      (Delimited.merge consoleMessage.format.merge {} Reader.enclosed).error =
        (consoleMessage.format.merge {} (.ofBytes [0x2a, 0x7f, 0x0a])).error ∧
      ((Delimited.merge consoleMessage.format.merge {} Reader.enclosed).error = none →
        (Delimited.merge consoleMessage.format.merge {} Reader.enclosed).reader.source.rest =
          [0x01, 0x02] ∧
        Reader.enclosed.Advanced (Delimited.payload [0x2a, 0x7f, 0x0a]).length
          (Delimited.merge consoleMessage.format.merge {} Reader.enclosed).reader) :=
  have hrest : Reader.enclosed.source.rest =
    Delimited.payload [0x2a, 0x7f, 0x0a] ++ [0x01, 0x02] := rfl
  have hspans : ∀ left ∈ Reader.enclosed.spans,
    (Delimited.payload [0x2a, 0x7f, 0x0a]).length ≤ left := by decide
  ⟨hrest, hspans, merge_payload .consoleMessage {} (by decide) trivial hrest hspans⟩

end EngineConsole
