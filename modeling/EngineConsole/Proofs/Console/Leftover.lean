import EngineConsole.Console.Catalogue
import EngineConsole.Proofs.Message.Leftover

/-!
# Console messages that are not read to the end

A message of the console link that was merged without a failure may have bytes behind it that were never looked at, and so may a message inside. There is only one reason for that: a tag of five bytes, all of which announce another one.
-/

namespace EngineConsole

/-- Whatever the message type, the value and the data: a merge that succeeds has read all of the data or has stopped right behind five bytes that all announce another one, and the same holds of every submessage in its span when its own merge ends. The message without fields never fails, so this holds of it for all data. -/
theorem MessageType.merge_thorough :
    (∀ (type : MessageType) (value : type.Value) (data : Bytes),
      (type.format.merge value (.ofBytes data)).error = none → type.format.Thorough value data) ∧
    ∀ data, (emptyFormat.merge () (.ofBytes data)).error = none ∧ emptyFormat.Thorough () data := by
  refine ⟨fun type value data h => Format.thorough_of_succeeds h, fun data => ?_⟩
  have hempty := error_merge_emptyFormat (.ofBytes data)
  exact ⟨hempty, Format.thorough_of_succeeds hempty⟩

/-- A request whose configuration ends at an endless tag, three bytes before its span does, and that ends at another one itself, one byte before the data does. -/
def Request.endlessTags : Bytes :=
  [0x08, 0x05, 0x22, 0x08, 0x80, 0x80, 0x80, 0x80, 0xff, 0x01, 0x02, 0x03,
    0x80, 0x80, 0x80, 0x80, 0x80, 0x07]

theorem Request.submessage_endlessTags :
    ∃ opened, .submessage opened ∈ format.encounters { id := 9, kind := some .getConfig }
      (.ofBytes endlessTags) ∧ opened.inside.reader.spanLeft = 3 := by
  have hidentifier : (Tag.read (.ofBytes endlessTags)).1 = some ⟨1, .varint⟩ := by decide +kernel
  let identifier := format.mergeRecord ⟨1, .varint⟩ { id := 9, kind := some .getConfig }
    (Tag.read (.ofBytes endlessTags)).2
  have hidentified : identifier.error = none := by decide +kernel
  have hkind : (Tag.read identifier.reader).1 = some ⟨4, .delimited⟩ := by decide +kernel
  have hspan : (format.opens ⟨4, .delimited⟩ identifier.value (Tag.read identifier.reader).2).map
      (fun opened => opened.inside.reader.spanLeft) = some 3 := by decide +kernel
  obtain ⟨opened, hopens, hleft⟩ := Option.map_eq_some_iff.mp hspan
  refine ⟨opened, ?_, hleft⟩
  apply (Format.mem_encounters_iff (Prod.ext hidentifier rfl)).mpr
  refine .inr ⟨hidentified, ?_⟩
  apply (Format.mem_encounters_iff (Prod.ext hkind rfl)).mpr
  exact .inl ⟨opened, hopens, List.mem_cons_self⟩

theorem MessageType.merge_thorough_request :
    (request.format.merge { id := 9, kind := some .getConfig }
      (.ofBytes Request.endlessTags)).reader.unread = 1 ∧
    (∃ opened, .submessage opened ∈ request.format.encounters { id := 9, kind := some .getConfig }
      (.ofBytes Request.endlessTags) ∧ opened.inside.reader.spanLeft = 3) ∧
    request.format.Thorough { id := 9, kind := some .getConfig } Request.endlessTags :=
  ⟨by decide +kernel, Request.submessage_endlessTags,
    merge_thorough.1 request _ _ (by decide +kernel)⟩

end EngineConsole
