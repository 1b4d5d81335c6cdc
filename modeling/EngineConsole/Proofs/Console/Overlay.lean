import EngineConsole.Proofs.Console.Sizes
import EngineConsole.Proofs.Message.Overflow

/-!
# Patches on the console link

A message is changed by merging the encoding of another one, a patch, into it. What the patch sets replaces what was there, what it leaves out stays, and its lists follow those that are there already. The lists are limited, and that is the one thing on which such a merge can fail.
-/

namespace EngineConsole

namespace Format

variable {μ : Type} {format : Format μ}

theorem merge_bytes_of_fits (hformed : format.wellFormed = true) {base patch : μ}
    (hbase : format.within base = true) (hpatch : format.within patch = true)
    (hfits : format.fits base patch = true) :
    ∃ after, format.merge base (.ofBytes (format.bytes patch)) =
        { value := format.overlay base patch, reader := after } ∧ after.unread = 0 := by
  have hroom := (format.within_overlay base patch hbase hpatch).trans hfits
  have hmerge := format.completes_frames hformed base patch hpatch hroom
  rw [format.bytesAll_frames] at hmerge
  obtain ⟨after, hafter, hadvanced⟩ :=
    hmerge (.ofBytes (format.bytes patch)) (Reader.offers_ofBytes _) (Reader.ends_ofBytes _)
  refine ⟨after, hafter, ?_⟩
  have hunread : after.unread + (format.bytes patch).length = (format.bytes patch).length :=
    hadvanced.unread
  omega

theorem error_merge_bytes (hformed : format.wellFormed = true) {base patch : μ}
    (hbase : format.within base = true) (hpatch : format.within patch = true)
    (hfits : format.fits base patch = false) :
    ∃ number capacity, (format.merge base (.ofBytes (format.bytes patch))).error =
      some (.capacityExceeded number capacity) := by
  have hmerge := format.overflows_frames hformed base patch hbase hpatch hfits
  rw [format.bytesAll_frames] at hmerge
  obtain ⟨_, herror, number, capacity, rfl⟩ :=
    hmerge (.ofBytes (format.bytes patch)) (Reader.offers_ofBytes _)
  exact ⟨number, capacity, herror⟩

end Format

namespace MessageType

/-- Merging the encoding of a patch lays the patch over the message and takes every byte of it, provided that each list that it extends has room; otherwise the merge fails for want of capacity. The messages that occur in lists hold no number of implicit presence, so laid over the default they are what they are, and a list is extended by the elements of the patch themselves. -/
theorem merge_bytes (type : MessageType) {base patch : type.Value}
    (hbase : type.format.within base = true) (hpatch : type.format.within patch = true) :
    (type.format.fits base patch = true →
      ∃ after, type.format.merge base (.ofBytes (type.format.bytes patch)) =
          { value := type.format.overlay base patch, reader := after, notices := [],
            error := none } ∧
        after.unread = 0) ∧
    (type.format.fits base patch = false →
      ∃ number capacity, (type.format.merge base (.ofBytes (type.format.bytes patch))).error =
        some (.capacityExceeded number capacity)) ∧
    (∀ row, TableRow.format.overlay TableRow.format.default row = row) ∧
    (∀ output, Output.format.overlay Output.format.default output = output) ∧
    ∀ input, TriggerInput.format.overlay TriggerInput.format.default input = input := by
  have hformed := type.wellFormed_format
  refine ⟨Format.merge_bytes_of_fits hformed hbase hpatch,
    Format.error_merge_bytes hformed hbase hpatch, fun row => ?_, fun output => ?_, fun input => ?_⟩
  · rw [Format.overlay_default]
    rfl
  · rw [Format.overlay_default]
    rfl
  · rw [Format.overlay_default]
    rfl

/-- A message laid over itself has twice the rows; two rows of thirteen values are more than one row holds. -/
theorem merge_bytes_deep : consoleMessage.format.within ConsoleMessage.deep = true ∧
    consoleMessage.format.fits ConsoleMessage.deep ConsoleMessage.deep = true ∧
    (∃ after, consoleMessage.format.merge ConsoleMessage.deep
        (.ofBytes (consoleMessage.format.bytes ConsoleMessage.deep)) =
          { value := consoleMessage.format.overlay ConsoleMessage.deep ConsoleMessage.deep,
            reader := after, notices := [], error := none } ∧
        after.unread = 0) ∧
    tableRow.format.within { values := List.replicate 13 .zero } = true ∧
    tableRow.format.fits { values := List.replicate 13 .zero }
      { values := List.replicate 13 .zero } = false ∧
    ∃ number capacity, (tableRow.format.merge { values := List.replicate 13 .zero }
      (.ofBytes (tableRow.format.bytes { values := List.replicate 13 .zero }))).error =
        some (.capacityExceeded number capacity) :=
  ⟨by decide, by decide, (merge_bytes .consoleMessage (by decide) (by decide)).1 (by decide),
    by decide, by decide, (merge_bytes .tableRow (by decide) (by decide)).2.1 (by decide)⟩

end MessageType

end EngineConsole
