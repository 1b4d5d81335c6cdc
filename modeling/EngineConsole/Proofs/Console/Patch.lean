import EngineConsole.Proofs.Console.Overlay
import EngineConsole.Proofs.Message.Places

/-!
# Patches of a configuration

A host sends a partial configuration to change a few settings. Settings have explicit presence, so a zero is sent like any other value and takes effect. The parameters of a conversion, of a fault and of a window are the exception: within their section they have implicit presence, so a zero among them is not sent, and the section then keeps the value it had.
-/

namespace EngineConsole

/-- The sections whose values have implicit presence. -/
def Configuration.implicitSections : List String :=
  ["linear_config", "const_config", "thermistor_config", "fault_config", "window_config"]

/-- A patch without elements in its lists is merged into any configuration, to its last byte. At every place of the tree the result has what the patch says there, if it says something, and else what was there before; only in five kinds of section does a zero say nothing. The places tell the whole configuration. -/
theorem Configuration.merge_patch {base patch : Configuration}
    (hbase : Configuration.format.within base = true)
    (hpatch : Configuration.format.within patch = true)
    (hbarren : Configuration.format.barren patch = true) :
    ∃ result after,
      Configuration.format.merge base (.ofBytes (Configuration.format.bytes patch)) =
        { value := result, reader := after, notices := [], error := none } ∧
      after.unread = 0 ∧
      (∀ place ∈ Configuration.format.places, place.Patched base patch result) ∧
      (∀ place ∈ Configuration.format.places, place.presence.isImplicit = true →
        ∃ name ∈ implicitSections, name ∈ place.path.dropLast) ∧
      ∀ other, (∀ place ∈ Configuration.format.places, place.Agree other result) →
        other = result := by
  have hfits := Configuration.format.fits_of_barren base patch hbase hbarren
  obtain ⟨after, hmerge, hunread⟩ :=
    Format.merge_bytes_of_fits MessageType.configuration.wellFormed_format hbase hpatch hfits
  exact ⟨Configuration.format.overlay base patch, after, hmerge, hunread,
    Configuration.format.patched_overlay base patch hbarren, by decide +kernel,
    fun other => Configuration.format.eq_of_agree other _⟩

def Configuration.scaled : Configuration where
  sensors := some { map := some { linearConfig := some { outputMin := ⟨0x3f800000⟩ } } }

/-- Sets a pin to zero, and the start of a scale as well, which is not sent. -/
def Configuration.zeroing : Configuration where
  sensors := some { map := some { pin := some 0, linearConfig := some {} } }

theorem Configuration.merge_patch_zeroing :
    Configuration.format.within scaled = true ∧ Configuration.format.within zeroing = true ∧
    Configuration.format.barren zeroing = true ∧
    ∃ result after,
      Configuration.format.merge scaled (.ofBytes (Configuration.format.bytes zeroing)) =
        { value := result, reader := after, notices := [], error := none } ∧
      after.unread = 0 ∧
      (∀ place ∈ Configuration.format.places, place.Patched scaled zeroing result) ∧
      (∀ place ∈ Configuration.format.places, place.presence.isImplicit = true →
        ∃ name ∈ implicitSections, name ∈ place.path.dropLast) ∧
      ∀ other, (∀ place ∈ Configuration.format.places, place.Agree other result) →
        other = result :=
  ⟨by decide, by decide, by decide, merge_patch (by decide) (by decide) (by decide)⟩

/-- The scale still starts at one when a patch has been merged that has zero there. -/
theorem Configuration.scale_kept :
    let start := fun configuration : Configuration =>
      ((configuration.sensors.bind (·.map)).bind (·.linearConfig)).map (·.outputMin)
    let merged := Configuration.format.merge scaled (.ofBytes (Configuration.format.bytes zeroing))
    Configuration.format.within scaled = true ∧ Configuration.format.within zeroing = true ∧
      Configuration.format.barren zeroing = true ∧ merged.error = none ∧
      start zeroing = some .zero ∧ start merged.value = some ⟨0x3f800000⟩ := by
  decide

end EngineConsole
