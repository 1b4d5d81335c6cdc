import EngineConsole.Proofs.Bytes.Uptake
import EngineConsole.Proofs.Message.Frames

/-!
# Sizes on the console link

Buffers are sized before a message is known, and lengths are declared before their content is written. Both rely on the sizes: that of a message has to count what its encoding writes, and the largest size of a type has to bound the sizes of its messages, in no more than 32 bits. It does, and it is no larger than it has to be.
-/

namespace EngineConsole

/-- A deep message: the values of a table stand seven messages down, and on the way there are values that are present without saying anything. -/
def ConsoleMessage.deep : ConsoleMessage where
  kind := some <| .response {
    kind := some <| .setConfig {
      success := some false
      config := some {
        sensors := some { map := some { linearConfig := some { outputMin := ⟨0x80000000⟩ } } }
        fueling := some {
          fuelPumpPin := some 0
          cylinderCc := some ⟨0x80000000⟩
          ve := some {
            name := some ""
            cols := some {}
            data := [{ values := [⟨0x80000000⟩, ⟨0x7fc00001⟩] }, {}] } } } } }

namespace MessageType

theorem length_lt_of_mem_lengthsAll (type : MessageType) {message : type.Value} {length : Nat}
    (hwithin : type.format.within message = true)
    (hlength : length ∈ Frame.lengthsAll (type.format.frames message)) : length < 0x100000000 := by
  have hformed := type.wellFormed_format
  have hexact := type.format.exactAll_frames hformed message
  -- an exact length counts bytes of the message itself
  have hheld := Frame.le_length_bytesAll_of_mem_lengthsAll _ hexact hlength
  rw [type.format.length_bytesAll_frames hformed] at hheld
  have hsize := type.format.size_le_maxSize hformed hwithin
  have hmax := type.maxSize_lt
  omega

/-! ### The size is exact -/

/-- A sink with room for the size of a message takes all of its chunks, and a sink that takes them takes as many bytes as that size. They are those of the frames of the message, and at every depth the length that is written is the number of bytes that follow it in the frame. -/
theorem writeTo_exact (type : MessageType) {message : type.Value}
    (hwithin : type.format.within message = true) :
    (∀ sink : Sink, sink.Accepts (type.format.size message) →
      ∃ after, type.format.writeTo message sink = .ok () after) ∧
    (∀ sink after, type.format.writeTo message sink = .ok () after →
      after.total = sink.total + type.format.size message) ∧
    type.format.bytes message = Frame.bytesAll (type.format.frames message) ∧
    Frame.ExactAll (type.format.frames message) ∧
    ∀ length ∈ Frame.lengthsAll (type.format.frames message),
      (UInt32.ofNat length).toNat = length := by
  have hformed := type.wellFormed_format
  have hsize : (type.format.encode message).flatten.length = type.format.size message :=
    type.format.length_bytes hformed message
  refine ⟨fun sink haccepts => ?_, fun sink after hwrite => ?_,
    (type.format.bytesAll_frames message).symm, type.format.exactAll_frames hformed message,
    fun length hlength => ?_⟩
  · rw [← hsize] at haccepts
    exact Sink.writeAll_of_accepts haccepts
  · rw [Sink.total_of_writeAll hwrite, hsize]
  · exact UInt32.toNat_ofNat_of_lt' (type.length_lt_of_mem_lengthsAll hwithin hlength)

theorem writeTo_exact_deep : consoleMessage.format.within ConsoleMessage.deep = true ∧
    (∀ sink : Sink, sink.Accepts (consoleMessage.format.size ConsoleMessage.deep) →
      ∃ after, consoleMessage.format.writeTo ConsoleMessage.deep sink = .ok () after) ∧
    (∀ sink after, consoleMessage.format.writeTo ConsoleMessage.deep sink = .ok () after →
      after.total = sink.total + consoleMessage.format.size ConsoleMessage.deep) ∧
    consoleMessage.format.bytes ConsoleMessage.deep =
      Frame.bytesAll (consoleMessage.format.frames ConsoleMessage.deep) ∧
    Frame.ExactAll (consoleMessage.format.frames ConsoleMessage.deep) ∧
    ∀ length ∈ Frame.lengthsAll (consoleMessage.format.frames ConsoleMessage.deep),
      (UInt32.ofNat length).toNat = length :=
  ⟨by decide, writeTo_exact .consoleMessage (by decide)⟩

/-! ### The largest size is attained -/

/-- The largest size of a type is the greatest among the sizes of its messages, and no length that is declared inside them is cut off to 32 bits. -/
theorem maxSize_greatest (type : MessageType) :
    (∀ message, type.format.within message = true →
      type.format.size message ≤ type.format.maxSize) ∧
    (∃ message, type.format.within message = true ∧
      type.format.size message = type.format.maxSize) ∧
    ∀ message, type.format.within message = true →
      type.format.bytes message = Frame.bytesAll (type.format.frames message) ∧
      ∀ length ∈ Frame.lengthsAll (type.format.frames message),
        (UInt32.ofNat length).toNat = length := by
  have hformed := type.wellFormed_format
  refine ⟨fun message hwithin => type.format.size_le_maxSize hformed hwithin,
    ⟨type.format.fullest, type.format.within_fullest, type.format.size_fullest hformed⟩,
    fun message hwithin => ⟨(type.format.bytesAll_frames message).symm, fun length hlength => ?_⟩⟩
  exact UInt32.toNat_ofNat_of_lt' (type.length_lt_of_mem_lengthsAll hwithin hlength)

theorem maxSize_greatest_deep : consoleMessage.format.within ConsoleMessage.deep = true ∧
    consoleMessage.format.size ConsoleMessage.deep ≤ consoleMessage.format.maxSize ∧
    ∀ length ∈ Frame.lengthsAll (consoleMessage.format.frames ConsoleMessage.deep),
      (UInt32.ofNat length).toNat = length :=
  ⟨by decide, (maxSize_greatest .consoleMessage).1 ConsoleMessage.deep (by decide),
    ((maxSize_greatest .consoleMessage).2.2 ConsoleMessage.deep (by decide)).2⟩

/-- The largest size of each type. -/
example : sizes =
    [("Header", 10), ("Sensors", 150), ("Position", 31), ("Calculations", 63), ("Event", 18),
      ("EngineUpdate", 263), ("TableRow", 98), ("TableAxis", 124), ("Table1d", 252),
      ("Table2d", 2678), ("Output", 15), ("LinearConfig", 20), ("ConstConfig", 5),
      ("ThermistorConfig", 20), ("FaultConfig", 15), ("WindowConfig", 15), ("Sensor", 100),
      ("KnockSensor", 12), ("SensorInputs", 1048), ("Decoder", 28), ("TriggerInput", 4),
      ("CrankEnrichment", 15), ("Fueling", 11551), ("Ignition", 2948), ("BoostControl", 281),
      ("CheckEngineLight", 16), ("RpmCut", 10), ("DebugOptions", 7), ("Configuration", 16205),
      ("SetConfigRequest", 16208), ("Request", 16217), ("FirmwareInfo", 16488),
      ("SetConfigResponse", 16212), ("GetConfigResponse", 16210), ("FlashConfigResponse", 2),
      ("Response", 16498), ("ConsoleMessage", 16502)] := by
  decide +kernel

end MessageType

end EngineConsole
