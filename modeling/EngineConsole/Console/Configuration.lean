import EngineConsole.Console.Fueling
import EngineConsole.Console.Protection
import EngineConsole.Console.Sensor
import EngineConsole.Console.Timing

/-!
# Configuration

The settings of the whole engine. Presence is explicit throughout, so a configuration is also a patch: it changes the settings that it carries and no others.
-/

namespace EngineConsole

structure Configuration where
  outputs : List Output := []
  triggers : List TriggerInput := []
  sensors : Option SensorInputs := none
  ignition : Option Ignition := none
  fueling : Option Fueling := none
  decoder : Option Decoder := none
  rpmCut : Option RpmCut := none
  cel : Option CheckEngineLight := none
  boostControl : Option BoostControl := none
  debug : Option DebugOptions := none
deriving DecidableEq, Repr, Inhabited

namespace Configuration

def outputCapacity : Nat := 16

def triggerCapacity : Nat := 4

def format : Format Configuration :=
  .record "Configuration"
    (.messages 1 "outputs" outputCapacity Output.format <|
     .messages 2 "triggers" triggerCapacity TriggerInput.format <|
     .message 3 "sensors" SensorInputs.format <|
     .message 4 "ignition" Ignition.format <|
     .message 5 "fueling" Fueling.format <|
     .message 6 "decoder" Decoder.format <|
     .message 7 "rpm_cut" RpmCut.format <|
     .message 8 "cel" CheckEngineLight.format <|
     .message 9 "boost_control" BoostControl.format <|
     .message 10 "debug" DebugOptions.format <|
     .nil)
    (fun c => (c.outputs, c.triggers, c.sensors, c.ignition, c.fueling, c.decoder, c.rpmCut,
      c.cel, c.boostControl, c.debug, ()))
    (fun (outputs, triggers, sensors, ignition, fueling, decoder, rpmCut, cel, boostControl,
        debug, _) =>
      { outputs, triggers, sensors, ignition, fueling, decoder, rpmCut, cel, boostControl,
        debug })
    (fun _ => rfl) (fun _ => rfl)

end Configuration

end EngineConsole
