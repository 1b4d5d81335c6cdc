import EngineConsole.Console.Table

/-!
# Crank timing

The inputs from which the position of the crank is decoded, the outputs that fire at a crank angle, and the ignition.
-/

namespace EngineConsole

/-! ### Decoding the position -/

/-- The pattern of teeth that the decoder expects. -/
inductive TriggerType where
  | disabled
  | evenTeeth
  | evenTeethPlusCamsync
  | missingTooth
  | missingToothPlusCamsync
deriving DecidableEq, Repr, Inhabited

def TriggerType.enumeration : Enumeration TriggerType where
  name := "TriggerType"
  first := .disabled
  others := [.evenTeeth, .evenTeethPlusCamsync, .missingTooth, .missingToothPlusCamsync]
  label
    | .disabled => "Disabled"
    | .evenTeeth => "EvenTeeth"
    | .evenTeethPlusCamsync => "EvenTeethPlusCamsync"
    | .missingTooth => "MissingTooth"
    | .missingToothPlusCamsync => "MissingToothPlusCamsync"
  number
    | .disabled => 0
    | .evenTeeth => 1
    | .evenTeethPlusCamsync => 2
    | .missingTooth => 3
    | .missingToothPlusCamsync => 4
  numbered := rfl
  complete variant := by cases variant <;> decide

structure Decoder where
  triggerType : Option TriggerType := none
  degreesPerTrigger : Option Single := none
  maxToothVariance : Option Single := none
  minRpm : Option Single := none
  numTriggers : Option UInt32 := none
  offset : Option Single := none
deriving DecidableEq, Repr, Inhabited

def Decoder.format : Format Decoder :=
  .record "Decoder"
    (.optional 1 "trigger_type" (.enum TriggerType.enumeration) <|
     .optional 2 "degrees_per_trigger" .float <|
     .optional 3 "max_tooth_variance" .float <|
     .optional 4 "min_rpm" .float <|
     .optional 5 "num_triggers" .uint32 <|
     .optional 6 "offset" .float <|
     .nil)
    (fun d => (d.triggerType, d.degreesPerTrigger, d.maxToothVariance, d.minRpm,
      d.numTriggers, d.offset, ()))
    (fun (triggerType, degreesPerTrigger, maxToothVariance, minRpm, numTriggers, offset, _) =>
      { triggerType, degreesPerTrigger, maxToothVariance, minRpm, numTriggers, offset })
    (fun _ => rfl) (fun _ => rfl)

/-- The edge on which an input fires. -/
inductive InputEdge where
  | rising
  | falling
  | both
deriving DecidableEq, Repr, Inhabited

def InputEdge.enumeration : Enumeration InputEdge where
  name := "InputEdge"
  first := .rising
  others := [.falling, .both]
  label
    | .rising => "Rising"
    | .falling => "Falling"
    | .both => "Both"
  number
    | .rising => 0
    | .falling => 1
    | .both => 2
  numbered := rfl
  complete variant := by cases variant <;> decide

inductive InputType where
  | disabled
  | trigger
  | sync
  | freq
deriving DecidableEq, Repr, Inhabited

def InputType.enumeration : Enumeration InputType where
  name := "InputType"
  first := .disabled
  others := [.trigger, .sync, .freq]
  label
    | .disabled => "Disabled"
    | .trigger => "Trigger"
    | .sync => "Sync"
    | .freq => "Freq"
  number
    | .disabled => 0
    | .trigger => 1
    | .sync => 2
    | .freq => 3
  numbered := rfl
  complete variant := by cases variant <;> decide

structure TriggerInput where
  edge : Option InputEdge := none
  inputType : Option InputType := none
deriving DecidableEq, Repr, Inhabited

def TriggerInput.format : Format TriggerInput :=
  .record "TriggerInput"
    (.optional 1 "edge" (.enum InputEdge.enumeration) <|
     .optional 2 "input_type" (.enum InputType.enumeration) <|
     .nil)
    (fun input => (input.edge, input.inputType, ()))
    (fun (edge, inputType, _) => { edge, inputType })
    (fun _ => rfl) (fun _ => rfl)

/-! ### Outputs -/

inductive OutputType where
  | disabled
  | fuel
  | ignition
deriving DecidableEq, Repr, Inhabited

def OutputType.enumeration : Enumeration OutputType where
  name := "OutputType"
  first := .disabled
  others := [.fuel, .ignition]
  label
    | .disabled => "Disabled"
    | .fuel => "Fuel"
    | .ignition => "Ignition"
  number
    | .disabled => 0
    | .fuel => 1
    | .ignition => 2
  numbered := rfl
  complete variant := by cases variant <;> decide

structure Output where
  pin : Option UInt32 := none
  outputType : Option OutputType := none
  inverted : Option Bool := none
  angle : Option Single := none
deriving DecidableEq, Repr, Inhabited

def Output.format : Format Output :=
  .record "Output"
    (.optional 1 "pin" .uint32 <|
     .optional 2 "output_type" (.enum OutputType.enumeration) <|
     .optional 3 "inverted" .bool <|
     .optional 4 "angle" .float <|
     .nil)
    (fun output => (output.pin, output.outputType, output.inverted, output.angle, ()))
    (fun (pin, outputType, inverted, angle, _) => { pin, outputType, inverted, angle })
    (fun _ => rfl) (fun _ => rfl)

/-! ### Ignition -/

/-- How long a coil is charged. -/
inductive DwellType where
  | fixedDuty
  | fixedTime
  | brv
deriving DecidableEq, Repr, Inhabited

def DwellType.enumeration : Enumeration DwellType where
  name := "DwellType"
  first := .fixedDuty
  others := [.fixedTime, .brv]
  label
    | .fixedDuty => "FixedDuty"
    | .fixedTime => "FixedTime"
    | .brv => "Brv"
  number
    | .fixedDuty => 0
    | .fixedTime => 1
    | .brv => 2
  numbered := rfl
  complete variant := by cases variant <;> decide

structure Ignition where
  dwellType : Option DwellType := none
  fixedDwell : Option Single := none
  fixedDuty : Option Single := none
  dwell : Option Table1d := none
  timing : Option Table2d := none
deriving DecidableEq, Repr, Inhabited

def Ignition.format : Format Ignition :=
  .record "Ignition"
    (.optional 1 "dwell_type" (.enum DwellType.enumeration) <|
     .optional 2 "fixed_dwell" .float <|
     .optional 3 "fixed_duty" .float <|
     .message 4 "dwell" Table1d.format <|
     .message 5 "timing" Table2d.format <|
     .nil)
    (fun i => (i.dwellType, i.fixedDwell, i.fixedDuty, i.dwell, i.timing, ()))
    (fun (dwellType, fixedDwell, fixedDuty, dwell, timing, _) =>
      { dwellType, fixedDwell, fixedDuty, dwell, timing })
    (fun _ => rfl) (fun _ => rfl)

end EngineConsole
