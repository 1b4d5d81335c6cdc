import EngineConsole.Message.Format

/-!
# Sensor settings

How each sensor is read and how its reading is converted. Settings have explicit presence, so that a patch can carry a few of them; the parameters of a conversion are sent together and have implicit presence.
-/

namespace EngineConsole

/-! ### Conversions -/

/-- Converts linearly between two ranges. -/
structure LinearConfig where
  outputMin : Single := .zero
  outputMax : Single := .zero
  inputMin : Single := .zero
  inputMax : Single := .zero
deriving DecidableEq, Repr, Inhabited

def LinearConfig.format : Format LinearConfig :=
  .record "LinearConfig"
    (.scalar 1 "output_min" .float <|
     .scalar 2 "output_max" .float <|
     .scalar 3 "input_min" .float <|
     .scalar 4 "input_max" .float <|
     .nil)
    (fun config => (config.outputMin, config.outputMax, config.inputMin, config.inputMax, ()))
    (fun (outputMin, outputMax, inputMin, inputMax, _) =>
      { outputMin, outputMax, inputMin, inputMax })
    (fun _ => rfl) (fun _ => rfl)

/-- Replaces the reading by a constant. -/
structure ConstConfig where
  fixedValue : Single := .zero
deriving DecidableEq, Repr, Inhabited

def ConstConfig.format : Format ConstConfig :=
  .record "ConstConfig"
    (.scalar 1 "fixed_value" .float .nil)
    (fun config => (config.fixedValue, ()))
    (fun (fixedValue, _) => { fixedValue })
    (fun _ => rfl) (fun _ => rfl)

/-- Converts a resistance by the three coefficients of a thermistor and its bias resistor. -/
structure ThermistorConfig where
  a : Single := .zero
  b : Single := .zero
  c : Single := .zero
  bias : Single := .zero
deriving DecidableEq, Repr, Inhabited

def ThermistorConfig.format : Format ThermistorConfig :=
  .record "ThermistorConfig"
    (.scalar 1 "a" .float <|
     .scalar 2 "b" .float <|
     .scalar 3 "c" .float <|
     .scalar 4 "bias" .float <|
     .nil)
    (fun config => (config.a, config.b, config.c, config.bias, ()))
    (fun (a, b, c, bias, _) => { a, b, c, bias })
    (fun _ => rfl) (fun _ => rfl)

/-- The range outside which a reading is a fault, and the value to use then. -/
structure FaultConfig where
  min : Single := .zero
  max : Single := .zero
  value : Single := .zero
deriving DecidableEq, Repr, Inhabited

def FaultConfig.format : Format FaultConfig :=
  .record "FaultConfig"
    (.scalar 1 "min" .float <|
     .scalar 2 "max" .float <|
     .scalar 3 "value" .float <|
     .nil)
    (fun config => (config.min, config.max, config.value, ()))
    (fun (min, max, value, _) => { min, max, value })
    (fun _ => rfl) (fun _ => rfl)

/-- The part of the cycle in which a sensor is read. -/
structure WindowConfig where
  captureWidth : Single := .zero
  totalWidth : Single := .zero
  offset : Single := .zero
deriving DecidableEq, Repr, Inhabited

def WindowConfig.format : Format WindowConfig :=
  .record "WindowConfig"
    (.scalar 1 "capture_width" .float <|
     .scalar 2 "total_width" .float <|
     .scalar 3 "offset" .float <|
     .nil)
    (fun config => (config.captureWidth, config.totalWidth, config.offset, ()))
    (fun (captureWidth, totalWidth, offset, _) => { captureWidth, totalWidth, offset })
    (fun _ => rfl) (fun _ => rfl)

/-! ### Sensors -/

/-- Where a reading comes from. -/
inductive SensorSource where
  | none
  | adc
  | freq
  | pulseWidth
  | const
deriving DecidableEq, Repr, Inhabited

def SensorSource.enumeration : Enumeration SensorSource where
  name := "SensorSource"
  first := .none
  others := [.adc, .freq, .pulseWidth, .const]
  label
    | .none => "None"
    | .adc => "Adc"
    | .freq => "Freq"
    | .pulseWidth => "PulseWidth"
    | .const => "Const"
  number
    | .none => 0
    | .adc => 1
    | .freq => 2
    | .pulseWidth => 3
    | .const => 4
  numbered := rfl
  complete variant := by cases variant <;> decide

/-- How a reading is converted. -/
inductive SensorMethod where
  | linear
  | linearWindowed
  | thermistor
deriving DecidableEq, Repr, Inhabited

def SensorMethod.enumeration : Enumeration SensorMethod where
  name := "SensorMethod"
  first := .linear
  others := [.linearWindowed, .thermistor]
  label
    | .linear => "Linear"
    | .linearWindowed => "LinearWindowed"
    | .thermistor => "Thermistor"
  number
    | .linear => 0
    | .linearWindowed => 1
    | .thermistor => 2
  numbered := rfl
  complete variant := by cases variant <;> decide

structure Sensor where
  source : Option SensorSource := none
  method : Option SensorMethod := none
  pin : Option UInt32 := none
  lag : Option Single := none
  linearConfig : Option LinearConfig := none
  constConfig : Option ConstConfig := none
  thermistorConfig : Option ThermistorConfig := none
  faultConfig : Option FaultConfig := none
  windowConfig : Option WindowConfig := none
deriving DecidableEq, Repr, Inhabited

def Sensor.format : Format Sensor :=
  .record "Sensor"
    (.optional 1 "source" (.enum SensorSource.enumeration) <|
     .optional 2 "method" (.enum SensorMethod.enumeration) <|
     .optional 3 "pin" .uint32 <|
     .optional 4 "lag" .float <|
     .message 5 "linear_config" LinearConfig.format <|
     .message 6 "const_config" ConstConfig.format <|
     .message 7 "thermistor_config" ThermistorConfig.format <|
     .message 8 "fault_config" FaultConfig.format <|
     .message 9 "window_config" WindowConfig.format <|
     .nil)
    (fun s => (s.source, s.method, s.pin, s.lag, s.linearConfig, s.constConfig,
      s.thermistorConfig, s.faultConfig, s.windowConfig, ()))
    (fun (source, method, pin, lag, linearConfig, constConfig,
        thermistorConfig, faultConfig, windowConfig, _) =>
      { source, method, pin, lag, linearConfig, constConfig,
        thermistorConfig, faultConfig, windowConfig })
    (fun _ => rfl) (fun _ => rfl)

structure KnockSensor where
  enabled : Option Bool := none
  frequency : Option Single := none
  threshold : Option Single := none
deriving DecidableEq, Repr, Inhabited

def KnockSensor.format : Format KnockSensor :=
  .record "KnockSensor"
    (.optional 1 "enabled" .bool <|
     .optional 2 "frequency" .float <|
     .optional 3 "threshold" .float <|
     .nil)
    (fun sensor => (sensor.enabled, sensor.frequency, sensor.threshold, ()))
    (fun (enabled, frequency, threshold, _) => { enabled, frequency, threshold })
    (fun _ => rfl) (fun _ => rfl)

structure SensorInputs where
  aap : Option Sensor := none
  brv : Option Sensor := none
  clt : Option Sensor := none
  ego : Option Sensor := none
  frt : Option Sensor := none
  iat : Option Sensor := none
  map : Option Sensor := none
  tps : Option Sensor := none
  frp : Option Sensor := none
  eth : Option Sensor := none
  knock1 : Option KnockSensor := none
  knock2 : Option KnockSensor := none
deriving DecidableEq, Repr, Inhabited

def SensorInputs.format : Format SensorInputs :=
  .record "SensorInputs"
    (.message 1 "aap" Sensor.format <|
     .message 2 "brv" Sensor.format <|
     .message 3 "clt" Sensor.format <|
     .message 4 "ego" Sensor.format <|
     .message 5 "frt" Sensor.format <|
     .message 6 "iat" Sensor.format <|
     .message 7 "map" Sensor.format <|
     .message 8 "tps" Sensor.format <|
     .message 9 "frp" Sensor.format <|
     .message 10 "eth" Sensor.format <|
     .message 14 "knock1" KnockSensor.format <|
     .message 15 "knock2" KnockSensor.format <|
     .nil)
    (fun s => (s.aap, s.brv, s.clt, s.ego, s.frt, s.iat, s.map, s.tps, s.frp, s.eth,
      s.knock1, s.knock2, ()))
    (fun (aap, brv, clt, ego, frt, iat, map, tps, frp, eth, knock1, knock2, _) =>
      { aap, brv, clt, ego, frt, iat, map, tps, frp, eth, knock1, knock2 })
    (fun _ => rfl) (fun _ => rfl)

end EngineConsole
