import EngineConsole.Message.Format

/-!
# Telemetry

What the engine reports while it runs: updates with the position of the crank, the readings of the sensors and the results of the calculations, and events. Telemetry has implicit presence: a value of zero is not sent.
-/

namespace EngineConsole

/-! ### Header -/

/-- Numbers a report and says when it was made. -/
structure Header where
  seq : UInt32 := 0
  timestamp : UInt32 := 0
deriving DecidableEq, Repr, Inhabited

def Header.format : Format Header :=
  .record "Header"
    (.scalar 1 "seq" .fixed32 <|
     .scalar 2 "timestamp" .fixed32 <|
     .nil)
    (fun header => (header.seq, header.timestamp, ()))
    (fun (seq, timestamp, _) => { seq, timestamp })
    (fun _ => rfl) (fun _ => rfl)

/-! ### Sensor readings -/

/-- What is wrong with a sensor. -/
inductive SensorFault where
  | noFault
  | rangeFault
  | connectionFault
deriving DecidableEq, Repr, Inhabited

def SensorFault.enumeration : Enumeration SensorFault where
  name := "SensorFault"
  first := .noFault
  others := [.rangeFault, .connectionFault]
  label
    | .noFault => "NoFault"
    | .rangeFault => "RangeFault"
    | .connectionFault => "ConnectionFault"
  number
    | .noFault => 0
    | .rangeFault => 1
    | .connectionFault => 2
  numbered := rfl
  complete variant := by cases variant <;> decide

/-- The readings of all sensors, with their faults and rates of change. -/
structure Sensors where
  map : Single := .zero
  iat : Single := .zero
  clt : Single := .zero
  brv : Single := .zero
  tps : Single := .zero
  aap : Single := .zero
  frt : Single := .zero
  ego : Single := .zero
  frp : Single := .zero
  eth : Single := .zero
  knock1 : Single := .zero
  knock2 : Single := .zero
  mapFault : SensorFault := .noFault
  iatFault : SensorFault := .noFault
  cltFault : SensorFault := .noFault
  brvFault : SensorFault := .noFault
  tpsFault : SensorFault := .noFault
  aapFault : SensorFault := .noFault
  frtFault : SensorFault := .noFault
  egoFault : SensorFault := .noFault
  frpFault : SensorFault := .noFault
  ethFault : SensorFault := .noFault
  mapRate : Single := .zero
  iatRate : Single := .zero
  cltRate : Single := .zero
  brvRate : Single := .zero
  tpsRate : Single := .zero
  aapRate : Single := .zero
  frtRate : Single := .zero
  egoRate : Single := .zero
  frpRate : Single := .zero
  ethRate : Single := .zero
deriving DecidableEq, Repr, Inhabited

def Sensors.format : Format Sensors :=
  .record "Sensors"
    (.scalar 1 "map" .float <|
     .scalar 2 "iat" .float <|
     .scalar 3 "clt" .float <|
     .scalar 4 "brv" .float <|
     .scalar 5 "tps" .float <|
     .scalar 6 "aap" .float <|
     .scalar 7 "frt" .float <|
     .scalar 8 "ego" .float <|
     .scalar 9 "frp" .float <|
     .scalar 10 "eth" .float <|
     .scalar 14 "knock1" .float <|
     .scalar 15 "knock2" .float <|
     .scalar 32 "map_fault" (.enum SensorFault.enumeration) <|
     .scalar 33 "iat_fault" (.enum SensorFault.enumeration) <|
     .scalar 34 "clt_fault" (.enum SensorFault.enumeration) <|
     .scalar 35 "brv_fault" (.enum SensorFault.enumeration) <|
     .scalar 36 "tps_fault" (.enum SensorFault.enumeration) <|
     .scalar 37 "aap_fault" (.enum SensorFault.enumeration) <|
     .scalar 38 "frt_fault" (.enum SensorFault.enumeration) <|
     .scalar 39 "ego_fault" (.enum SensorFault.enumeration) <|
     .scalar 40 "frp_fault" (.enum SensorFault.enumeration) <|
     .scalar 41 "eth_fault" (.enum SensorFault.enumeration) <|
     .scalar 64 "map_rate" .float <|
     .scalar 65 "iat_rate" .float <|
     .scalar 66 "clt_rate" .float <|
     .scalar 67 "brv_rate" .float <|
     .scalar 68 "tps_rate" .float <|
     .scalar 69 "aap_rate" .float <|
     .scalar 70 "frt_rate" .float <|
     .scalar 71 "ego_rate" .float <|
     .scalar 72 "frp_rate" .float <|
     .scalar 73 "eth_rate" .float <|
     .nil)
    (fun s => (s.map, s.iat, s.clt, s.brv, s.tps, s.aap, s.frt, s.ego, s.frp, s.eth,
      s.knock1, s.knock2,
      s.mapFault, s.iatFault, s.cltFault, s.brvFault, s.tpsFault, s.aapFault, s.frtFault,
      s.egoFault, s.frpFault, s.ethFault,
      s.mapRate, s.iatRate, s.cltRate, s.brvRate, s.tpsRate, s.aapRate, s.frtRate, s.egoRate,
      s.frpRate, s.ethRate, ()))
    (fun (map, iat, clt, brv, tps, aap, frt, ego, frp, eth, knock1, knock2,
        mapFault, iatFault, cltFault, brvFault, tpsFault, aapFault, frtFault,
        egoFault, frpFault, ethFault,
        mapRate, iatRate, cltRate, brvRate, tpsRate, aapRate, frtRate, egoRate,
        frpRate, ethRate, _) =>
      { map, iat, clt, brv, tps, aap, frt, ego, frp, eth, knock1, knock2,
        mapFault, iatFault, cltFault, brvFault, tpsFault, aapFault, frtFault,
        egoFault, frpFault, ethFault,
        mapRate, iatRate, cltRate, brvRate, tpsRate, aapRate, frtRate, egoRate,
        frpRate, ethRate })
    (fun _ => rfl) (fun _ => rfl)

/-! ### Position of the crank -/

/-- Why the decoder lost the position. -/
inductive DecoderLossReason where
  | noLoss
  | triggerToothVariation
  | triggerCountHigh
  | triggerCountLow
  | expired
  | overflowed
deriving DecidableEq, Repr, Inhabited

def DecoderLossReason.enumeration : Enumeration DecoderLossReason where
  name := "DecoderLossReason"
  first := .noLoss
  others := [.triggerToothVariation, .triggerCountHigh, .triggerCountLow, .expired, .overflowed]
  label
    | .noLoss => "NoLoss"
    | .triggerToothVariation => "TriggerToothVariation"
    | .triggerCountHigh => "TriggerCountHigh"
    | .triggerCountLow => "TriggerCountLow"
    | .expired => "Expired"
    | .overflowed => "Overflowed"
  number
    | .noLoss => 0
    | .triggerToothVariation => 1
    | .triggerCountHigh => 2
    | .triggerCountLow => 3
    | .expired => 4
    | .overflowed => 5
  numbered := rfl
  complete variant := by cases variant <;> decide

/-- Where the crank stands and how fast it turns. -/
structure Position where
  time : UInt32 := 0
  validBeforeTimestamp : UInt32 := 0
  hasPosition : Bool := false
  synced : Bool := false
  lossCause : DecoderLossReason := .noLoss
  lastAngle : Single := .zero
  instantaneousRpm : Single := .zero
  averageRpm : Single := .zero
deriving DecidableEq, Repr, Inhabited

def Position.format : Format Position :=
  .record "Position"
    (.scalar 1 "time" .fixed32 <|
     .scalar 2 "valid_before_timestamp" .fixed32 <|
     .scalar 3 "has_position" .bool <|
     .scalar 4 "synced" .bool <|
     .scalar 5 "loss_cause" (.enum DecoderLossReason.enumeration) <|
     .scalar 6 "last_angle" .float <|
     .scalar 7 "instantaneous_rpm" .float <|
     .scalar 8 "average_rpm" .float <|
     .nil)
    (fun p => (p.time, p.validBeforeTimestamp, p.hasPosition, p.synced, p.lossCause,
      p.lastAngle, p.instantaneousRpm, p.averageRpm, ()))
    (fun (time, validBeforeTimestamp, hasPosition, synced, lossCause,
        lastAngle, instantaneousRpm, averageRpm, _) =>
      { time, validBeforeTimestamp, hasPosition, synced, lossCause,
        lastAngle, instantaneousRpm, averageRpm })
    (fun _ => rfl) (fun _ => rfl)

/-! ### Results of the calculations -/

/-- What the engine controller derives from the readings. -/
structure Calculations where
  advance : Single := .zero
  dwellUs : Single := .zero
  fuelUs : Single := .zero
  airmassPerCycle : Single := .zero
  fuelvolPerCycle : Single := .zero
  tipinPercent : Single := .zero
  injectorDeadTime : Single := .zero
  pulseWidthCorrection : Single := .zero
  lambda : Single := .zero
  ve : Single := .zero
  engineTempEnrichment : Single := .zero
  rpmLimitCut : Bool := false
  boostCut : Bool := false
  fuelOverdutyCut : Bool := false
  dwellOverdutyCut : Bool := false
deriving DecidableEq, Repr, Inhabited

def Calculations.format : Format Calculations :=
  .record "Calculations"
    (.scalar 1 "advance" .float <|
     .scalar 2 "dwell_us" .float <|
     .scalar 3 "fuel_us" .float <|
     .scalar 4 "airmass_per_cycle" .float <|
     .scalar 5 "fuelvol_per_cycle" .float <|
     .scalar 6 "tipin_percent" .float <|
     .scalar 7 "injector_dead_time" .float <|
     .scalar 8 "pulse_width_correction" .float <|
     .scalar 9 "lambda" .float <|
     .scalar 10 "ve" .float <|
     .scalar 11 "engine_temp_enrichment" .float <|
     .scalar 12 "rpm_limit_cut" .bool <|
     .scalar 13 "boost_cut" .bool <|
     .scalar 14 "fuel_overduty_cut" .bool <|
     .scalar 15 "dwell_overduty_cut" .bool <|
     .nil)
    (fun c => (c.advance, c.dwellUs, c.fuelUs, c.airmassPerCycle, c.fuelvolPerCycle,
      c.tipinPercent, c.injectorDeadTime, c.pulseWidthCorrection, c.lambda, c.ve,
      c.engineTempEnrichment, c.rpmLimitCut, c.boostCut, c.fuelOverdutyCut,
      c.dwellOverdutyCut, ()))
    (fun (advance, dwellUs, fuelUs, airmassPerCycle, fuelvolPerCycle,
        tipinPercent, injectorDeadTime, pulseWidthCorrection, lambda, ve,
        engineTempEnrichment, rpmLimitCut, boostCut, fuelOverdutyCut, dwellOverdutyCut, _) =>
      { advance, dwellUs, fuelUs, airmassPerCycle, fuelvolPerCycle,
        tipinPercent, injectorDeadTime, pulseWidthCorrection, lambda, ve,
        engineTempEnrichment, rpmLimitCut, boostCut, fuelOverdutyCut, dwellOverdutyCut })
    (fun _ => rfl) (fun _ => rfl)

/-! ### Reports -/

inductive EventKind where
  | trigger (number : UInt32)
  | outputPins (pins : UInt32)
  | gpioPins (pins : UInt32)
deriving DecidableEq, Repr

namespace EventKind

def alternatives : Alternatives (UInt32 ⊕ UInt32 ⊕ UInt32 ⊕ Empty) :=
  .scalar 2 "Trigger" .uint32 <|
  .scalar 3 "OutputPins" .uint32 <|
  .scalar 4 "GpioPins" .uint32 <|
  .nil

def split : EventKind → UInt32 ⊕ UInt32 ⊕ UInt32 ⊕ Empty
  | trigger number => .inl number
  | outputPins pins => .inr (.inl pins)
  | gpioPins pins => .inr (.inr (.inl pins))

def join : UInt32 ⊕ UInt32 ⊕ UInt32 ⊕ Empty → EventKind
  | .inl number => trigger number
  | .inr (.inl pins) => outputPins pins
  | .inr (.inr (.inl pins)) => gpioPins pins

end EventKind

/-- A report of something that happened. -/
structure Event where
  header : Option Header := none
  kind : Option EventKind := none
deriving DecidableEq, Repr, Inhabited

def Event.format : Format Event :=
  .record "Event"
    (.message 1 "header" Header.format <|
     .cons (.choice "kind" EventKind.alternatives EventKind.split EventKind.join
       (fun kind => by cases kind <;> rfl)
       (fun | .inl _ => rfl | .inr (.inl _) => rfl | .inr (.inr (.inl _)) => rfl)) <|
     .nil)
    (fun event => (event.header, event.kind, ()))
    (fun (header, kind, _) => { header, kind })
    (fun _ => rfl) (fun _ => rfl)

/-- A periodic report of the state of the engine. -/
structure EngineUpdate where
  header : Option Header := none
  position : Option Position := none
  sensors : Option Sensors := none
  calculations : Option Calculations := none
deriving DecidableEq, Repr, Inhabited

def EngineUpdate.format : Format EngineUpdate :=
  .record "EngineUpdate"
    (.message 1 "header" Header.format <|
     .message 2 "position" Position.format <|
     .message 3 "sensors" Sensors.format <|
     .message 4 "calculations" Calculations.format <|
     .nil)
    (fun update => (update.header, update.position, update.sensors, update.calculations, ()))
    (fun (header, position, sensors, calculations, _) =>
      { header, position, sensors, calculations })
    (fun _ => rfl) (fun _ => rfl)

end EngineConsole
