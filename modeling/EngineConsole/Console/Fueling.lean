import EngineConsole.Console.Table

/-!
# Fueling

How much fuel is injected, and how the amount is corrected.
-/

namespace EngineConsole

/-- Extra fuel while the engine is cranked. -/
structure CrankEnrichment where
  crankingRpm : Option Single := none
  crankingTemp : Option Single := none
  enrichAmt : Option Single := none
deriving DecidableEq, Repr, Inhabited

def CrankEnrichment.format : Format CrankEnrichment :=
  .record "CrankEnrichment"
    (.optional 1 "cranking_rpm" .float <|
     .optional 2 "cranking_temp" .float <|
     .optional 3 "enrich_amt" .float <|
     .nil)
    (fun enrichment => (enrichment.crankingRpm, enrichment.crankingTemp, enrichment.enrichAmt, ()))
    (fun (crankingRpm, crankingTemp, enrichAmt, _) => { crankingRpm, crankingTemp, enrichAmt })
    (fun _ => rfl) (fun _ => rfl)

structure Fueling where
  fuelPumpPin : Option UInt32 := none
  cylinderCc : Option Single := none
  fuelDensity : Option Single := none
  fuelStoichRatio : Option Single := none
  injectionsPerCycle : Option UInt32 := none
  injectorCc : Option Single := none
  maxDutyCycle : Option Single := none
  crankEnrich : Option CrankEnrichment := none
  pulseWidthCompensation : Option Table1d := none
  injectorDeadTime : Option Table1d := none
  engineTempEnrichment : Option Table2d := none
  commandedLambda : Option Table2d := none
  ve : Option Table2d := none
  tipinEnrichAmount : Option Table2d := none
  tipinEnrichDuration : Option Table1d := none
deriving DecidableEq, Repr, Inhabited

def Fueling.format : Format Fueling :=
  .record "Fueling"
    (.optional 1 "fuel_pump_pin" .uint32 <|
     .optional 2 "cylinder_cc" .float <|
     .optional 3 "fuel_density" .float <|
     .optional 4 "fuel_stoich_ratio" .float <|
     .optional 5 "injections_per_cycle" .uint32 <|
     .optional 6 "injector_cc" .float <|
     .optional 7 "max_duty_cycle" .float <|
     .message 16 "crank_enrich" CrankEnrichment.format <|
     .message 17 "pulse_width_compensation" Table1d.format <|
     .message 18 "injector_dead_time" Table1d.format <|
     .message 19 "engine_temp_enrichment" Table2d.format <|
     .message 20 "commanded_lambda" Table2d.format <|
     .message 21 "ve" Table2d.format <|
     .message 22 "tipin_enrich_amount" Table2d.format <|
     .message 23 "tipin_enrich_duration" Table1d.format <|
     .nil)
    (fun f => (f.fuelPumpPin, f.cylinderCc, f.fuelDensity, f.fuelStoichRatio,
      f.injectionsPerCycle, f.injectorCc, f.maxDutyCycle, f.crankEnrich,
      f.pulseWidthCompensation, f.injectorDeadTime, f.engineTempEnrichment,
      f.commandedLambda, f.ve, f.tipinEnrichAmount, f.tipinEnrichDuration, ()))
    (fun (fuelPumpPin, cylinderCc, fuelDensity, fuelStoichRatio,
        injectionsPerCycle, injectorCc, maxDutyCycle, crankEnrich,
        pulseWidthCompensation, injectorDeadTime, engineTempEnrichment,
        commandedLambda, ve, tipinEnrichAmount, tipinEnrichDuration, _) =>
      { fuelPumpPin, cylinderCc, fuelDensity, fuelStoichRatio,
        injectionsPerCycle, injectorCc, maxDutyCycle, crankEnrich,
        pulseWidthCompensation, injectorDeadTime, engineTempEnrichment,
        commandedLambda, ve, tipinEnrichAmount, tipinEnrichDuration })
    (fun _ => rfl) (fun _ => rfl)

end EngineConsole
