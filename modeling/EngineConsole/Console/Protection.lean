import EngineConsole.Console.Table

/-!
# Boost and protection

The control of the boost pressure, the warning light, the limit on the engine speed, and the switches for testing.
-/

namespace EngineConsole

structure BoostControl where
  pin : Option UInt32 := none
  controlThresholdMap : Option Single := none
  controlThresholdTps : Option Single := none
  enableThresholdMap : Option Single := none
  overboostMap : Option Single := none
  pwmVsRpm : Option Table1d := none
deriving DecidableEq, Repr, Inhabited

def BoostControl.format : Format BoostControl :=
  .record "BoostControl"
    (.optional 1 "pin" .uint32 <|
     .optional 2 "control_threshold_map" .float <|
     .optional 3 "control_threshold_tps" .float <|
     .optional 4 "enable_threshold_map" .float <|
     .optional 5 "overboost_map" .float <|
     .message 6 "pwm_vs_rpm" Table1d.format <|
     .nil)
    (fun b => (b.pin, b.controlThresholdMap, b.controlThresholdTps, b.enableThresholdMap,
      b.overboostMap, b.pwmVsRpm, ()))
    (fun (pin, controlThresholdMap, controlThresholdTps, enableThresholdMap, overboostMap,
        pwmVsRpm, _) =>
      { pin, controlThresholdMap, controlThresholdTps, enableThresholdMap, overboostMap,
        pwmVsRpm })
    (fun _ => rfl) (fun _ => rfl)

structure CheckEngineLight where
  pin : Option UInt32 := none
  leanBoostEgo : Option Single := none
  leanBoostMapEnable : Option Single := none
deriving DecidableEq, Repr, Inhabited

def CheckEngineLight.format : Format CheckEngineLight :=
  .record "CheckEngineLight"
    (.optional 1 "pin" .uint32 <|
     .optional 2 "lean_boost_ego" .float <|
     .optional 3 "lean_boost_map_enable" .float <|
     .nil)
    (fun light => (light.pin, light.leanBoostEgo, light.leanBoostMapEnable, ()))
    (fun (pin, leanBoostEgo, leanBoostMapEnable, _) => { pin, leanBoostEgo, leanBoostMapEnable })
    (fun _ => rfl) (fun _ => rfl)

structure RpmCut where
  rpmLimitStart : Option Single := none
  rpmLimitStop : Option Single := none
deriving DecidableEq, Repr, Inhabited

def RpmCut.format : Format RpmCut :=
  .record "RpmCut"
    (.optional 1 "rpm_limit_start" .float <|
     .optional 2 "rpm_limit_stop" .float <|
     .nil)
    (fun cut => (cut.rpmLimitStart, cut.rpmLimitStop, ()))
    (fun (rpmLimitStart, rpmLimitStop, _) => { rpmLimitStart, rpmLimitStop })
    (fun _ => rfl) (fun _ => rfl)

structure DebugOptions where
  testTriggerEnabled : Option Bool := none
  testTriggerRpm : Option Single := none
deriving DecidableEq, Repr, Inhabited

def DebugOptions.format : Format DebugOptions :=
  .record "DebugOptions"
    (.optional 1 "test_trigger_enabled" .bool <|
     .optional 2 "test_trigger_rpm" .float <|
     .nil)
    (fun options => (options.testTriggerEnabled, options.testTriggerRpm, ()))
    (fun (testTriggerEnabled, testTriggerRpm, _) => { testTriggerEnabled, testTriggerRpm })
    (fun _ => rfl) (fun _ => rfl)

end EngineConsole
