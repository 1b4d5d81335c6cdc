import EngineConsole.Console.Envelope
import EngineConsole.Message.Size

/-!
# The catalogue of message types

All message types of the console link under one name each, from the leaves to the envelope, so that a statement can speak of every one of them.
-/

namespace EngineConsole

inductive MessageType where
  | header | sensors | position | calculations | event | engineUpdate
  | tableRow | tableAxis | table1d | table2d
  | output
  | linearConfig | constConfig | thermistorConfig | faultConfig | windowConfig
  | sensor | knockSensor | sensorInputs
  | decoder | triggerInput
  | crankEnrichment | fueling | ignition
  | boostControl | checkEngineLight | rpmCut | debugOptions
  | configuration
  | setConfigRequest | request
  | firmwareInfo | setConfigResponse | getConfigResponse | flashConfigResponse | response
  | consoleMessage
deriving DecidableEq, Repr

namespace MessageType

/-- All message types, every one after those that it contains. -/
def all : List MessageType :=
  [.header, .sensors, .position, .calculations, .event, .engineUpdate,
   .tableRow, .tableAxis, .table1d, .table2d,
   .output,
   .linearConfig, .constConfig, .thermistorConfig, .faultConfig, .windowConfig,
   .sensor, .knockSensor, .sensorInputs,
   .decoder, .triggerInput,
   .crankEnrichment, .fueling, .ignition,
   .boostControl, .checkEngineLight, .rpmCut, .debugOptions,
   .configuration,
   .setConfigRequest, .request,
   .firmwareInfo, .setConfigResponse, .getConfigResponse, .flashConfigResponse, .response,
   .consoleMessage]

abbrev Value : MessageType → Type
  | header => Header
  | sensors => Sensors
  | position => Position
  | calculations => Calculations
  | event => Event
  | engineUpdate => EngineUpdate
  | tableRow => TableRow
  | tableAxis => TableAxis
  | table1d => Table1d
  | table2d => Table2d
  | output => Output
  | linearConfig => LinearConfig
  | constConfig => ConstConfig
  | thermistorConfig => ThermistorConfig
  | faultConfig => FaultConfig
  | windowConfig => WindowConfig
  | sensor => Sensor
  | knockSensor => KnockSensor
  | sensorInputs => SensorInputs
  | decoder => Decoder
  | triggerInput => TriggerInput
  | crankEnrichment => CrankEnrichment
  | fueling => Fueling
  | ignition => Ignition
  | boostControl => BoostControl
  | checkEngineLight => CheckEngineLight
  | rpmCut => RpmCut
  | debugOptions => DebugOptions
  | configuration => Configuration
  | setConfigRequest => SetConfigRequest
  | request => Request
  | firmwareInfo => FirmwareInfo
  | setConfigResponse => SetConfigResponse
  | getConfigResponse => GetConfigResponse
  | flashConfigResponse => FlashConfigResponse
  | response => Response
  | consoleMessage => ConsoleMessage

def format : (type : MessageType) → Format type.Value
  | header => Header.format
  | sensors => Sensors.format
  | position => Position.format
  | calculations => Calculations.format
  | event => Event.format
  | engineUpdate => EngineUpdate.format
  | tableRow => TableRow.format
  | tableAxis => TableAxis.format
  | table1d => Table1d.format
  | table2d => Table2d.format
  | output => Output.format
  | linearConfig => LinearConfig.format
  | constConfig => ConstConfig.format
  | thermistorConfig => ThermistorConfig.format
  | faultConfig => FaultConfig.format
  | windowConfig => WindowConfig.format
  | sensor => Sensor.format
  | knockSensor => KnockSensor.format
  | sensorInputs => SensorInputs.format
  | decoder => Decoder.format
  | triggerInput => TriggerInput.format
  | crankEnrichment => CrankEnrichment.format
  | fueling => Fueling.format
  | ignition => Ignition.format
  | boostControl => BoostControl.format
  | checkEngineLight => CheckEngineLight.format
  | rpmCut => RpmCut.format
  | debugOptions => DebugOptions.format
  | configuration => Configuration.format
  | setConfigRequest => SetConfigRequest.format
  | request => Request.format
  | firmwareInfo => FirmwareInfo.format
  | setConfigResponse => SetConfigResponse.format
  | getConfigResponse => GetConfigResponse.format
  | flashConfigResponse => FlashConfigResponse.format
  | response => Response.format
  | consoleMessage => ConsoleMessage.format

theorem mem_all (type : MessageType) : type ∈ all := by cases type <;> decide

def sizes : List (String × Nat) := all.map fun type => (type.format.name, type.format.maxSize)

end MessageType

end EngineConsole
