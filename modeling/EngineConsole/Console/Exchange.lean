import EngineConsole.Console.Configuration

/-!
# Requests and responses

The host asks and the engine answers. A response carries the number of the request that it answers.
-/

namespace EngineConsole

/-! ### Requests -/

/-- Asks for settings to be changed. -/
structure SetConfigRequest where
  config : Option Configuration := none
deriving DecidableEq, Repr, Inhabited

def SetConfigRequest.format : Format SetConfigRequest :=
  .record "SetConfigRequest"
    (.message 1 "config" Configuration.format .nil)
    (fun request => (request.config, ()))
    (fun (config, _) => { config })
    (fun _ => rfl) (fun _ => rfl)

inductive RequestKind where
  | ping
  | firmwareInfo
  | setConfig (request : SetConfigRequest)
  | getConfig
  | flashConfig
  | resetToBootloader
deriving DecidableEq, Repr

namespace RequestKind

abbrev Place := Unit ⊕ Unit ⊕ SetConfigRequest ⊕ Unit ⊕ Unit ⊕ Unit ⊕ Empty

def alternatives : Alternatives Place :=
  .signal 2 "Ping" <|
  .signal 3 "FirmwareInfo" <|
  .message 4 "SetConfig" SetConfigRequest.format <|
  .signal 5 "GetConfig" <|
  .signal 6 "FlashConfig" <|
  .signal 7 "ResetToBootloader" <|
  .nil

def split : RequestKind → Place
  | ping => .inl ()
  | firmwareInfo => .inr (.inl ())
  | setConfig request => .inr (.inr (.inl request))
  | getConfig => .inr (.inr (.inr (.inl ())))
  | flashConfig => .inr (.inr (.inr (.inr (.inl ()))))
  | resetToBootloader => .inr (.inr (.inr (.inr (.inr (.inl ())))))

def join : Place → RequestKind
  | .inl () => ping
  | .inr (.inl ()) => firmwareInfo
  | .inr (.inr (.inl request)) => setConfig request
  | .inr (.inr (.inr (.inl ()))) => getConfig
  | .inr (.inr (.inr (.inr (.inl ())))) => flashConfig
  | .inr (.inr (.inr (.inr (.inr (.inl ()))))) => resetToBootloader

theorem join_split (kind : RequestKind) : join (split kind) = kind := by cases kind <;> rfl

theorem split_join (place : Place) : split (join place) = place := by
  rcases place with _ | _ | _ | _ | _ | _ | ⟨⟨⟩⟩ <;> rfl

end RequestKind

structure Request where
  id : UInt32 := 0
  kind : Option RequestKind := none
deriving DecidableEq, Repr, Inhabited

def Request.format : Format Request :=
  .record "Request"
    (.scalar 1 "id" .uint32 <|
     .cons (.choice "kind" RequestKind.alternatives RequestKind.split RequestKind.join
       RequestKind.join_split RequestKind.split_join) <|
     .nil)
    (fun request => (request.id, request.kind, ()))
    (fun (id, kind, _) => { id, kind })
    (fun _ => rfl) (fun _ => rfl)

/-! ### Responses -/

structure FirmwareInfo where
  version : String := ""
  platform : String := ""
  proto : String := ""
deriving DecidableEq, Repr, Inhabited

namespace FirmwareInfo

def versionCapacity : Nat := 64

def platformCapacity : Nat := 32

def protoCapacity : Nat := 16384

def format : Format FirmwareInfo :=
  .record "FirmwareInfo"
    (.text 1 "version" versionCapacity <|
     .text 2 "platform" platformCapacity <|
     .text 3 "proto" protoCapacity <|
     .nil)
    (fun info => (info.version, info.platform, info.proto, ()))
    (fun (version, platform, proto, _) => { version, platform, proto })
    (fun _ => rfl) (fun _ => rfl)

end FirmwareInfo

/-- Says whether settings were changed. -/
structure SetConfigResponse where
  config : Option Configuration := none
  success : Option Bool := none
  requiresRestart : Option Bool := none
deriving DecidableEq, Repr, Inhabited

def SetConfigResponse.format : Format SetConfigResponse :=
  .record "SetConfigResponse"
    (.message 1 "config" Configuration.format <|
     .optional 2 "success" .bool <|
     .optional 3 "requires_restart" .bool <|
     .nil)
    (fun response => (response.config, response.success, response.requiresRestart, ()))
    (fun (config, success, requiresRestart, _) => { config, success, requiresRestart })
    (fun _ => rfl) (fun _ => rfl)

structure GetConfigResponse where
  config : Option Configuration := none
  needsFlash : Option Bool := none
deriving DecidableEq, Repr, Inhabited

def GetConfigResponse.format : Format GetConfigResponse :=
  .record "GetConfigResponse"
    (.message 1 "config" Configuration.format <|
     .optional 2 "needs_flash" .bool <|
     .nil)
    (fun response => (response.config, response.needsFlash, ()))
    (fun (config, needsFlash, _) => { config, needsFlash })
    (fun _ => rfl) (fun _ => rfl)

/-- Says whether the settings were stored. -/
structure FlashConfigResponse where
  success : Option Bool := none
deriving DecidableEq, Repr, Inhabited

def FlashConfigResponse.format : Format FlashConfigResponse :=
  .record "FlashConfigResponse"
    (.optional 1 "success" .bool .nil)
    (fun response => (response.success, ()))
    (fun (success, _) => { success })
    (fun _ => rfl) (fun _ => rfl)

inductive ResponseKind where
  | pong
  | firmwareInfo (info : FirmwareInfo)
  | setConfig (response : SetConfigResponse)
  | getConfig (response : GetConfigResponse)
  | flashConfig (response : FlashConfigResponse)
deriving DecidableEq, Repr

namespace ResponseKind

abbrev Place :=
  Unit ⊕ FirmwareInfo ⊕ SetConfigResponse ⊕ GetConfigResponse ⊕ FlashConfigResponse ⊕ Empty

def alternatives : Alternatives Place :=
  .signal 2 "Pong" <|
  .message 3 "FirmwareInfo" FirmwareInfo.format <|
  .message 4 "SetConfig" SetConfigResponse.format <|
  .message 5 "GetConfig" GetConfigResponse.format <|
  .message 6 "FlashConfig" FlashConfigResponse.format <|
  .nil

def split : ResponseKind → Place
  | pong => .inl ()
  | firmwareInfo info => .inr (.inl info)
  | setConfig response => .inr (.inr (.inl response))
  | getConfig response => .inr (.inr (.inr (.inl response)))
  | flashConfig response => .inr (.inr (.inr (.inr (.inl response))))

def join : Place → ResponseKind
  | .inl () => pong
  | .inr (.inl info) => firmwareInfo info
  | .inr (.inr (.inl response)) => setConfig response
  | .inr (.inr (.inr (.inl response))) => getConfig response
  | .inr (.inr (.inr (.inr (.inl response)))) => flashConfig response

theorem join_split (kind : ResponseKind) : join (split kind) = kind := by cases kind <;> rfl

theorem split_join (place : Place) : split (join place) = place := by
  rcases place with _ | _ | _ | _ | _ | ⟨⟨⟩⟩ <;> rfl

end ResponseKind

structure Response where
  id : UInt32 := 0
  kind : Option ResponseKind := none
deriving DecidableEq, Repr, Inhabited

def Response.format : Format Response :=
  .record "Response"
    (.scalar 1 "id" .uint32 <|
     .cons (.choice "kind" ResponseKind.alternatives ResponseKind.split ResponseKind.join
       ResponseKind.join_split ResponseKind.split_join) <|
     .nil)
    (fun response => (response.id, response.kind, ()))
    (fun (id, kind, _) => { id, kind })
    (fun _ => rfl) (fun _ => rfl)

end EngineConsole
