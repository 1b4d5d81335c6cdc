import EngineConsole.Console.Exchange
import EngineConsole.Console.Telemetry

/-!
# The envelope

Every message on the console link is an envelope around an update, an event, a request or a response.
-/

namespace EngineConsole

inductive ConsoleKind where
  | engineUpdate (content : EngineUpdate)
  | event (content : Event)
  | request (content : Request)
  | response (content : Response)
deriving DecidableEq, Repr

namespace ConsoleKind

abbrev Place := EngineUpdate ⊕ Event ⊕ Request ⊕ Response ⊕ Empty

def alternatives : Alternatives Place :=
  .message 2 "EngineUpdate" EngineUpdate.format <|
  .message 3 "Event" Event.format <|
  .message 4 "Request" Request.format <|
  .message 5 "Response" Response.format <|
  .nil

def split : ConsoleKind → Place
  | engineUpdate content => .inl content
  | event content => .inr (.inl content)
  | request content => .inr (.inr (.inl content))
  | response content => .inr (.inr (.inr (.inl content)))

def join : Place → ConsoleKind
  | .inl content => engineUpdate content
  | .inr (.inl content) => event content
  | .inr (.inr (.inl content)) => request content
  | .inr (.inr (.inr (.inl content))) => response content

theorem join_split (kind : ConsoleKind) : join (split kind) = kind := by cases kind <;> rfl

theorem split_join (place : Place) : split (join place) = place := by
  rcases place with _ | _ | _ | _ | ⟨⟨⟩⟩ <;> rfl

def label : ConsoleKind → String
  | engineUpdate _ => "engine_update"
  | event _ => "event"
  | request _ => "request"
  | response _ => "response"

end ConsoleKind

structure ConsoleMessage where
  kind : Option ConsoleKind := none
deriving DecidableEq, Repr, Inhabited

def ConsoleMessage.format : Format ConsoleMessage :=
  .record "ConsoleMessage"
    (.cons (.choice "kind" ConsoleKind.alternatives ConsoleKind.split ConsoleKind.join
       ConsoleKind.join_split ConsoleKind.split_join) <|
     .nil)
    (fun envelope => (envelope.kind, ()))
    (fun (kind, _) => { kind })
    (fun _ => rfl) (fun _ => rfl)

end EngineConsole
