import EngineConsole.Proofs.Message.Selection
import EngineConsole.Proofs.Message.WellFormed

/-!
# The kinds of console messages

An event, a request, a response and the envelope itself each hold one of several alternatives. The kind is that of the last record of an alternative, and what it holds is what the trailing run of these records has merged.
-/

namespace EngineConsole

inductive ChoiceType where
  | event | request | response | consoleMessage
deriving DecidableEq, Repr

namespace ChoiceType

abbrev message : ChoiceType → MessageType
  | event => .event
  | request => .request
  | response => .response
  | consoleMessage => .consoleMessage

abbrev Kind : ChoiceType → Type
  | event => EventKind
  | request => RequestKind
  | response => ResponseKind
  | consoleMessage => ConsoleKind

def kind : (type : ChoiceType) → type.message.Value → Option type.Kind
  | event => Event.kind
  | request => Request.kind
  | response => Response.kind
  | consoleMessage => ConsoleMessage.kind

def alternatives : (type : ChoiceType) → List (Alternative type.Kind)
  | event => EventKind.alternatives.kinds EventKind.join
  | request => RequestKind.alternatives.kinds RequestKind.join
  | response => ResponseKind.alternatives.kinds ResponseKind.join
  | consoleMessage => ConsoleKind.alternatives.kinds ConsoleKind.join

/-- Whatever the message held before, complete records that are merged successfully leave the one kind that the records of its alternatives select among them. The records of other fields have no part in it. -/
theorem merge_selects (type : ChoiceType) (value : type.message.Value) {records : List Bytes}
    (hcomplete : ∀ record ∈ records, type.message.format.CompleteRecord record)
    (hnone : (type.message.format.merge value (.ofBytes records.flatten)).error = none)
    (chosen : Option type.Kind) :
    type.kind (type.message.format.merge value (.ofBytes records.flatten)).value = chosen ↔
      Alternative.Selected type.alternatives (type.kind value)
        (records.filter (Alternative.anyAddressed type.alternatives)) chosen := by
  have hformed := type.message.wellFormed_format
  cases type with
  | event => exact Format.selected_merge (.field (.later _ (.first _ _))) hformed hcomplete hnone chosen
  | request => exact Format.selected_merge (.field (.later _ (.first _ _))) hformed hcomplete hnone chosen
  | response => exact Format.selected_merge (.field (.later _ (.first _ _))) hformed hcomplete hnone chosen
  | consoleMessage => exact Format.selected_merge (.field (.first _ _)) hformed hcomplete hnone chosen

end ChoiceType

/-- Two answers about new settings with a pong between them, and the second of them in two records. -/
def Response.answers : List Bytes :=
  [[0x22, 0x02, 0x10, 0x01], [0x12, 0x00], [0x22, 0x02, 0x18, 0x01], [0x08, 0x05],
    [0x22, 0x02, 0x10, 0x00]]

theorem Response.completeRecord_answers : ∀ record ∈ answers, format.CompleteRecord record := by
  intro record hrecord
  simp only [answers, List.mem_cons, List.not_mem_nil, or_false] at hrecord
  rcases hrecord with rfl | rfl | rfl | rfl | rfl
  · exact ⟨⟨4, .delimited⟩, _, rfl, by decide, _, _, rfl, rfl⟩
  · exact ⟨⟨2, .delimited⟩, _, rfl, by decide, _, _, rfl, rfl⟩
  · exact ⟨⟨4, .delimited⟩, _, rfl, by decide, _, _, rfl, rfl⟩
  · exact ⟨⟨1, .varint⟩, _, rfl, by decide, _, _, rfl, rfl⟩
  · exact ⟨⟨4, .delimited⟩, _, rfl, by decide, _, _, rfl, rfl⟩

/-- The pong makes the answer behind it begin afresh, and the identifier does not. -/
theorem ChoiceType.merge_selects_answers :
    (∀ record ∈ Response.answers, response.message.format.CompleteRecord record) ∧
    (response.message.format.merge { kind := some (.setConfig { config := some {} }) }
      (.ofBytes Response.answers.flatten)).error = none ∧
    Alternative.Selected response.alternatives (some (.setConfig { config := some {} }))
      (Response.answers.filter (Alternative.anyAddressed response.alternatives))
      (some (.setConfig { success := some false, requiresRestart := some true })) := by
  have hcomplete := Response.completeRecord_answers
  have hnone : (response.message.format.merge { kind := some (.setConfig { config := some {} }) }
      (.ofBytes Response.answers.flatten)).error = none := by decide +kernel
  have hkind : response.kind (response.message.format.merge
      { kind := some (.setConfig { config := some {} }) } (.ofBytes Response.answers.flatten)).value =
        some (.setConfig { success := some false, requiresRestart := some true }) := by
    decide +kernel
  exact ⟨hcomplete, hnone, (merge_selects .response _ hcomplete hnone _).mp hkind⟩

end EngineConsole
