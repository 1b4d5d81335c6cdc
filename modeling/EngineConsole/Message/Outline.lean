import EngineConsole.Message.View
import EngineConsole.Text.Number
import EngineConsole.Text.Quoted

/-!
# Messages as outlines

An outline shows a message as a tree with one part a line, four spaces further in for each level, and names every record and every alternative.
-/

namespace EngineConsole.View

def margin (level : Nat) : String := String.ofList (List.replicate (4 * level) ' ')

/-- The parts of a bracket on lines of their own, each with a comma after it, one level further in than the brackets. -/
def block (level : Nat) (opening closing : String) (parts : List String) : String :=
  let lines := parts.map fun part => margin (level + 1) ++ part ++ ",\n"
  opening ++ "\n" ++ String.join lines ++ margin level ++ closing

mutual

def outlineAt (level : Nat) : View → String
  | absent => "None"
  | present value => block level "Some(" ")" [outlineAt (level + 1) value]
  | number value => toString value
  | float value => NumberStyle.outline.writeAny value
  | flag value => if value then "true" else "false"
  | text value => Text.quoteOutline value
  | variant name => name
  | alternative name payload => block level (name ++ "(") ")" [outlineAt (level + 1) payload]
  | list items =>
    if items.isEmpty then "[]" else block level "[" "]" (outlineItems (level + 1) items)
  | record name members =>
    if members.isEmpty then name
    else block level (name ++ " \x7b") "\x7d" (outlineMembers (level + 1) members)

def outlineItems (level : Nat) : List View → List String
  | [] => []
  | item :: items => outlineAt level item :: outlineItems level items

def outlineMembers (level : Nat) : List (String × View) → List String
  | [] => []
  | (name, value) :: members =>
    (name ++ ": " ++ outlineAt level value) :: outlineMembers level members

end

def outline (view : View) : String := view.outlineAt 0

end EngineConsole.View
