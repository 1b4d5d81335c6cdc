import EngineConsole.Message.View
import EngineConsole.Text.Json
import EngineConsole.Text.Number

/-!
# Messages as JSON

A message becomes an object whose members are sorted by name. An absent value is null, a variant is its name, an alternative is an object with one member, and a float is the double-precision number of the same value, or null if it is not finite.
-/

namespace EngineConsole

def Single.json (x : Single) : Json :=
  if x.isNaN || x.isInfinite then .null
  else .number (NumberStyle.wideJson.writeSigned x x.wideDyadic)

namespace Json

def insertMember (member : String × Json) : List (String × Json) → List (String × Json)
  | [] => [member]
  | other :: others =>
    if member.1 < other.1 then member :: other :: others
    else other :: insertMember member others

def sortedObject (members : List (String × Json)) : Json :=
  object (members.foldr insertMember [])

end Json

namespace View

mutual

def json : View → Json
  | absent => .null
  | present value => json value
  | number value => .ofNat value
  | float value => value.json
  | flag value => .bool value
  | text value => .string value
  | variant name => .string name
  | alternative name payload => .object [(name, json payload)]
  | list items => .array (jsonItems items)
  | record _ members => .sortedObject (jsonMembers members)

def jsonItems : List View → List Json
  | [] => []
  | item :: items => json item :: jsonItems items

def jsonMembers : List (String × View) → List (String × Json)
  | [] => []
  | (name, value) :: members => (name, json value) :: jsonMembers members

end

end View

end EngineConsole
