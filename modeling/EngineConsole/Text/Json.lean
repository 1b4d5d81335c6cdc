import EngineConsole.Text.Quoted

/-!
# JSON

A JSON document and its two layouts: compact, without any space, and indented, with one member or element a line. The members of an object stand in the order given.
-/

namespace EngineConsole

inductive Json where
  | null
  | bool (value : Bool)
  | number (text : String)
  | string (text : String)
  | array (items : List Json)
  | object (members : List (String × Json))

namespace Json

def ofNat (value : Nat) : Json := number (toString value)

def ofText? : Option String → Json
  | none => null
  | some text => string text

mutual

def compact : Json → String
  | null => "null"
  | bool value => if value then "true" else "false"
  | number text => text
  | string text => Text.quoteJson text
  | array items => "[" ++ ",".intercalate (compactItems items) ++ "]"
  | object members => "\x7b" ++ ",".intercalate (compactMembers members) ++ "\x7d"

def compactItems : List Json → List String
  | [] => []
  | item :: items => compact item :: compactItems items

def compactMembers : List (String × Json) → List String
  | [] => []
  | (name, value) :: members =>
    (Text.quoteJson name ++ ":" ++ compact value) :: compactMembers members

end

def margin (level : Nat) : String := String.ofList (List.replicate (2 * level) ' ')

/-- The parts of a bracket on lines of their own, one level further in than the brackets; nothing stands between the brackets where there is no part. -/
def block (level : Nat) (opening closing : String) (parts : List String) : String :=
  if parts.isEmpty then opening ++ closing
  else
    let lines := parts.map (margin (level + 1) ++ ·)
    opening ++ "\n" ++ ",\n".intercalate lines ++ "\n" ++ margin level ++ closing

mutual

def indented (level : Nat) : Json → String
  | null => "null"
  | bool value => if value then "true" else "false"
  | number text => text
  | string text => Text.quoteJson text
  | array items => block level "[" "]" (indentedItems level items)
  | object members => block level "\x7b" "\x7d" (indentedMembers level members)

def indentedItems (level : Nat) : List Json → List String
  | [] => []
  | item :: items => indented (level + 1) item :: indentedItems level items

def indentedMembers (level : Nat) : List (String × Json) → List String
  | [] => []
  | (name, value) :: members =>
    (Text.quoteJson name ++ ": " ++ indented (level + 1) value) :: indentedMembers level members

end

def pretty (document : Json) : String := document.indented 0

end Json

end EngineConsole
