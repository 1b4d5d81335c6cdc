import EngineConsole.Text.Column
import EngineConsole.Text.Hidden

/-!
# Quoted text

A text between quotation marks, in which some characters are spelled by a backslash and what follows it. JSON and outlines differ in which characters these are.
-/

namespace EngineConsole.Text

def quote (spell : Char → String) (text : String) : String :=
  "\"" ++ String.join (text.toList.map spell) ++ "\""

/-- A character in JSON: only the quotation mark, the backslash and the controls below the space are spelled. -/
def spellJson (c : Char) : String :=
  match c with
  | '"' => "\\\""
  | '\\' => "\\\\"
  | '\x08' => "\\b"
  | '\t' => "\\t"
  | '\n' => "\\n"
  | '\x0c' => "\\f"
  | '\r' => "\\r"
  | _ => if c.toNat < 0x20 then "\\u" ++ hex 4 c.toNat else c.toString

/-- A character in an outline: also every character without a form of its own is spelled, by its code point. -/
def spellOutline (c : Char) : String :=
  match c with
  | '\x00' => "\\0"
  | '\t' => "\\t"
  | '\n' => "\\n"
  | '\r' => "\\r"
  | '"' => "\\\""
  | '\\' => "\\\\"
  | _ => if isHidden c then "\\u\x7b" ++ hex 1 c.toNat ++ "\x7d" else c.toString

def quoteJson (text : String) : String := quote spellJson text

def quoteOutline (text : String) : String := quote spellOutline text

end EngineConsole.Text
