/-!
# Columns

Text that is filled up to a width.
-/

namespace EngineConsole.Text

def filling (fill : Char) (width : Nat) (text : String) : String :=
  String.ofList (List.replicate (width - text.length) fill)

def alignLeft (width : Nat) (text : String) : String := text ++ filling ' ' width text

def alignRight (width : Nat) (text : String) : String := filling ' ' width text ++ text

def hex (width value : Nat) : String :=
  let digits := String.ofList (Nat.toDigits 16 value)
  filling '0' width digits ++ digits

end EngineConsole.Text
