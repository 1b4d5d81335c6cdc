import EngineConsole.Number.Single
import EngineConsole.Text.Shortest

/-!
# Numbers in text

How the magnitude of a single-precision number becomes a shortest decimal, and how a decimal is laid out: which exponents are written out as places, whether a whole number keeps its point, and how an exponent is marked.
-/

namespace EngineConsole

namespace Single

def significand (x : Single) : Nat :=
  if x.exponentBits = 0 then x.fractionBits else x.fractionBits + 0x800000

def exponent (x : Single) : Int := if x.exponentBits = 0 then -149 else x.exponentBits - 150

def dyadic (x : Single) : Dyadic where
  significand := x.significand
  exponent := x.exponent
  narrowBelow := x.fractionBits = 0 && 1 < x.exponentBits

/-- The magnitude among the double-precision numbers: the same number with 53 bits in its significand. -/
def wideDyadic (x : Single) : Dyadic :=
  let shift := 52 - Nat.log2 x.significand
  { significand := x.significand <<< shift
    exponent := x.exponent - shift
    narrowBelow := x.significand <<< shift = 0x10000000000000 }

end Single

structure NumberStyle where
  /-- The exponents of the leading digit that are written out as places, least and greatest; all of them, if there is no bound. -/
  places : Option (Int × Int)
  /-- True if a whole number keeps a point and a zero. -/
  keepsPoint : Bool
  marksPlus : Bool
  ties : TieRule

namespace NumberStyle

/-- Reports in JSON: a single is written as places from a millionth up to thirteen digits. -/
def json : NumberStyle where
  places := some (-6, 12)
  keepsPoint := true
  marksPlus := true
  ties := .even

/-- Messages in JSON: a widened number is written as places from a hundred-thousandth up to sixteen digits. -/
def wideJson : NumberStyle := { json with places := some (-5, 15) }

/-- Outlines: places from a ten-thousandth up to sixteen digits. -/
def outline : NumberStyle where
  places := some (-4, 15)
  keepsPoint := true
  marksPlus := false
  ties := .up

/-- Plain text: always places, and no point in a whole number. -/
def plain : NumberStyle where
  places := none
  keepsPoint := false
  marksPlus := false
  ties := .up

/-- The digits with a point behind the first `whole` of them; zeros fill the places that the digits do not reach. -/
def writePlaces (style : NumberStyle) (digits : List Char) (whole : Int) : String :=
  if whole ≤ 0 then
    "0." ++ String.ofList (List.replicate (-whole).toNat '0' ++ digits)
  else if digits.length ≤ whole.toNat then
    String.ofList (digits ++ List.replicate (whole.toNat - digits.length) '0')
      ++ (if style.keepsPoint then ".0" else "")
  else
    String.ofList (digits.take whole.toNat) ++ "." ++ String.ofList (digits.drop whole.toNat)

/-- The digits with a point behind the first, and the exponent of the first. -/
def writeExponent (style : NumberStyle) (digits : List Char) (exponent : Int) : String :=
  let fraction := if digits.length ≤ 1 then "" else "." ++ String.ofList (digits.drop 1)
  let mark := if style.marksPlus && 0 ≤ exponent then "e+" else "e"
  String.ofList (digits.take 1) ++ fraction ++ mark ++ toString exponent

def write (style : NumberStyle) (x : Decimal) : String :=
  let digits := Nat.toDigits 10 x.digits
  let leading : Int := digits.length - 1 + x.exponent
  match style.places with
  | some (least, greatest) =>
    if least ≤ leading && leading ≤ greatest then style.writePlaces digits (leading + 1)
    else style.writeExponent digits leading
  | none => style.writePlaces digits (leading + 1)

/-- The text of a finite number whose magnitude, unless it is zero, is the given one. -/
def writeSigned (style : NumberStyle) (x : Single) (magnitude : Dyadic) : String :=
  let decimal := if x.isZero then ⟨0, 0⟩ else magnitude.shortest style.ties
  (if x.isNegative then "-" else "") ++ style.write decimal

def writeAny (style : NumberStyle) (x : Single) : String :=
  if x.isNaN then "NaN"
  else if x.isInfinite then (if x.isNegative then "-inf" else "inf")
  else style.writeSigned x x.dyadic

end NumberStyle

end EngineConsole
