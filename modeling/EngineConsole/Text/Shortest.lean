/-!
# Shortest decimals

A binary number stands for every real number that rounds to it. Among these there is a decimal with the fewest digits, and of the decimals with that many digits one that is nearest to the number itself. It is found in exact arithmetic, on decimal grids from coarse to fine.
-/

namespace EngineConsole

/-- A positive binary number `significand * 2 ^ exponent` with its neighbours at distance `2 ^ exponent`, or at half that distance below. -/
structure Dyadic where
  significand : Nat
  exponent : Int
  /-- True if the neighbour below is only half a unit away. -/
  narrowBelow : Bool
deriving DecidableEq, Repr

structure Decimal where
  digits : Nat
  exponent : Int
deriving DecidableEq, Repr

inductive TieRule where
  | even
  | up
deriving DecidableEq, Repr

namespace Dyadic

/-- The number as a fraction: `quarters` quarters of the unit, in the numerator. -/
def numerator (x : Dyadic) (quarters : Nat) : Nat := quarters <<< (x.exponent - 2).toNat

def denominator (x : Dyadic) : Nat := 1 <<< (2 - x.exponent).toNat

def quarters (x : Dyadic) : Nat := 4 * x.significand

/-- The lower end of what rounds to the number, in quarters of its unit. -/
def lowerQuarters (x : Dyadic) : Nat := x.quarters - if x.narrowBelow then 1 else 2

/-- The upper end of what rounds to the number, in quarters of its unit. -/
def upperQuarters (x : Dyadic) : Nat := x.quarters + 2

/-- The point of the grid of multiples of `10 ^ exponent` that rounds to the number and is nearest to it, if there is one. The ends of the interval round to a number with an even significand. -/
def gridPoint? (x : Dyadic) (ties : TieRule) (exponent : Int) : Option Nat :=
  let step := x.denominator * Nat.pow 10 exponent.toNat
  let scale := Nat.pow 10 (-exponent).toNat
  let value := x.numerator x.quarters * scale
  let lower := x.numerator x.lowerQuarters * scale
  let upper := x.numerator x.upperQuarters * scale
  let rounds (point : Nat) : Bool :=
    if x.significand % 2 = 0 then lower ≤ point * step && point * step ≤ upper
    else lower < point * step && point * step < upper
  let below := value / step
  let above := below + 1
  match rounds below, rounds above with
  | false, false => none
  | true, false => some below
  | false, true => some above
  | true, true =>
    let toBelow := value - below * step
    let toAbove := above * step - value
    if toBelow < toAbove then some below
    else if toAbove < toBelow then some above
    else match ties with
      | .even => some (if below % 2 = 0 then below else above)
      | .up => some above

def search (x : Dyadic) (ties : TieRule) : Nat → Int → Decimal
  | 0, exponent => ⟨0, exponent⟩
  | fuel + 1, exponent =>
    match x.gridPoint? ties exponent with
    | some digits => ⟨digits, exponent⟩
    | none => search x ties fuel (exponent - 1)

def wholeDigits (x : Dyadic) : Nat :=
  (Nat.toDigits 10 (x.numerator x.quarters / x.denominator)).length

/-- The decimal with the fewest digits that rounds to the number, and of these the nearest. The first grid is coarser than the number; on the last one the number itself is a point. -/
def shortest (x : Dyadic) (ties : TieRule) : Decimal :=
  x.search ties (x.wholeDigits + (2 - x.exponent).toNat + 1) x.wholeDigits

end Dyadic

end EngineConsole
