import Discussion.Decimal.Shortest
import Discussion.Text.Digits

namespace Discussion.Decimal

-- Powers are those of the core library, whatever else is in scope.
attribute [local instance (high)] instPowNat

open Text (naturalDigits integerDigits)

/-- How a decimal number is written: which of two equally near numbers is taken, the exponents of
the leading digit that are written positionally, whether a whole number keeps a point and a zero,
and the texts of what is not a number. -/
structure Layout where
  tie : Tie
  plainFrom : Option Int
  plainBelow : Option Int
  pointZero : Bool
  expPlus : Bool
  nan : String
  infinity : String
  minusInfinity : String

def zeros (n : Nat) : List Char :=
  List.replicate n '0'

def Layout.isPlain (l : Layout) (top : Int) : Bool :=
  (match l.plainFrom with
    | none => true
    | some e => e ≤ top)
  && (match l.plainBelow with
    | none => true
    | some e => top < e)

/-- The digits with the point after the digit of exponent zero. -/
def Layout.positional (l : Layout) (d : Numeral) : List Char :=
  let digits := naturalDigits d.digits
  if 0 ≤ d.exponent then
    digits ++ (if d.digits = 0 then [] else zeros d.exponent.toNat)
      ++ (if l.pointZero then ['.', '0'] else [])
  else
    let places := (-d.exponent).toNat
    let padded := zeros (places + 1 - digits.length) ++ digits
    padded.take (padded.length - places) ++ ['.'] ++ padded.drop (padded.length - places)

/-- One digit before the point, and the exponent of that digit. -/
def Layout.scientific (l : Layout) (d : Numeral) (top : Int) : List Char :=
  let digits := naturalDigits d.digits
  let fraction := digits.drop 1
  digits.take 1 ++ (if fraction.isEmpty then [] else '.' :: fraction) ++ ['e']
    ++ (if l.expPlus && 0 ≤ top then ['+'] else []) ++ integerDigits top

def Layout.decimal (l : Layout) (d : Numeral) : List Char :=
  let top := d.exponent + (digitCount d.digits : Int) - 1
  if d.digits = 0 || l.isPlain top then l.positional d else l.scientific d top

/-- A floating point number in the fewest digits that read back to it. -/
def Layout.float (l : Layout) (x : Float) : List Char :=
  let bits := x.toBits.toNat
  let negative := bits / 2 ^ (63 : Nat) = 1
  if x.isNaN then l.nan.toList
  else if x.isInf then (if negative then l.minusInfinity else l.infinity).toList
  else (if negative then ['-'] else []) ++ l.decimal (shortest l.tie (Binary.ofBits bits))

end Discussion.Decimal
