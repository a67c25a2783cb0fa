import Discussion.Text.Digits

namespace Discussion.Decimal

/-- Beyond these powers of ten a number is too large for a floating point number, or nothing. -/
def largestPower : Int := 310

def smallestPower : Int := -400

/-- The floating point number next to `digits * 10 ^ exponent`, if it is finite. -/
def nearest? (digits : Nat) (exponent : Int) : Option Float :=
  if digits = 0 then some 0.0
  else
    let power := exponent + (Text.naturalDigits digits).length
    if largestPower < power then none
    else if power < smallestPower then some 0.0
    else
      let x := Float.ofScientific digits (exponent < 0) exponent.natAbs
      if x.isInf then none else some x

end Discussion.Decimal
