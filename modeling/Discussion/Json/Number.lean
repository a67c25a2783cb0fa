import Discussion.Json.Value
import Discussion.Text.Digits

namespace Discussion.Json

-- Powers are those of the core library, whatever else is in scope.
attribute [local instance (high)] instPowNat

open Text (isDigit digitValue naturalOf)

/-- The parts of a number's text: its sign, its integer digits, the digits after the point and the
signed exponent. -/
structure NumberText where
  negative : Bool
  whole : List Char
  fraction : Option (List Char)
  exponent : Option (Bool × List Char)

/-- Splits a number's text. There is no superfluous leading zero, and a point and an exponent mark
are each followed by a digit. -/
def NumberText.ofChars (cs : List Char) : Option NumberText :=
  let (negative, cs) := match cs with
    | '-' :: r => (true, r)
    | cs => (false, cs)
  let whole := cs.takeWhile isDigit
  let rest := cs.dropWhile isDigit
  if whole.isEmpty || (whole.length > 1 && whole.head? == some '0') then none
  else
    let (fraction, rest) : Option (List Char) × List Char := match rest with
      | '.' :: r => (some (r.takeWhile isDigit), r.dropWhile isDigit)
      | r => (none, r)
    if fraction == some [] then none
    else match rest with
      | [] => some ⟨negative, whole, fraction, none⟩
      | c :: r =>
        if c = 'e' ∨ c = 'E' then
          let (minus, digits) := match r with
            | '+' :: r => (false, r)
            | '-' :: r => (true, r)
            | r => (false, r)
          if digits.isEmpty || !digits.all isDigit then none
          else some ⟨negative, whole, fraction, some (minus, digits)⟩
        else none

/-- The digits that fit the significand, and how many digits were left out after them. -/
def significand (n : Nat) : List Char → Nat × Nat
  | [] => (n, 0)
  | c :: rest =>
    if 10 * n + digitValue c < 2 ^ (64 : Nat) then significand (10 * n + digitValue c) rest
    else (n, rest.length + 1)

/-- Multiplies by a power of ten, in steps of at most 308. Too large a result is no number. Three
steps down take every significand to zero. -/
def scaleTen (x : Float) (e : Int) : Nat → Option Float
  | 0 => some x
  | fuel + 1 =>
    if e.natAbs ≤ 308 then
      let ten := Float.ofScientific 1 false e.natAbs
      if 0 ≤ e then
        let y := x * ten
        if y.isInf then none else some y
      else some (x / ten)
    else if x == 0.0 then some x
    else if 0 ≤ e then none
    else scaleTen (x / 1e308) (e + 308) fuel

/-- The largest exponent that is read digit by digit. -/
def maxExponent : Nat := 2 ^ (31 : Nat) - 1

/-- The floating point number of a text: the leading digits up to `2 ^ 64`, scaled once by the
remaining power of ten. -/
def NumberText.toFloat (t : NumberText) : Option Float :=
  let (whole, skipped) := significand 0 t.whole
  let fraction := t.fraction.getD []
  let (digits, left) := significand whole fraction
  let base : Int := (skipped : Int) - ((fraction.length - left : Nat) : Int)
  let signed (x : Float) : Float := if t.negative then -x else x
  match t.exponent with
  | none => (scaleTen digits.toUInt64.toFloat base 4).map signed
  | some (minus, es) =>
    let e := naturalOf es
    if e > maxExponent then
      if digits ≠ 0 && !minus then none else some (signed 0.0)
    else
      let total :=
        if minus then max (base - e) (-2 ^ (31 : Nat)) else min (base + e) (2 ^ (31 : Nat) - 1)
      (scaleTen digits.toUInt64.toFloat total 4).map signed

/-- An integer within the bounds stays an integer; minus zero and every other number becomes a
floating point number. -/
def ofNumberChars (cs : List Char) : Option Json :=
  (NumberText.ofChars cs).bind fun t =>
    let n := naturalOf t.whole
    let value : Int := if t.negative then -(n : Int) else n
    if t.fraction.isNone && t.exponent.isNone && minInteger ≤ value && value ≤ maxInteger
        && !(t.negative && n == 0) then
      some (.int value)
    else t.toFloat.map .float

end Discussion.Json
