namespace Discussion.Decimal

-- Powers are those of the core library, whatever else is in scope.
attribute [local instance (high)] instPowNat

/-- A finite binary number `mantissa * 2 ^ exponent`; `narrow` when the next smaller number is
only half as far away as the next larger one. -/
structure Binary where
  mantissa : Nat
  exponent : Int
  narrow : Bool
deriving DecidableEq, Repr

/-- The number with the given 64-bit pattern, without its sign. -/
def Binary.ofBits (bits : Nat) : Binary :=
  let fraction : Nat := bits % 2 ^ (52 : Nat)
  let biased : Nat := bits / 2 ^ (52 : Nat) % 2 ^ (11 : Nat)
  if biased = 0 then ⟨fraction, -1074, false⟩
  else ⟨2 ^ (52 : Nat) + fraction, (biased : Int) - 1075, fraction == 0 && biased > 1⟩

/-- A decimal number `digits * 10 ^ exponent`. -/
structure Numeral where
  digits : Nat
  exponent : Int
deriving DecidableEq, Repr

def Numeral.trimZeros (d : Numeral) : Nat → Numeral
  | 0 => d
  | fuel + 1 =>
    if d.digits ≠ 0 ∧ d.digits % 10 = 0 then
      trimZeros ⟨d.digits / 10, d.exponent + 1⟩ fuel
    else d

def digitCount (n : Nat) : Nat :=
  if n = 0 then 0 else (Nat.toDigits 10 n).length

/-- The exponent of the leading decimal digit of `num / den`, both positive. -/
def leading (num den : Nat) : Int :=
  if den ≤ num then (digitCount (num / den) : Int) - 1
  else -(digitCount ((den + num - 1) / num - 1) : Int)

def power (base : Nat) (e : Int) : Nat × Nat :=
  if 0 ≤ e then (base ^ e.toNat, 1) else (1, base ^ (-e).toNat)

/-- Which of two equally near decimal numbers is taken. -/
inductive Tie where
  | toEven
  | awayFromZero
deriving DecidableEq, Repr

/-- Whether the smaller one of two equally near numbers is taken. -/
def Tie.takesBelow (tie : Tie) (below : Nat) : Bool :=
  match tie with
  | .toEven => below % 2 == 0
  | .awayFromZero => false

/-- The multiple of `10 ^ e` nearest to the number among those that read back to it, if there is
one. -/
def candidate (tie : Tie) (b : Binary) (e : Int) : Option Numeral :=
  let (two, half) := power 2 (b.exponent - 2)
  let (ten, tenth) := power 10 e
  -- a multiple `d` stands for `d * scale` and the number for `4 * mantissa * unit`
  let scale := ten * half
  let unit := two * tenth
  let value := 4 * b.mantissa * unit
  let low := (4 * b.mantissa - if b.narrow then 1 else 2) * unit
  let high := (4 * b.mantissa + 2) * unit
  let even := b.mantissa % 2 = 0
  let below := value / scale
  let above := below + 1
  let belowFits := low < below * scale || (even && low == below * scale)
  let aboveFits := above * scale < high || (even && high == above * scale)
  let toBelow := value - below * scale
  let toAbove := above * scale - value
  match belowFits, aboveFits with
  | false, false => none
  | true, false => some ⟨below, e⟩
  | false, true => some ⟨above, e⟩
  | true, true =>
    if toBelow < toAbove || (toBelow == toAbove && tie.takesBelow below) then some ⟨below, e⟩
    else some ⟨above, e⟩

/-- The number in the fewest digits that read back to it. Seventeen digits always do. -/
def shortest (tie : Tie) (b : Binary) : Numeral :=
  if b.mantissa = 0 then ⟨0, 0⟩
  else
    let (two, half) := power 2 b.exponent
    let top := leading (b.mantissa * two) half
    let grids := (List.range 17).map fun (n : Nat) => top - (n : Int)
    match grids.findSome? (candidate tie b) with
    | some d => d.trimZeros 20
    | none => ⟨b.mantissa * two / half, 0⟩

end Discussion.Decimal
