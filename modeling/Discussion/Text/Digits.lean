namespace Discussion.Text

-- Powers are those of the core library, whatever else is in scope.
attribute [local instance (high)] instPowNat

def isDigit (c : Char) : Bool :=
  '0' ≤ c && c ≤ '9'

def digitValue (c : Char) : Nat :=
  c.toNat - '0'.toNat

/-- The number that a row of decimal digits stands for. -/
def naturalOf (digits : List Char) : Nat :=
  digits.foldl (fun n c => 10 * n + digitValue c) 0

/-- The integer of 64 bits that a row of decimal digits with an optional sign stands for. -/
def integerOf? (cs : List Char) : Option Int :=
  let (negative, digits) := match cs with
    | '-' :: rest => (true, rest)
    | '+' :: rest => (false, rest)
    | cs => (false, cs)
  let n : Int := naturalOf digits
  let value := if negative then -n else n
  if !digits.isEmpty && digits.all isDigit && -2 ^ (63 : Nat) ≤ value && value < 2 ^ (63 : Nat)
  then some value
  else none

def naturalDigits (n : Nat) : List Char :=
  Nat.toDigits 10 n

def integerDigits (n : Int) : List Char :=
  if n < 0 then '-' :: naturalDigits n.natAbs else naturalDigits n.natAbs

def integerText (n : Int) : String :=
  String.ofList (integerDigits n)

def hexValue (c : Char) : Option Nat :=
  if isDigit c then some (digitValue c)
  else if 'a' ≤ c ∧ c ≤ 'f' then some (c.toNat - 'a'.toNat + 10)
  else if 'A' ≤ c ∧ c ≤ 'F' then some (c.toNat - 'A'.toNat + 10)
  else none

/-- The sixteen-bit unit written with four hexadecimal digits. -/
def unitOf (a b c d : Char) : Option Nat := do
  return ((← hexValue a) * 16 + (← hexValue b)) * 256 + (← hexValue c) * 16 + (← hexValue d)

end Discussion.Text
