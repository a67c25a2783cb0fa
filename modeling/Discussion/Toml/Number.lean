import Discussion.Decimal.Nearest
import Discussion.Settings.Tree
import Discussion.Toml.Token

namespace Discussion.Toml

-- Powers are those of the core library, whatever else is in scope.
attribute [local instance (high)] instPowNat

open Text (isDigit hexValue naturalOf)

def isDigitIn (base : Nat) (c : Char) : Bool :=
  (hexValue c).any (· < base)

/-- Underscores stand one by one between digits. -/
def isSpaced : List Char → Bool
  | [] => false
  | ['_'] => false
  | [_] => true
  | '_' :: '_' :: _ => false
  | _ :: rest => isSpaced rest

/-- The digits at the start, without their underscores, and the rest. -/
def digitRun (base : Nat) (cs : List Char) : Option (List Char × List Char) :=
  let isRunChar (c : Char) : Bool := isDigitIn base c || c == '_'
  let run := cs.takeWhile isRunChar
  if isSpaced run && run.head? != some '_' then
    some (run.filter (· != '_'), cs.dropWhile isRunChar)
  else none

/-- A whole number has no superfluous leading zero. -/
def wholeRun (cs : List Char) : Option (List Char × List Char) :=
  match digitRun 10 cs with
  | some ('0' :: _ :: _, _) => none
  | run => run

def dropMinus : List Char → Bool × List Char
  | '-' :: rest => (true, rest)
  | cs => (false, cs)

def signed (negative : Bool) (n : Nat) : Int :=
  if negative then -(n : Int) else n

/-- An integer of 64 bits. -/
def integerSetting (n : Int) : Option Setting :=
  if -2 ^ (63 : Nat) ≤ n ∧ n < 2 ^ (63 : Nat) then some (.int n) else none

def integerIn (base : Nat) (cs : List Char) : Option Setting :=
  match digitRun base cs with
  | some (digits, []) =>
    integerSetting (digits.foldl (fun n c => base * n + (hexValue c).getD 0) 0 : Nat)
  | _ => none

def integer (cs : List Char) : Option Setting :=
  let (negative, body) := dropMinus cs
  match wholeRun body with
  | some (digits, []) => integerSetting (signed negative (naturalOf digits))
  | _ => none

/-- The exponent at the end of a number. A plus sign is a token of its own. -/
def exponent (suffix : List Char) (ts : List Token) : Option (Int × List Token) :=
  match suffix with
  | [] => some (0, ts)
  | mark :: rest =>
    if mark = 'e' ∨ mark = 'E' then
      let (negative, chars, ts) : Bool × List Char × List Token :=
        match rest, ts with
        | [], .plus :: .bare cs :: ts => (false, cs, ts)
        | [], .bare cs :: ts => (false, cs, ts)
        | cs, ts => ((dropMinus cs).1, (dropMinus cs).2, ts)
      match digitRun 10 chars with
      | some (digits, []) => some (signed negative (naturalOf digits), ts)
      | _ => none
    else none

/-- A number with a fraction, an exponent, or both. -/
def floating (cs : List Char) (fraction : Option (List Char)) (ts : List Token) :
    Option (Setting × List Token) := do
  let (negative, body) := dropMinus cs
  let (whole, rest) ← wholeRun body
  let (places, suffix) ← match fraction with
    | none => some ([], rest)
    | some cs => if rest.isEmpty then digitRun 10 cs else none
  let (power, ts) ← exponent suffix ts
  let x ← Decimal.nearest? (naturalOf (whole ++ places)) (power - places.length)
  return (.float (if negative then -x else x), ts)

def infinity : Float := 1.0 / 0.0

def notANumber : Float := 0.0 / 0.0

/-- A number that starts with the given characters. -/
def number (cs : List Char) (ts : List Token) : Option (Setting × List Token) :=
  match cs with
  | '0' :: 'x' :: digits => (integerIn 16 digits).map (·, ts)
  | '0' :: 'o' :: digits => (integerIn 8 digits).map (·, ts)
  | '0' :: 'b' :: digits => (integerIn 2 digits).map (·, ts)
  | cs =>
    if cs.contains 'e' || cs.contains 'E' then floating cs none ts
    else
      match ts with
      | .period :: .bare places :: ts => floating cs (some places) ts
      | .period :: _ => none
      | ts =>
        if cs = ['i', 'n', 'f'] then some (.float infinity, ts)
        else if cs = ['-', 'i', 'n', 'f'] then some (.float (-infinity), ts)
        else if cs = ['n', 'a', 'n'] ∨ cs = ['-', 'n', 'a', 'n'] then some (.float notANumber, ts)
        else (integer cs).map (·, ts)

end Discussion.Toml
