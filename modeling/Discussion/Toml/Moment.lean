import Discussion.Toml.Token

namespace Discussion.Toml

open Text (isDigit naturalOf)

/-- The text of a number with a number of digits at the start, and the rest. -/
def fixedDigits (width : Nat) (cs : List Char) : Option (List Char × List Char) :=
  if (cs.take width).length = width && (cs.take width).all isDigit then
    some (cs.take width, cs.drop width)
  else none

def expect (c : Char) : List Char → Option (List Char)
  | d :: rest => if c = d then some rest else none
  | [] => none

/-- A date, whose days are checked up to 31 only. -/
def datePart (cs : List Char) : Option (List Char × List Char) := do
  let (year, cs) ← fixedDigits 4 cs
  let cs ← expect '-' cs
  let (month, cs) ← fixedDigits 2 cs
  let cs ← expect '-' cs
  let (day, cs) ← fixedDigits 2 cs
  let m := naturalOf month
  let d := naturalOf day
  if 1 ≤ m ∧ m ≤ 12 ∧ 1 ≤ d ∧ d ≤ 31 then
    return (year ++ ['-'] ++ month ++ ['-'] ++ day, cs)
  else none

/-- Nine places count, and zeros at the end are not written. -/
def fractionPart (cs : List Char) : Option (List Char × List Char) :=
  match cs with
  | '.' :: rest =>
    let places := rest.takeWhile isDigit
    if places.isEmpty then none
    else
      let kept := ((places.take 9).reverse.dropWhile (· == '0')).reverse
      some (if kept.isEmpty then [] else '.' :: kept, rest.dropWhile isDigit)
  | cs => some ([], cs)

/-- A time of day. Hour 24 is one. -/
def timePart (cs : List Char) : Option (List Char × List Char) := do
  let (hour, cs) ← fixedDigits 2 cs
  let cs ← expect ':' cs
  let (minute, cs) ← fixedDigits 2 cs
  let cs ← expect ':' cs
  let (second, cs) ← fixedDigits 2 cs
  let (fraction, cs) ← fractionPart cs
  if naturalOf hour ≤ 24 ∧ naturalOf minute ≤ 59 ∧ naturalOf second ≤ 59 then
    return (hour ++ [':'] ++ minute ++ [':'] ++ second ++ fraction, cs)
  else none

/-- An offset from universal time, if there is one. Hour zero has no sign of its own. -/
def offsetPart (cs : List Char) : Option (List Char × List Char) := do
  match cs with
  | [] => return ([], [])
  | sign :: rest =>
    if sign = 'Z' ∨ sign = 'z' then return (['Z'], rest)
    else if sign = '+' ∨ sign = '-' then
      let (hours, rest) ← fixedDigits 2 rest
      let rest ← expect ':' rest
      let (minutes, rest) ← fixedDigits 2 rest
      let sign := if hours = ['0', '0'] then '+' else sign
      return (sign :: hours ++ [':'] ++ minutes, rest)
    else none

/-- The time of day after a date, if there is one. -/
def dayTimePart (cs : List Char) : Option (List Char × List Char) :=
  match cs with
  | [] => some ([], [])
  | mark :: rest =>
    if mark = 'T' ∨ mark = 't' ∨ mark = ' ' then
      (timePart rest).map fun r => ('T' :: r.1, r.2)
    else some ([], cs)

/-- The usual text of a moment: a time of day, or a date that a time of day and an offset may
follow. -/
def momentText (cs : List Char) : Option (List Char) := do
  if cs.drop 2 |>.head? |>.any (· == ':') then
    let (time, rest) ← timePart cs
    if rest.isEmpty then return time else none
  else
    let (date, rest) ← datePart cs
    let (time, rest) ← dayTimePart rest
    let (offset, rest) ← offsetPart rest
    if rest.isEmpty then return date ++ time ++ offset else none

/-- The time of day goes on after its hour. -/
def restOfTime (ts : List Token) : Option (List Char × List Token) :=
  match ts with
  | .bare minutes :: .colon :: .bare seconds :: ts =>
    let (fraction, ts) := match ts with
      | .period :: .bare cs :: ts => ('.' :: cs, ts)
      | ts => ([], ts)
    let (plus, ts) := match ts with
      | .plus :: .bare cs :: ts => ('+' :: cs, ts)
      | ts => ([], ts)
    let (colon, ts) := match ts with
      | .colon :: .bare cs :: ts => (':' :: cs, ts)
      | ts => ([], ts)
    some (minutes ++ [':'] ++ seconds ++ fraction ++ plus ++ colon, ts)
  | _ => none

/-- The characters of a moment that starts with the given ones. One space may stand between the date
and the time of day. -/
def momentChars (cs : List Char) (ts : List Token) : Option (List Char × List Token) :=
  let (cs, ts) := match ts with
    | .blank [' '] :: .bare hour :: ts => (cs ++ [' '] ++ hour, ts)
    | ts => (cs, ts)
  match ts with
  | .colon :: ts => (restOfTime ts).map fun r => (cs ++ [':'] ++ r.1, r.2)
  | ts => some (cs, ts)

/-- A text without quotes is a moment where it holds the mark of a time of day, or a hyphen that is
neither its sign nor the sign of an exponent. -/
def isMoment (cs : List Char) : Bool :=
  cs.contains 'T' || cs.contains 't'
    || ((cs.drop 1).contains '-' && !hasSignedExponent cs)
where
  hasSignedExponent : List Char → Bool
    | [] => false
    | c :: rest => ((c == 'e' || c == 'E') && rest.head? == some '-') || hasSignedExponent rest

end Discussion.Toml
