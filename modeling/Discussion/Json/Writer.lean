import Discussion.Json.Value
import Discussion.Decimal.Layout

namespace Discussion.Json

/-- Numbers are written in the fewest digits that read back, positionally from `1e-5` and below
`1e16`, with a point in each and a sign in each exponent. Of two equally near numbers the even one
is written. What is no number is null. -/
def numberLayout : Decimal.Layout where
  tie := .toEven
  plainFrom := some (-5)
  plainBelow := some 16
  pointZero := true
  expPlus := true
  nan := "null"
  infinity := "null"
  minusInfinity := "null"

def hexDigit (n : Nat) : Char :=
  Nat.digitChar n

/-- Quotes, backslashes and control characters are escaped, and nothing else. -/
def escapeChar (c : Char) : List Char :=
  match c with
  | '"' => ['\\', '"']
  | '\\' => ['\\', '\\']
  | '\x08' => ['\\', 'b']
  | '\x0c' => ['\\', 'f']
  | '\n' => ['\\', 'n']
  | '\r' => ['\\', 'r']
  | '\t' => ['\\', 't']
  | c =>
    if c.toNat < 0x20 then
      ['\\', 'u', '0', '0', hexDigit (c.toNat / 16), hexDigit (c.toNat % 16)]
    else [c]

def renderText (s : String) : List Char :=
  '"' :: s.toList.flatMap escapeChar ++ ['"']

mutual

/-- The compact text of a value. -/
def render : Json → List Char
  | .null => ['n', 'u', 'l', 'l']
  | .bool true => ['t', 'r', 'u', 'e']
  | .bool false => ['f', 'a', 'l', 's', 'e']
  | .int n => Text.integerDigits n
  | .float x => numberLayout.float x
  | .text s => renderText s
  | .list items => '[' :: renderItems items ++ [']']
  | .object fields => '\x7b' :: renderFields fields ++ ['\x7d']
termination_by structural j => j

def renderItems : List Json → List Char
  | [] => []
  | j :: rest => render j ++ renderMoreItems rest
termination_by structural items => items

def renderMoreItems : List Json → List Char
  | [] => []
  | j :: rest => ',' :: render j ++ renderMoreItems rest
termination_by structural items => items

def renderFields : List (String × Json) → List Char
  | [] => []
  | (k, j) :: rest => renderText k ++ ':' :: render j ++ renderMoreFields rest
termination_by structural fields => fields

def renderMoreFields : List (String × Json) → List Char
  | [] => []
  | (k, j) :: rest => ',' :: renderText k ++ ':' :: render j ++ renderMoreFields rest
termination_by structural fields => fields

end

def write (j : Json) : String :=
  String.ofList (render j)

end Discussion.Json
