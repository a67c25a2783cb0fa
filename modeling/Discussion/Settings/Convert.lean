import Discussion.Decimal.Layout
import Discussion.Settings.Tree
import Discussion.Text.Case

namespace Discussion

/-- Why settings cannot be read: a value that does not convert to the type of its setting, a value
where a table belongs, a broken file, a broken name of a setting, or an index that no list has. -/
inductive SettingsError where
  | wrongType
  | wrongShape
  | brokenFile
  | brokenName
  | badIndex
deriving DecidableEq, Repr

namespace Setting

/-- Texts that stand for yes or no, in small or capital letters. -/
def yesWords : List String := ["true", "on", "yes"]

def noWords : List String := ["false", "off", "no"]

/-- A number stands for yes unless it is zero. -/
def toBool : Setting → Except SettingsError Bool
  | .bool value => pure value
  | .int value => pure (value != 0)
  | .float value => pure (value != 0.0)
  | .text value =>
    let word := Text.lower value
    if word = "1" || yesWords.contains word then pure true
    else if word = "0" || noWords.contains word then pure false
    else throw .wrongType
  | _ => throw .wrongType

/-- The next integer, of two the one away from zero. Integers beyond 64 bits give the largest or the
smallest of them, and no number gives zero. -/
def roundedInteger (x : Float) : Int :=
  x.round.toInt64.toInt

def toInt : Setting → Except SettingsError Int
  | .bool value => pure (if value then 1 else 0)
  | .int value => pure value
  | .float value => pure (roundedInteger value)
  | .text value =>
    let word := Text.lower value
    if yesWords.contains word then pure 1
    else if noWords.contains word then pure 0
    else
      match Text.integerOf? value.toList with
      | some n => pure n
      | none => throw .wrongType
  | _ => throw .wrongType

/-- Numbers within texts are written without an exponent. Of two equally near numbers the one away
from zero is written. -/
def floatLayout : Decimal.Layout where
  tie := .awayFromZero
  plainFrom := none
  plainBelow := none
  pointZero := false
  expPlus := false
  nan := "NaN"
  infinity := "inf"
  minusInfinity := "-inf"

def toText : Setting → Except SettingsError String
  | .bool value => pure (if value then "true" else "false")
  | .int value => pure (Text.integerText value)
  | .float value => pure (String.ofList (floatLayout.float value))
  | .text value => pure value
  | _ => throw .wrongType

/-- The values of fields with these names. A list gives the values in the order of the names. -/
def fieldValues (names : List String) : Setting → Except SettingsError (List (Option Setting))
  | .table fs => pure (names.map (Dictionary.find? fs))
  | .list items => pure ((List.range names.length).map fun i => items[i]?)
  | _ => throw .wrongShape

/-- The entries of a table. -/
def entries : Setting → Except SettingsError (Dictionary Setting)
  | .table fs => pure fs
  | _ => throw .wrongShape

end Setting

end Discussion
