import Discussion.Text.Digits

namespace Discussion

/-- A step on the way to a setting: to a field of a table, or to an item of a list, where a negative
index counts from the end. -/
inductive PathStep where
  | field (name : String)
  | item (index : Int)
deriving DecidableEq, Repr

/-- The way to a setting from the table of all settings. -/
abbrev SettingPath := List PathStep

namespace SettingPath

def isNameChar (c : Char) : Bool :=
  Text.isDigit c || ('a' ≤ c && c ≤ 'z') || ('A' ≤ c && c ≤ 'Z') || c == ' ' || c == '_' || c == '-'

def isGap (c : Char) : Bool :=
  c == ' ' || c == '\t'

/-- The index between two brackets, with gaps around it and without a plus sign. -/
def indexOf? (cs : List Char) : Option Int :=
  let cs := ((cs.dropWhile isGap).reverse.dropWhile isGap).reverse
  if cs.head? == some '+' then none else Text.integerOf? cs

/-- The steps of a text: a point stands before each name, and brackets around each index. -/
def stepsOf? (cs : List Char) : Option SettingPath :=
  match cs with
  | [] => some []
  | '.' :: rest =>
    have := (List.dropWhile_sublist (l := rest) isNameChar).length_le
    let name := rest.takeWhile isNameChar
    if name.isEmpty then none
    else (stepsOf? (rest.dropWhile isNameChar)).map fun steps =>
      .field (String.ofList name) :: steps
  | '[' :: rest =>
    have := (List.dropWhile_sublist (l := rest) (· != ']')).length_le
    match _h : rest.dropWhile (· != ']') with
    | [] => none
    | _ :: after =>
      match indexOf? (rest.takeWhile (· != ']')) with
      | none => none
      | some index => (stepsOf? after).map fun steps => .item index :: steps
  | _ => none
termination_by cs.length
decreasing_by all_goals simp_all only [List.length_cons]; omega

/-- The path that a text stands for. It starts with the name of a field. -/
def ofText? (text : String) : Option SettingPath :=
  stepsOf? ('.' :: text.toList)

end SettingPath

end Discussion
