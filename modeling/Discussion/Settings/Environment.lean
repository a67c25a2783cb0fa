import Discussion.Text.Case

namespace Discussion.Environment

/-- What the names of variables that hold settings start with. -/
def marker : List Char := "COMMENTS_".toList

/-- A name without the markers it starts with. -/
def dropMarkers : List Char → List Char
  | 'C' :: 'O' :: 'M' :: 'M' :: 'E' :: 'N' :: 'T' :: 'S' :: '_' :: rest => dropMarkers rest
  | name => name

/-- Two underscores separate the names on a path. -/
def separate : List Char → List Char
  | '_' :: '_' :: rest => '.' :: separate rest
  | c :: rest => c :: separate rest
  | [] => []

/-- The setting that a variable is for. -/
def settingOf? (name : String) : Option String :=
  if marker.isPrefixOf name.toList then
    some (Text.lower (String.ofList (separate (dropMarkers name.toList))))
  else none

end Discussion.Environment
