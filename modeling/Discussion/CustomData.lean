import Discussion.Error
import Discussion.Json.Reader
import Discussion.Json.Writer
import Discussion.Text.Blank

namespace Discussion

/-- What a host attaches to a comment, either as JSON text or as the fields it stands for. -/
inductive CustomData where
  | text (json : String)
  | fields (entries : Json.Fields)

namespace CustomData

instance : Inhabited CustomData := ⟨.text ""⟩

/-- The fields of a text. A blank text has none. -/
def fieldsOf (json : String) : Except Error Json.Fields :=
  if Text.isBlankText json then pure []
  else
    match Json.parseObject json with
    | some entries => pure entries
    | none => throw .customData

/-- The text of fields. Without fields it is empty. -/
def textOf (entries : Json.Fields) : String :=
  if entries.isEmpty then "" else Json.write (.object entries)

/-- The fields, whichever form is held. -/
def toFields : CustomData → Except Error Json.Fields
  | .text json => fieldsOf json
  | .fields entries => pure entries

/-- The text, whichever form is held. -/
def toText : CustomData → String
  | .text json => json
  | .fields entries => textOf entries

/-- Holds the fields from now on, if the text has any; a malformed text stays. -/
def asFields (d : CustomData) : Except Error (Json.Fields × CustomData) := do
  let entries ← d.toFields
  return (entries, .fields entries)

/-- Holds the text from now on. -/
def asText (d : CustomData) : String × CustomData :=
  (d.toText, .text d.toText)

end CustomData

end Discussion
