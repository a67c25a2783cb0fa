import Discussion.Json.Reader
import Discussion.Settings.Convert
import Discussion.Toml.Document

namespace Discussion

-- Powers are those of the core library, whatever else is in scope.
attribute [local instance (high)] instPowNat

namespace Setting

mutual

/-- The setting that a JSON value stands for. Integers beyond 64 bits with a sign become floating
point numbers. -/
def ofJson : Json → Setting
  | .null => .null
  | .bool value => .bool value
  | .int n => if n < 2 ^ (63 : Nat) then .int n else .float n.toNat.toUInt64.toFloat
  | .float value => .float value
  | .text value => .text value
  | .list items => .list (itemsOfJson items)
  | .object fields => .table (fieldsOfJson fields)
termination_by structural value => value

def itemsOfJson : List Json → List Setting
  | [] => []
  | item :: rest => ofJson item :: itemsOfJson rest
termination_by structural items => items

def fieldsOfJson : List (String × Json) → List (String × Setting)
  | [] => []
  | (key, value) :: rest => (key, ofJson value) :: fieldsOfJson rest
termination_by structural fields => fields

end

end Setting

namespace Settings

/-- The formats of the documents that hold settings. -/
inductive Format where
  | toml
  | json

namespace Format

def all : List Format := [.toml, .json]

/-- How the names of files in a format end. -/
def ending : Format → String
  | .toml => ".toml"
  | .json => ".json"

/-- The fields of a document. A JSON value that is no object has none. -/
def read (format : Format) (text : String) : Except SettingsError (Dictionary Setting) :=
  match format with
  | .toml =>
    match Toml.read text with
    | some fields => pure fields
    | none => throw .brokenFile
  | .json =>
    match Json.parse text with
    | some value => pure (Setting.ofJson value).fields
    | none => throw .brokenFile

end Format

/-- The reverse of a path of a file, without slashes at its end and single points after them. -/
def dropSlashes : List Char → List Char
  | '/' :: rest => dropSlashes rest
  | '.' :: '/' :: rest => dropSlashes rest
  | cs => cs

/-- The file of a name: the one of exactly this name, if it has the ending of a format, else the one
with the ending of a format added. -/
def document? (files : Dictionary String) (name : String) : Option (Format × String) :=
  match Dictionary.find? files name with
  | some text => (Format.all.find? fun f => name.endsWith f.ending).map (·, text)
  | none =>
    let stem := String.ofList (dropSlashes name.toList.reverse).reverse
    Format.all.findSome? fun f => (Dictionary.find? files (stem ++ f.ending)).map (f, ·)

end Settings

end Discussion
