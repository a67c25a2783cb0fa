import Discussion.Json.Value
import Discussion.SectionKey

namespace Discussion.Json

-- Powers are those of the core library, whatever else is in scope.
attribute [local instance (high)] instPowNat

/-- Where the fields of a record come from: an object with their names, or a list in which they
follow one another. -/
inductive FieldSource where
  | named (fields : Fields)
  | listed (items : List Json)

/-- Reads fields in the order in which a record declares them. -/
abbrev RecordReader := StateT FieldSource Option

namespace RecordReader

variable {α : Type}

/-- The value of the next field, if it is there. -/
def next (name : String) : RecordReader (Option Json) := fun source =>
  match source with
  | .named fields => some (Dictionary.find? fields name, .named fields)
  | .listed [] => some (none, .listed [])
  | .listed (item :: rest) => some (some item, .listed rest)

/-- A field that must be there. -/
def required (name : String) (read : Json → Option α) : RecordReader α := do
  match ← next name with
  | some value => read value
  | none => failure

/-- A field that takes a given value where it is missing. -/
def orElse (name : String) (missing : α) (read : Json → Option α) : RecordReader α := do
  match ← next name with
  | some value => read value
  | none => return missing

/-- A value that may be null. -/
def nullable (read : Json → Option α) : Json → Option (Option α)
  | .null => some none
  | value => (read value).map some

/-- A field that may be null, or missing in an object. In a list its place must be taken. -/
def optional (name : String) (read : Json → Option α) : RecordReader (Option α) := fun source =>
  match source with
  | .named _ => orElse name none (nullable read) source
  | .listed _ => required name (nullable read) source

/-- Reads a record. Unknown names are skipped, but a list may not be too long. -/
def read (r : RecordReader α) : Json → Option α
  | .object fields => (r.run (.named fields)).map (·.1)
  | .list items =>
    match r.run (.listed items) with
    | some (value, .listed []) => some value
    | _ => none
  | _ => none

end RecordReader

def bool? : Json → Option Bool
  | .bool value => some value
  | _ => none

def text? : Json → Option String
  | .text value => some value
  | _ => none

/-- An integer between two bounds, both included. -/
def intBetween? (least most : Int) : Json → Option Int
  | .int value => if least ≤ value ∧ value ≤ most then some value else none
  | _ => none

/-- An id, a counter or a page number. -/
def number? : Json → Option Int :=
  intBetween? minNumber maxNumber

/-- The number of a text format. -/
def format? : Json → Option TextFormat :=
  intBetween? (-2 ^ (31 : Nat)) (2 ^ (31 : Nat) - 1)

def list? {α : Type} (read : Json → Option α) : Json → Option (List α)
  | .list items => items.mapM read
  | _ => none

/-- Null stands for nothing. -/
def ofOption {α : Type} (write : α → Json) : Option α → Json
  | some value => write value
  | none => .null

end Discussion.Json
