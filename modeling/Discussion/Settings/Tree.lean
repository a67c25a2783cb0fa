import Discussion.Dictionary
import Discussion.Settings.Path

namespace Discussion

-- Powers are those of the core library, whatever else is in scope.
attribute [local instance (high)] instPowNat

/-- A value of a configuration, before it is known what it is for. The items of a list that nobody
has set are null. -/
inductive Setting where
  | null
  | bool (value : Bool)
  | int (value : Int)
  | float (value : Float)
  | text (value : String)
  | list (items : List Setting)
  | table (fields : List (String × Setting))
deriving Inhabited

namespace Setting

/-- The fields of a table; other values have none. -/
def fields : Setting → Dictionary Setting
  | .table fs => fs
  | _ => []

/-- The items of a list; other values have none. -/
def items : Setting → List Setting
  | .list vs => vs
  | _ => []

mutual

/-- Sets a field of a table; a target of another kind gives place to a table. The fields of a table
are set one by one in the table that is already there. -/
def place (target : Setting) (key : String) : Setting → Setting
  | .table incoming =>
    let inner := (Dictionary.find? target.fields key).getD (.table [])
    .table (Dictionary.insert target.fields key (placeAll inner incoming))
  | value => .table (Dictionary.insert target.fields key value)
termination_by structural value => value

def placeAll (target : Setting) : List (String × Setting) → Setting
  | [] => target
  | (key, value) :: rest => placeAll (place target key value) rest
termination_by structural incoming => incoming

end

/-- The most items of a list. -/
def maxItems : Nat := 2 ^ (24 : Nat)

/-- Where an index points to in a list of the given length, if a list reaches there. -/
def position? (length : Nat) (index : Int) : Option Nat :=
  let position := if index < 0 then index + length else index
  if 0 ≤ position ∧ position < maxItems then some position.toNat else none

/-- Sets the value at the end of a path. What stands in the way gives place to a table or a list,
and a list grows up to the index. -/
def placeAt? (target : Setting) (path : SettingPath) (value : Setting) : Option Setting :=
  match path with
  | [] => some value
  | [.field key] => some (place target key value)
  | .field key :: rest =>
    let inner := (Dictionary.find? target.fields key).getD .null
    (placeAt? inner rest value).map fun inner =>
      .table (Dictionary.insert target.fields key inner)
  | .item index :: rest =>
    match position? target.items.length index with
    | none => none
    | some i =>
      let missing := List.replicate (i + 1 - target.items.length) .null
      let inner := target.items[i]?.getD .null
      (placeAt? inner rest value).map fun inner => .list ((target.items ++ missing).set i inner)

end Setting

end Discussion
