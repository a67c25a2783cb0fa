import Discussion.Dictionary

namespace Discussion

-- Powers are those of the core library, whatever else is in scope.
attribute [local instance (high)] instPowNat

/-- A JSON value. Numbers are integers or 64-bit floating point numbers, and the fields of an
object stand in increasing order of their keys. -/
inductive Json where
  | null
  | bool (value : Bool)
  | int (value : Int)
  | float (value : Float)
  | text (value : String)
  | list (items : List Json)
  | object (fields : List (String × Json))
deriving Inhabited

namespace Json

/-- The fields of an object. -/
abbrev Fields := Dictionary Json

/-- The object with these fields; of several values under one key the last one stays. -/
def record (entries : List (String × Json)) : Json :=
  .object (Dictionary.ofList entries)

mutual

/-- How many containers a value nests. -/
def depth : Json → Nat
  | .list items => depthItems items + 1
  | .object fields => depthFields fields + 1
  | _ => 0
termination_by structural j => j

def depthItems : List Json → Nat
  | [] => 0
  | j :: rest => max j.depth (depthItems rest)
termination_by structural items => items

def depthFields : List (String × Json) → Nat
  | [] => 0
  | (_, j) :: rest => max j.depth (depthFields rest)
termination_by structural fields => fields

end

/-- The most containers that a text may nest. -/
def maxDepth : Nat := 127

/-- The bounds of the integers that stay integers when they are read. -/
def minInteger : Int := -2 ^ (63 : Nat)

def maxInteger : Int := 2 ^ (64 : Nat) - 1

end Json

end Discussion
