import Discussion.Toml.Node
import Discussion.Toml.Number

namespace Discussion.Toml

def skipBlank : List Token → List Token
  | .blank _ :: rest => rest
  | ts => ts

/-- Blank characters and line ends. -/
def skipLines : List Token → List Token
  | .blank _ :: rest => skipLines rest
  | .newline :: rest => skipLines rest
  | ts => ts

theorem skipBlank_length (ts : List Token) : (skipBlank ts).length ≤ ts.length := by
  unfold skipBlank
  split <;> simp

/-- The text of a key, which does not go over many lines. -/
def keyText? : Token → Option String
  | .bare chars => some (String.ofList chars)
  | .quoted text false => some text
  | _ => none

/-- A dotted key: the keys on its way, the last of them apart. -/
def dottedKey (ts : List Token) : Option ((List String × String) × List Token) :=
  match ts with
  | [] => none
  | t :: rest =>
    match keyText? t with
    | none => none
    | some key =>
      match h : skipBlank rest with
      | .period :: after =>
        have : after.length < rest.length := by
          have := skipBlank_length rest
          rw [h, List.length_cons] at this
          omega
        have := skipBlank_length after
        (dottedKey (skipBlank after)).map fun r => ((key :: r.1.1, r.1.2), r.2)
      | after => some (([], key), after)
termination_by ts.length
decreasing_by simp only [List.length_cons] at *; omega

/-- A value that stands without quotes and starts with the given characters. -/
def bareValue (cs : List Char) (ts : List Token) : Option (Node × List Token) :=
  let number := (number cs ts).map fun r => (Node.value r.1, r.2)
  if cs = ['t', 'r', 'u', 'e'] then some (.value (.bool true), ts)
  else if cs = ['f', 'a', 'l', 's', 'e'] then some (.value (.bool false), ts)
  else if cs = ['i', 'n', 'f'] ∨ cs = ['n', 'a', 'n'] then number
  else
    match cs with
    | [] => none
    | c :: _ =>
      if c == '-' || Text.isDigit c then
        if isMoment cs || ts.head? == some .colon then
          (momentChars cs ts).map fun r => (.moment r.1, r.2)
        else number
      else none

mutual

/-- Reads a value. The fuel bounds the calls. -/
def value (fuel : Nat) (ts : List Token) : Option (Node × List Token) :=
  match fuel, ts with
  | _ + 1, .quoted text _ :: rest => some (.value (.text text), rest)
  | _ + 1, .bare cs :: rest => bareValue cs rest
  | _ + 1, .plus :: .bare cs :: rest => (number cs rest).map fun r => (.value r.1, r.2)
  | fuel + 1, .listOpen :: rest => (items fuel rest).map fun r => (.list r.1, r.2)
  | fuel + 1, .tableOpen :: rest =>
    match skipBlank rest with
    | .tableClose :: rest => some (.inlined [], rest)
    | rest => (pairs fuel [] rest).map fun r => (.inlined r.1, r.2)
  | _, _ => none

/-- The items of a list after its opening. It may go over many lines, and a comma may stand after
its last item. -/
def items (fuel : Nat) (ts : List Token) : Option (List Node × List Token) :=
  match fuel with
  | 0 => none
  | fuel + 1 =>
    match skipLines ts with
    | .listClose :: rest => some ([], rest)
    | ts =>
      match value fuel ts with
      | none => none
      | some (v, ts) =>
        match skipLines ts with
        | .comma :: rest => (items fuel rest).map fun r => (v :: r.1, r.2)
        | .listClose :: rest => some ([v], rest)
        | _ => none

/-- The fields of a table within a line, after its opening. -/
def pairs (fuel : Nat) (fields : Node.Fields) (ts : List Token) :
    Option (Node.Fields × List Token) :=
  match fuel with
  | 0 => none
  | fuel + 1 =>
    match dottedKey ts with
    | some ((path, key), .equals :: rest) =>
      match value fuel (skipBlank rest) with
      | none => none
      | some (v, ts) =>
        match Node.assign fields path key v, skipBlank ts with
        | some fields, .tableClose :: rest => some (fields, rest)
        | some fields, .comma :: rest => pairs fuel fields (skipBlank rest)
        | _, _ => none
    | _ => none

end

end Discussion.Toml
