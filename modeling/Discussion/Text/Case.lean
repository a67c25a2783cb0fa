import Discussion.Text.Capitals

namespace Discussion.Text

def CaseRun.covers (r : CaseRun) (n : Nat) : Bool :=
  r.first ≤ n && n ≤ r.last && (n - r.first) % r.step == 0

/-- The capital form of one character, which may take up to three characters. -/
def upperChar (c : Char) : List Char :=
  match upperExpansions.find? fun e => e.1 == c.toNat with
  | some e => e.2.map Char.ofNat
  | none =>
    match upperRuns.find? fun r => r.covers c.toNat with
    | some r => [Char.ofNat (c.toNat + r.offset).toNat]
    | none => [c]

/-- Full Unicode capitals, with the expansions of single characters. -/
def upper (s : String) : String :=
  String.ofList (s.toList.flatMap upperChar)

/-- Lower case for names over ASCII: the capital letters, and the Kelvin sign, whose lower case
is the letter k. -/
def lowerChar (c : Char) : Char :=
  if c = '\u212a' then 'k' else c.toLower

def lower (s : String) : String :=
  String.ofList (s.toList.map lowerChar)

end Discussion.Text
