import Discussion.Text.Invisible

namespace Discussion.Text

def isInvisible (c : Char) : Bool :=
  invisibleRanges.any fun r => r.1 ≤ c.toNat && c.toNat ≤ r.2

/-- The digits of a number in base sixteen, in lower case and without leading zeros. -/
def hexDigits (n : Nat) : List Char :=
  Nat.toDigits 16 n

/-- A quote or backslash takes a backslash, four controls have a letter, and every other
character without a glyph is written by its code point. -/
def quoteChar (c : Char) : List Char :=
  match c with
  | '"' => ['\\', '"']
  | '\\' => ['\\', '\\']
  | '\t' => ['\\', 't']
  | '\n' => ['\\', 'n']
  | '\r' => ['\\', 'r']
  | '\x00' => ['\\', '0']
  | c => if isInvisible c then ['\\', 'u', '\x7b'] ++ hexDigits c.toNat ++ ['\x7d'] else [c]

/-- A text between double quotes, readable on one line. -/
def quoted (s : String) : String :=
  String.ofList (['"'] ++ s.toList.flatMap quoteChar ++ ['"'])

/-- Pairs of quoted texts between braces. -/
def quotedPairs (ps : List (String × String)) : String :=
  "\x7b" ++ ", ".intercalate (ps.map fun p => quoted p.1 ++ ": " ++ quoted p.2) ++ "\x7d"

end Discussion.Text
