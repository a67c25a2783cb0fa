import Discussion.Json.Number

namespace Discussion.Json

open Text (isDigit unitOf)

/-- A token of a JSON text. -/
inductive Token where
  | listOpen
  | listClose
  | objectOpen
  | objectClose
  | comma
  | colon
  | scalar (value : Json)

/-- The blank characters that may stand between tokens. -/
def isSpace (c : Char) : Bool :=
  c == ' ' || c == '\t' || c == '\n' || c == '\r'

def isNumberChar (c : Char) : Bool :=
  isDigit c || c == '-' || c == '+' || c == '.' || c == 'e' || c == 'E'

def isHighSurrogate (n : Nat) : Bool :=
  0xD800 ≤ n && n ≤ 0xDBFF

def isLowSurrogate (n : Nat) : Bool :=
  0xDC00 ≤ n && n ≤ 0xDFFF

/-- The character of a pair of surrogates. -/
def pairChar (high low : Nat) : Char :=
  Char.ofNat (0x10000 + (high - 0xD800) * 1024 + (low - 0xDC00))

def escapedChar (c : Char) : Option Char :=
  match c with
  | '"' => some '"'
  | '\\' => some '\\'
  | '/' => some '/'
  | 'b' => some '\x08'
  | 'f' => some '\x0c'
  | 'n' => some '\n'
  | 'r' => some '\r'
  | 't' => some '\t'
  | _ => none

/-- The characters of a quoted text after its opening quote, and what follows its closing quote.
Control characters must be escaped, and surrogates come in pairs. -/
def readText : List Char → Option (List Char × List Char)
  | [] => none
  | '"' :: rest => some ([], rest)
  | '\\' :: 'u' :: a :: b :: c :: d :: rest =>
    match unitOf a b c d with
    | none => none
    | some n =>
      if isHighSurrogate n then
        match rest with
        | '\\' :: 'u' :: e :: f :: g :: h :: rest =>
          match unitOf e f g h with
          | none => none
          | some m =>
            if isLowSurrogate m then
              (readText rest).map fun r => (pairChar n m :: r.1, r.2)
            else none
        | _ => none
      else if isLowSurrogate n then none
      else (readText rest).map fun r => (Char.ofNat n :: r.1, r.2)
  | '\\' :: c :: rest =>
    match escapedChar c with
    | none => none
    | some e => (readText rest).map fun r => (e :: r.1, r.2)
  | c :: rest =>
    if c.toNat < 0x20 || c == '\\' then none
    else (readText rest).map fun r => (c :: r.1, r.2)

theorem readText_length {cs read rest : List Char} (h : readText cs = some (read, rest)) :
    rest.length < cs.length := by
  fun_induction readText cs generalizing read rest <;>
    simp only [Option.map_eq_some_iff, Prod.exists, Prod.mk.injEq, Option.some.injEq, reduceCtorEq,
      List.length_cons] at h ⊢ <;> grind

/-- The tokens of a text. -/
def tokens : List Char → Option (List Token)
  | [] => some []
  | c :: rest =>
    if isSpace c then tokens rest
    else if c = '[' then (tokens rest).map (.listOpen :: ·)
    else if c = ']' then (tokens rest).map (.listClose :: ·)
    else if c = '\x7b' then (tokens rest).map (.objectOpen :: ·)
    else if c = '\x7d' then (tokens rest).map (.objectClose :: ·)
    else if c = ',' then (tokens rest).map (.comma :: ·)
    else if c = ':' then (tokens rest).map (.colon :: ·)
    else if c = '"' then
      match h : readText rest with
      | none => none
      | some (chars, after) =>
        have : after.length < rest.length := readText_length h
        (tokens after).map (.scalar (.text (String.ofList chars)) :: ·)
    else if isNumberChar c then
      match ofNumberChars (c :: rest.takeWhile isNumberChar) with
      | none => none
      | some value =>
        have : (rest.dropWhile isNumberChar).length ≤ rest.length :=
          (List.dropWhile_suffix isNumberChar).length_le
        (tokens (rest.dropWhile isNumberChar)).map (.scalar value :: ·)
    else
      match c, rest with
      | 't', 'r' :: 'u' :: 'e' :: rest => (tokens rest).map (.scalar (.bool true) :: ·)
      | 'f', 'a' :: 'l' :: 's' :: 'e' :: rest => (tokens rest).map (.scalar (.bool false) :: ·)
      | 'n', 'u' :: 'l' :: 'l' :: rest => (tokens rest).map (.scalar .null :: ·)
      | _, _ => none
termination_by cs => cs.length
decreasing_by all_goals (simp only [List.length_cons] at *; omega)

end Discussion.Json
