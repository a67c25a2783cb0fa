import Discussion.Text.Digits

namespace Discussion.Toml

open Text (isDigit)

/-- A token of a document. Comments are left out: what follows one is the end of its line. -/
inductive Token where
  | blank (chars : List Char)
  | newline
  | equals
  | period
  | comma
  | colon
  | plus
  | listOpen
  | listClose
  | tableOpen
  | tableClose
  | bare (chars : List Char)
  | quoted (text : String) (multiline : Bool)
deriving DecidableEq, Repr

def isBlank (c : Char) : Bool :=
  c == ' ' || c == '\t'

/-- The characters of keys and numbers that stand without quotes. -/
def isBareChar (c : Char) : Bool :=
  isDigit c || ('a' ≤ c && c ≤ 'z') || ('A' ≤ c && c ≤ 'Z') || c == '-' || c == '_'

/-- Comments hold no control characters but tabs. -/
def isCommentChar (c : Char) : Bool :=
  c == '\t' || 0x20 ≤ c.toNat

/-- Quoted texts hold no control characters but tabs. -/
def isTextChar (c : Char) : Bool :=
  c == '\t' || (0x20 ≤ c.toNat && c.toNat != 0x7F)

/-- A carriage return before a line feed belongs to it. -/
def joinLineEnds : List Char → List Char
  | '\r' :: '\n' :: rest => '\n' :: joinLineEnds rest
  | c :: rest => c :: joinLineEnds rest
  | [] => []

def escapedChar (c : Char) : Option Char :=
  match c with
  | '"' => some '"'
  | '\\' => some '\\'
  | 'b' => some '\x08'
  | 'f' => some '\x0c'
  | 'n' => some '\n'
  | 'r' => some '\r'
  | 't' => some '\t'
  | _ => none

def charOf (n : Nat) : Option Char :=
  if n.isValidChar then some (Char.ofNat n) else none

/-- What an escape stands for, with the rest after it. A line of a text with many lines may end with
a backslash; then the blank characters that follow do not count. -/
def readEscape (multiline : Bool) : List Char → Option (List Char × List Char)
  | 'u' :: a :: b :: c :: d :: rest => do
    let char ← charOf (← Text.unitOf a b c d)
    return ([char], rest)
  | 'U' :: a :: b :: c :: d :: e :: f :: g :: h :: rest => do
    let char ← charOf ((← Text.unitOf a b c d) * 65536 + (← Text.unitOf e f g h))
    return ([char], rest)
  | c :: rest =>
    if multiline && (isBlank c || c == '\n') then
      match (c :: rest).dropWhile isBlank with
      | '\n' :: after => some ([], after.dropWhile fun c => isBlank c || c == '\n')
      | _ => none
    else (escapedChar c).map fun e => ([e], rest)
  | [] => none

theorem readEscape_length {multiline : Bool} {cs read rest : List Char}
    (h : readEscape multiline cs = some (read, rest)) : rest.length ≤ cs.length := by
  unfold readEscape at h
  split at h
  · simp [Option.bind_eq_some_iff] at h
    obtain ⟨_, _, _, _, _, rfl⟩ := h
    simp only [List.length_cons]
    omega
  · simp [Option.bind_eq_some_iff] at h
    obtain ⟨_, _, _, _, _, _, _, rfl⟩ := h
    simp only [List.length_cons]
    omega
  · rename_i c tail _ _
    split at h
    · split at h
      · rename_i after heq
        have h₁ := (List.dropWhile_suffix isBlank (l := c :: tail)).length_le
        have h₂ := (List.dropWhile_suffix (fun c => isBlank c || c == '\n') (l := after)).length_le
        simp only [Option.some.injEq, Prod.mk.injEq] at h
        obtain ⟨_, rfl⟩ := h
        rw [heq, List.length_cons] at h₁
        omega
      · simp at h
    · simp only [Option.map_eq_some_iff, Prod.mk.injEq] at h
      obtain ⟨_, _, _, rfl⟩ := h
      simp
  · simp at h

/-- The quote around texts with escapes, or around texts without. -/
def quoteOf (escapes : Bool) : Char :=
  if escapes then '"' else '\''

/-- The characters of a quoted text after its opening, and what follows its closing. A text with
many lines closes with three quotes, and up to two more before these belong to it. -/
def readText (multiline escapes : Bool) (cs : List Char) : Option (List Char × List Char) :=
  match cs with
  | [] => none
  | c :: rest =>
    if c = quoteOf escapes then
      if multiline then
        let quotes := c :: rest.takeWhile (· == c)
        if 3 ≤ quotes.length then
          some (quotes.take (min quotes.length 5 - 3), (c :: rest).drop (min quotes.length 5))
        else
          have := (List.dropWhile_suffix (· == c) (l := rest)).length_le
          (readText multiline escapes (rest.dropWhile (· == c))).map fun r => (quotes ++ r.1, r.2)
      else some ([], rest)
    else if c = '\\' && escapes then
      match h : readEscape multiline rest with
      | none => none
      | some (read, after) =>
        have := readEscape_length h
        (readText multiline escapes after).map fun r => (read ++ r.1, r.2)
    else if isTextChar c || (multiline && c == '\n') then
      (readText multiline escapes rest).map fun r => (c :: r.1, r.2)
    else none
termination_by cs.length
decreasing_by all_goals (simp only [List.length_cons] at *; omega)

theorem readText_length {multiline escapes : Bool} {cs read rest : List Char}
    (h : readText multiline escapes cs = some (read, rest)) : rest.length < cs.length := by
  fun_induction readText multiline escapes cs generalizing read rest <;>
    simp only [Option.map_eq_some_iff, Prod.exists, Prod.mk.injEq, Option.some.injEq, reduceCtorEq,
      List.length_cons] at * <;> grind

def dropLineEnd : List Char → List Char
  | '\n' :: rest => rest
  | cs => cs

theorem dropLineEnd_length (cs : List Char) : (dropLineEnd cs).length ≤ cs.length := by
  unfold dropLineEnd
  split <;> simp

/-- A quoted text after its first quote. Three quotes open a text with many lines, and a line end
right after them does not count. -/
def readQuoted (escapes : Bool) (cs : List Char) : Option (Token × List Char) :=
  if cs.take 2 = [quoteOf escapes, quoteOf escapes] then
    (readText true escapes (dropLineEnd (cs.drop 2))).map fun r =>
      (.quoted (String.ofList r.1) true, r.2)
  else
    (readText false escapes cs).map fun r => (.quoted (String.ofList r.1) false, r.2)

theorem readQuoted_length {escapes : Bool} {cs rest : List Char} {t : Token}
    (h : readQuoted escapes cs = some (t, rest)) : rest.length < cs.length := by
  unfold readQuoted at h
  split at h <;> simp only [Option.map_eq_some_iff, Prod.mk.injEq] at h <;>
    obtain ⟨⟨_, _⟩, h, _, rfl⟩ := h <;> have := readText_length h
  · have hd := dropLineEnd_length (cs.drop 2)
    simp only [List.length_drop] at hd ⊢
    omega
  · exact this

/-- The token of a character that is a token by itself. -/
def mark? (c : Char) : Option Token :=
  match c with
  | '\n' => some .newline
  | '=' => some .equals
  | '.' => some .period
  | ',' => some .comma
  | ':' => some .colon
  | '+' => some .plus
  | '[' => some .listOpen
  | ']' => some .listClose
  | '\x7b' => some .tableOpen
  | '\x7d' => some .tableClose
  | _ => none

/-- The tokens of a text whose line ends are line feeds. -/
def tokensOf (cs : List Char) : Option (List Token) :=
  match cs with
  | [] => some []
  | c :: rest =>
    have := (List.dropWhile_suffix isBlank (l := rest)).length_le
    have := (List.dropWhile_suffix isCommentChar (l := rest)).length_le
    have := (List.dropWhile_suffix isBareChar (l := rest)).length_le
    if isBlank c then
      (tokensOf (rest.dropWhile isBlank)).map (.blank (c :: rest.takeWhile isBlank) :: ·)
    else if c = '#' then tokensOf (rest.dropWhile isCommentChar)
    else if isBareChar c then
      (tokensOf (rest.dropWhile isBareChar)).map (.bare (c :: rest.takeWhile isBareChar) :: ·)
    else if c = '"' || c = '\'' then
      match h : readQuoted (c = '"') rest with
      | none => none
      | some (t, after) =>
        have := readQuoted_length h
        (tokensOf after).map (t :: ·)
    else
      match mark? c with
      | none => none
      | some t => (tokensOf rest).map (t :: ·)
termination_by cs.length
decreasing_by all_goals (simp only [List.length_cons] at *; omega)

/-- The tokens of a text. A byte order mark may stand before the first. -/
def tokens (text : String) : Option (List Token) :=
  tokensOf (joinLineEnds (match text.toList with
    | '\ufeff' :: rest => rest
    | chars => chars))

end Discussion.Toml
