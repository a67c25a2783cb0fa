namespace Discussion.Text

/-- Closed ranges of the code points that have the Unicode property White_Space. -/
def blankRanges : List (Nat × Nat) := [
  (0x09, 0x0D), (0x20, 0x20), (0x85, 0x85), (0xA0, 0xA0), (0x1680, 0x1680), (0x2000, 0x200A),
  (0x2028, 0x2029), (0x202F, 0x202F), (0x205F, 0x205F), (0x3000, 0x3000)]

def isBlank (c : Char) : Bool :=
  blankRanges.any fun r => r.1 ≤ c.toNat && c.toNat ≤ r.2

/-- Removes blank characters from both ends. -/
def trimChars (cs : List Char) : List Char :=
  ((cs.dropWhile isBlank).reverse.dropWhile isBlank).reverse

def trim (s : String) : String :=
  String.ofList (trimChars s.toList)

/-- A text without a character that is not blank. -/
def isBlankText (s : String) : Bool :=
  s.toList.all isBlank

theorem trimChars_eq_nil_of_all {cs : List Char} (h : cs.all isBlank) : trimChars cs = [] := by
  have hd : cs.dropWhile isBlank = [] := by
    induction cs with
    | nil => rfl
    | cons c cs ih =>
      simp only [List.all_cons, Bool.and_eq_true] at h
      simp [h.1, ih h.2]
  simp [trimChars, hd]

end Discussion.Text
