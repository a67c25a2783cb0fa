import Discussion.Time.Instant
import Discussion.Time.Calendar
import Discussion.Text.Blank
import Discussion.Text.Digits

namespace Discussion.Rfc3339

-- Powers are those of the core library, whatever else is in scope.
attribute [local instance (high)] instPowNat

open Text (isDigit naturalOf naturalDigits)

/-- A number with leading zeros up to a width. -/
def padded (width n : Nat) : List Char :=
  List.replicate (width - (naturalDigits n).length) '0' ++ naturalDigits n

/-- Years from 0 to 9999 have four digits; other years carry a sign. -/
def writeYear (year : Int) : List Char :=
  if 0 ≤ year ∧ year ≤ 9999 then padded 4 year.natAbs
  else (if year < 0 then '-' else '+') :: padded 4 year.natAbs

/-- Nothing for whole seconds, else three, six or nine places. -/
def writeFraction (nanos : Nat) : List Char :=
  if nanos = 0 then []
  else if nanos % 1000000 = 0 then '.' :: padded 3 (nanos / 1000000)
  else if nanos % 1000 = 0 then '.' :: padded 6 (nanos / 1000)
  else '.' :: padded 9 nanos

/-- A moment in universal time. -/
def write (t : Instant) : String :=
  let date := Date.ofDays (t.seconds / 86400)
  let ofDay := (t.seconds % 86400).toNat
  let leap := t.nanos / 1000000000
  String.ofList (writeYear date.year ++ ['-'] ++ padded 2 date.month ++ ['-'] ++ padded 2 date.day
    ++ ['T'] ++ padded 2 (ofDay / 3600) ++ [':'] ++ padded 2 (ofDay / 60 % 60) ++ [':']
    ++ padded 2 (ofDay % 60 + leap) ++ writeFraction (t.nanos % 1000000000) ++ ['Z'])

def skipBlank (cs : List Char) : List Char :=
  cs.dropWhile Text.isBlank

/-- A number of one digit or more, and of at most `width` digits. -/
def readNumber (width : Nat) (cs : List Char) : Option (Nat × List Char) :=
  let digits := (cs.take width).takeWhile isDigit
  if digits.isEmpty then none else some (naturalOf digits, cs.drop digits.length)

/-- Blank characters may stand before a number. -/
def readField (width : Nat) (cs : List Char) : Option (Nat × List Char) :=
  readNumber width (skipBlank cs)

/-- A signed year may have any number of digits. -/
def readYear (cs : List Char) : Option (Int × List Char) :=
  match skipBlank cs with
  | '-' :: rest => (readNumber rest.length rest).map fun r => (-(r.1 : Int), r.2)
  | '+' :: rest => (readNumber rest.length rest).map fun r => ((r.1 : Int), r.2)
  | rest => (readNumber 4 rest).map fun r => ((r.1 : Int), r.2)

/-- Blank characters may stand before a separator. -/
def readMark (mark : Char) (cs : List Char) : Option (List Char) :=
  match skipBlank cs with
  | c :: rest => if c = mark then some rest else none
  | [] => none

/-- Nine places count; further digits are skipped. -/
def readFraction (cs : List Char) : Option (Nat × List Char) :=
  match cs with
  | '.' :: rest =>
    let digits := (rest.take 9).takeWhile isDigit
    if digits.isEmpty then none
    else
      some (naturalOf digits * 10 ^ (9 - digits.length),
        (rest.drop digits.length).dropWhile isDigit)
  | rest => some (0, rest)

/-- An offset from universal time in seconds: `Z`, `UTC`, or a signed count of hours and minutes. -/
def readOffset (cs : List Char) : Option (Int × List Char) :=
  match cs with
  | 'Z' :: rest => some (0, rest)
  | 'z' :: rest => some (0, rest)
  | a :: b :: c :: rest =>
    if [a, b, c].map Char.toUpper = ['U', 'T', 'C'] then some (0, rest)
    else
      let sign : Option Int :=
        if a = '+' then some 1 else if a = '-' ∨ a = '\u2212' then some (-1) else none
      match sign with
      | none => none
      | some sign =>
        if isDigit b && isDigit c then
          match rest.dropWhile fun c => c == ':' || Text.isBlank c with
          | d :: e :: rest =>
            if isDigit d && isDigit e && naturalOf [d, e] < 60 then
              some (sign * (naturalOf [b, c] * 3600 + naturalOf [d, e] * 60), rest)
            else none
          | _ => none
        else none
  | _ => none

/-- The moment of a date and a time of day at an offset. Second 60 is the leap second after
second 59. -/
def instantOf (date : Date) (hour minute second nanos : Nat) (offset : Int) : Option Instant :=
  if date.Valid ∧ hour < 24 ∧ minute < 60 ∧ second ≤ 60 ∧ offset.natAbs < 86400 then
    let leap := second / 60
    let seconds := date.toDays * 86400 + hour * 3600 + minute * 60 + (second - leap : Nat)
    if Instant.minSeconds ≤ seconds ∧ seconds ≤ Instant.maxSeconds
        ∧ Instant.minSeconds ≤ seconds - offset ∧ seconds - offset ≤ Instant.maxSeconds then
      some ⟨seconds - offset, nanos + leap * 1000000000⟩
    else none
  else none

/-- Reads a date and a time of day with an offset from universal time. -/
def read (text : String) : Option Instant := do
  let (year, cs) ← readYear text.toList
  let cs ← readMark '-' cs
  let (month, cs) ← readField 2 cs
  let cs ← readMark '-' cs
  let (day, cs) ← readField 2 cs
  let cs ← match cs with
    | c :: rest => if c = 't' ∨ c = 'T' ∨ c = ' ' then some rest else none
    | [] => none
  let (hour, cs) ← readField 2 cs
  let cs ← readMark ':' cs
  let (minute, cs) ← readField 2 cs
  let cs ← readMark ':' cs
  let (second, cs) ← readField 2 cs
  let (nanos, cs) ← readFraction cs
  let (offset, cs) ← readOffset (skipBlank cs)
  if skipBlank cs = [] then instantOf ⟨year, month, day⟩ hour minute second nanos offset else none

end Discussion.Rfc3339
