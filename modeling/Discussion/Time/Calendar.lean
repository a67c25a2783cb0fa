namespace Discussion

/-- A day of the Gregorian calendar. -/
structure Date where
  year : Int
  month : Nat
  day : Nat
deriving DecidableEq, Repr

namespace Date

def isLeap (year : Int) : Bool :=
  year % 4 == 0 && (year % 100 != 0 || year % 400 == 0)

def monthLength (year : Int) (month : Nat) : Nat :=
  match month with
  | 2 => if isLeap year then 29 else 28
  | 4 | 6 | 9 | 11 => 30
  | _ => 31

def Valid (d : Date) : Prop :=
  1 ≤ d.month ∧ d.month ≤ 12 ∧ 1 ≤ d.day ∧ d.day ≤ monthLength d.year d.month

instance (d : Date) : Decidable d.Valid :=
  inferInstanceAs (Decidable (_ ∧ _))

/-- Days since the start of 1970. Years are counted from March, so that a leap day ends its year. -/
def toDays (d : Date) : Int :=
  let year : Int := if d.month ≤ 2 then d.year - 1 else d.year
  let era : Int := year / 400
  let yearOfEra : Int := year - era * 400
  let monthFromMarch : Int := if d.month > 2 then (d.month : Int) - 3 else d.month + 9
  let dayOfYear : Int := (153 * monthFromMarch + 2) / 5 + d.day - 1
  let dayOfEra : Int := yearOfEra * 365 + yearOfEra / 4 - yearOfEra / 100 + dayOfYear
  era * 146097 + dayOfEra - 719468

def ofDays (days : Int) : Date :=
  let shifted : Int := days + 719468
  let era : Int := shifted / 146097
  let dayOfEra : Int := shifted - era * 146097
  let yearOfEra : Int :=
    (dayOfEra - dayOfEra / 1460 + dayOfEra / 36524 - dayOfEra / 146096) / 365
  let dayOfYear : Int := dayOfEra - (365 * yearOfEra + yearOfEra / 4 - yearOfEra / 100)
  let monthFromMarch : Int := (5 * dayOfYear + 2) / 153
  let day : Int := dayOfYear - (153 * monthFromMarch + 2) / 5 + 1
  let month : Int := if monthFromMarch < 10 then monthFromMarch + 3 else monthFromMarch - 9
  let year : Int := yearOfEra + era * 400
  ⟨if month ≤ 2 then year + 1 else year, month.toNat, day.toNat⟩

end Date

end Discussion
