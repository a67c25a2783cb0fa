namespace Discussion

/-- A length of time in nanoseconds. -/
structure Duration where
  nanos : Int
deriving DecidableEq, Repr, Inhabited

namespace Duration

/-- The most seconds of a duration in either direction. -/
def maxSeconds : Int := 9223372036854775

def ofSeconds? (seconds : Int) : Option Duration :=
  if -maxSeconds ≤ seconds ∧ seconds ≤ maxSeconds then some ⟨seconds * 1000000000⟩ else none

/-- Whole seconds, rounded toward zero. -/
def seconds (d : Duration) : Int :=
  d.nanos.tdiv 1000000000

end Duration

/-- A moment: whole seconds since the start of 1970 and the nanoseconds after them. Nanoseconds from
`10 ^ 9` on stand inside a leap second. -/
structure Instant where
  seconds : Int
  nanos : Nat
deriving DecidableEq, Repr, Inhabited

namespace Instant

/-- The bounds of the years that a date can hold, in seconds. -/
def minSeconds : Int := -8334601228800

def maxSeconds : Int := 8210266876799

def ofSeconds (seconds : Int) : Instant := ⟨seconds, 0⟩

def ofSeconds? (seconds : Int) : Option Instant :=
  if minSeconds ≤ seconds ∧ seconds ≤ maxSeconds then some (ofSeconds seconds) else none

/-- The moment without its nanoseconds. -/
def floor (t : Instant) : Instant := ⟨t.seconds, 0⟩

def since (t s : Instant) : Duration :=
  ⟨(t.seconds - s.seconds) * 1000000000 + ((t.nanos : Int) - s.nanos)⟩

/-- `s` is not later than `t`. -/
def notAfter (s t : Instant) : Bool :=
  s.seconds < t.seconds || (s.seconds == t.seconds && s.nanos ≤ t.nanos)

end Instant

end Discussion
