namespace Discussion

/-- What a user wants to hear about a section or a comment. `default` stands for no wish of one's
own. -/
inductive Delivery where
  | default
  | off
  | immediate
  | dailyDigest
deriving DecidableEq, Repr, Inhabited

namespace Delivery

/-- The number a status is stored under. The absence of a wish is not stored. -/
def code? : Delivery → Option Int
  | .default => none
  | .off => some 0
  | .immediate => some 1
  | .dailyDigest => some 2

def ofCode? (code : Int) : Option Delivery :=
  if code = 0 then some .off
  else if code = 1 then some .immediate
  else if code = 2 then some .dailyDigest
  else none

def name : Delivery → String
  | .default => "default"
  | .off => "off"
  | .immediate => "immediate"
  | .dailyDigest => "digests"

def ofName? (s : String) : Option Delivery :=
  [.default, .off, .immediate, .dailyDigest].find? fun status => status.name == s

/-- Users with this status are sent messages. -/
def notifies : Delivery → Bool
  | .immediate | .dailyDigest => true
  | _ => false

/-- The statuses from the weakest wish to the strongest. -/
def rank : Delivery → Nat
  | .default => 0
  | .off => 1
  | .immediate => 2
  | .dailyDigest => 3

theorem ofName?_name (s : Delivery) : ofName? s.name = some s := by
  cases s <;> decide

end Delivery

end Discussion
