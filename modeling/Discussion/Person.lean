import Discussion.SectionKey
import Discussion.Text.Blank

namespace Discussion

/-- A user as the host knows them. -/
structure Person where
  id : UserId
  username : String
  firstName : String
  lastName : String
deriving DecidableEq, Repr, Inhabited

/-- First and last name, without the space beside a missing part. -/
def Person.fullName (p : Person) : String :=
  Text.trim (p.firstName ++ " " ++ p.lastName)

end Discussion
