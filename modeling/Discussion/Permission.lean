import Discussion.SectionKey

namespace Discussion

/-- The host's answer to whether a user, or a guest, holds a permission in a context. -/
abbrev Permissions := String → ContextId → Option UserId → Bool

namespace Permissions

def view : String := "comment:view"

def editAny : String := "comment:editany"

def delete : String := "comment:delete"

end Permissions

/-- A permission given to one user, or without a user to everyone, guests included. -/
structure Grant where
  permission : String
  context : ContextId
  user : Option UserId
deriving DecidableEq, Repr

/-- A fixed table of grants. -/
def Permissions.ofGrants (grants : List Grant) : Permissions := fun permission context user =>
  grants.any fun g =>
    g.permission == permission && g.context == context && (g.user.isNone || g.user == user)

end Discussion
