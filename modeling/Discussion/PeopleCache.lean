import Discussion.Program

namespace Discussion

/-- The people looked up so far: those found, and the ids of those who do not exist. -/
structure PeopleCache where
  found : List Person := []
  missing : List UserId := []
deriving DecidableEq, Repr, Inhabited

namespace PeopleCache

def find? (c : PeopleCache) (id : UserId) : Option Person :=
  c.found.find? (·.id == id)

def knows (c : PeopleCache) (id : UserId) : Bool :=
  (c.find? id).isSome || c.missing.contains id

/-- Puts a number in its place, unless it is there already. -/
def place (n : Int) : List Int → List Int
  | [] => [n]
  | m :: rest =>
    if n < m then n :: m :: rest
    else if n = m then m :: rest
    else m :: place n rest

/-- The ids to ask for, each once and in increasing order: the wanted one and the unknown ones of a
batch. -/
def wanted (c : PeopleCache) (id : UserId) (batch : List UserId) : List UserId :=
  ((batch ++ [id]).filter fun u => !c.knows u).foldl (fun ids u => place u ids) []

/-- Takes in an answer to a question for `ids`. -/
def learn (c : PeopleCache) (ids : List UserId) (people : List Person) : PeopleCache :=
  let found := people.foldl (fun found p => found.filter (·.id != p.id) ++ [p]) c.found
  let absent := ids.filter fun u => !found.any (·.id == u) && !c.missing.contains u
  { found, missing := c.missing ++ absent }

/-- The person with an id. Where the id is not known yet, it is asked for together with a batch of
others. -/
def get (c : PeopleCache) (id : UserId) (batch : List UserId) :
    Action (Option Person × PeopleCache) := do
  if c.knows id then return (c.find? id, c)
  let ids := c.wanted id batch
  let people ← Action.store (.peopleByIds ids)
  let c := c.learn ids people
  return (c.find? id, c)

end PeopleCache

end Discussion
