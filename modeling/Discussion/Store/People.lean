import Discussion.Store.Basic

namespace Discussion.Store

/-- The known people with these ids, in the order of the ids. -/
def peopleByIds (s : Store) (ids : List UserId) : List Person :=
  s.people.filter fun p => ids.contains p.id

/-- Sets a person in a list that is ordered by id. -/
def placePerson (p : Person) : List Person → List Person
  | [] => [p]
  | q :: rest =>
    if p.id < q.id then p :: q :: rest
    else if p.id = q.id then p :: rest
    else q :: placePerson p rest

def setPerson (s : Store) (p : Person) : Store :=
  { s with people := placePerson p s.people }

end Discussion.Store
