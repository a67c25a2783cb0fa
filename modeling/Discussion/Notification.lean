import Discussion.Section

namespace Discussion.Section

/-- What a user has chosen for a section, or for one comment of it. -/
def chosenStatus (s : Section) (user : UserId) (comment : Option Comment) :
    Action (Option Delivery) :=
  Action.store (.choice user s.key (comment.bind (·.id)))

/-- The choice for the comment counts first, then the one for the section, then the component's
default. -/
def status (s : Section) (user : UserId) (comment : Option Comment) : Action Delivery := do
  if comment.isSome then
    if let some status ← s.chosenStatus user comment then
      return status
  if let some status ← s.chosenStatus user none then
    return status
  return s.usualStatus user

/-- Stores a user's choice and tells about it. The default status takes the choice back. -/
def setStatus (s : Section) (user : UserId) (comment : Option Comment)
    (status : Delivery) : Action Unit := do
  let id := comment.bind (·.id)
  Action.store (.choose user s.key id status)
  Action.tell (.chosen s.key id user status)

/-- Users with what they hear, in increasing order of the users. -/
abbrev Recipients := List (UserId × Delivery)

/-- Sets what a user hears; an earlier entry of the user is replaced. -/
def Recipients.insert (r : Recipients) (user : UserId) (status : Delivery) : Recipients :=
  match r with
  | [] => [(user, status)]
  | (u, t) :: rest =>
    if user < u then (user, status) :: (u, t) :: rest
    else if user = u then (user, status) :: rest
    else (u, t) :: insert rest user status

def Recipients.extend (r : Recipients) (more : List (UserId × Delivery)) : Recipients :=
  more.foldl (fun r e => Recipients.insert r e.1 e.2) r

/-- The users who are sent messages about the section or one comment of it. -/
def recipients (s : Section) (comment : Option Comment) : Action Recipients := do
  let auto ← Action.host s.handler (.autoSubscribers s.key)
  let all := Recipients.extend [] (auto.map fun user => (user, s.usualStatus user))
  let all := Recipients.extend all (← Action.store (.choicesFor s.key none))
  match comment.bind (·.id) with
  | none => return all.filter (·.2.notifies)
  | some id =>
    let all := Recipients.extend all (← Action.store (.choicesFor s.key (some id)))
    return all.filter (·.2.notifies)

end Discussion.Section
