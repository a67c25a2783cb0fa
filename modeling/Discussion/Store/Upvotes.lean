import Discussion.Store.Basic

namespace Discussion.Store

def upvoted (s : Store) (comment : CommentId) (user : UserId) : Bool :=
  s.votes.contains ⟨comment, user⟩

/-- Records or withdraws an upvote and keeps the comment's counter in step. Tells whether anything
changed. -/
def castVote (s : Store) (comment : CommentId) (user : UserId) (upvote : Bool) : Bool × Store :=
  let vote : Vote := ⟨comment, user⟩
  if s.upvoted comment user = upvote then (false, s)
  else if upvote then
    let s := { s with votes := s.votes ++ [vote] }
    (true, s.mapComment comment fun c => { c with upvotes := c.upvotes + 1 })
  else
    let s := { s with votes := s.votes.filter (· != vote) }
    (true, s.mapComment comment fun c => { c with upvotes := c.upvotes - 1 })

/-- Withdraws every upvote of a user. Tells how many there were. -/
def withdrawVotes (s : Store) (user : UserId) : Nat × Store :=
  (s.votes.countP (·.user == user),
    { s with
      comments := s.comments.map fun c =>
        if s.upvoted c.id user then { c with upvotes := c.upvotes - 1 } else c
      votes := s.votes.filter (·.user != user) })

end Discussion.Store
