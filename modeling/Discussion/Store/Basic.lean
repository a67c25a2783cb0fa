import Discussion.Comment
import Discussion.Selection
import Discussion.Person
import Discussion.Delivery

namespace Discussion

/-- A user's upvote for a comment. -/
structure Vote where
  comment : CommentId
  user : UserId
deriving DecidableEq, Repr

/-- What a user has chosen for a section, or for one comment of it. The comment zero stands for the
section itself. -/
structure Choice where
  user : UserId
  key : SectionKey
  comment : CommentId
  status : Delivery
deriving DecidableEq, Repr

/-- What is kept of all sections. Comments stand in the order of their ids, and `lastId` is the
largest id ever given away. -/
structure Store where
  comments : List StoredComment := []
  lastId : CommentId := 0
  votes : List Vote := []
  choices : List Choice := []
  people : List Person := []
deriving DecidableEq, Repr, Inhabited

namespace Store

/-- The comment number under which a choice is kept. -/
def choiceTarget (comment : Option CommentId) : CommentId :=
  comment.getD 0

def comment? (s : Store) (id : CommentId) : Option StoredComment :=
  s.comments.find? (·.id == id)

/-- Changes the comment with an id. -/
def mapComment (s : Store) (id : CommentId) (f : StoredComment → StoredComment) : Store :=
  { s with comments := s.comments.map fun c => if c.id = id then f c else c }

/-- Removes the comments that satisfy a condition. -/
def dropComments (s : Store) (p : StoredComment → Bool) : Store :=
  { s with comments := s.comments.filter fun c => !p c }

/-- Removes the votes for comments whose id satisfies a condition. -/
def dropVotes (s : Store) (p : CommentId → Bool) : Store :=
  { s with votes := s.votes.filter fun v => !p v.comment }

def dropChoices (s : Store) (p : Choice → Bool) : Store :=
  { s with choices := s.choices.filter fun t => !p t }

/-- Some comment that satisfies a condition has the id. -/
def anyWithId (s : Store) (p : StoredComment → Bool) (id : CommentId) : Bool :=
  s.comments.any fun c => p c && c.id == id

end Store

/-- A comment fits every part of the condition. -/
def Selection.covers (f : Selection) (c : StoredComment) : Bool :=
  f.coversSection c.key && f.parent.covers c.replyTo && f.coversSecond c.timeCreated.seconds

end Discussion
