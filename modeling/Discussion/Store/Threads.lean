import Discussion.Store.Basic

namespace Discussion.Store

/-- Stores a comment under a new id, with its times in whole seconds, and counts it at the comment
that it replies to. -/
def add (s : Store) (r : StoredComment) : CommentId × Store :=
  let id := s.lastId + 1
  let row := { r with
    id, timeCreated := r.timeCreated.floor, timeModified := r.timeModified.floor }
  let s := { s with comments := s.comments ++ [row], lastId := id }
  match r.replyTo with
  | none => (id, s)
  | some parent => (id, s.mapComment parent fun c => { c with replies := c.replies + 1 })

/-- Stores what may change of a comment: content, format, pseudonym, custom data, and who changed it
when. Tells whether the comment is there. -/
def revise (s : Store) (r : StoredComment) : Bool × Store :=
  (s.comments.any (·.id == r.id),
    s.mapComment r.id fun c => { c with
      content := r.content
      format := r.format
      pseudonym := r.pseudonym
      modifier := r.modifier
      timeModified := r.timeModified.floor
      customData := r.customData })

/-- Removes a comment and the replies to it, with the votes and choices for any of them, and
discounts it at the comment it replied to. Tells how many comments are gone. -/
def removeThread (s : Store) (id : CommentId) (replyTo : Option CommentId) : Nat × Store :=
  let isReply (c : StoredComment) : Bool := c.replyTo == some id
  let gone (i : CommentId) : Bool := i == id || s.anyWithId isReply i
  let replies := s.comments.countP isReply
  let s := (s.dropVotes gone).dropChoices fun t => gone t.comment
  let s := s.dropComments isReply
  let own := s.comments.countP (·.id == id)
  let s := s.dropComments (·.id == id)
  let s := match replyTo with
    | some parent =>
      if 0 < own then s.mapComment parent fun c => { c with replies := c.replies - 1 } else s
    | none => s
  (own + replies, s)

/-- The comments with these ids, in the order of the ids. -/
def commentsByIds (s : Store) (ids : List CommentId) : List StoredComment :=
  s.comments.filter fun c => ids.contains c.id

end Discussion.Store
