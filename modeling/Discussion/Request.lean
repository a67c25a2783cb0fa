import Discussion.SectionKey

namespace Discussion

/-- Asks for one page of comments: of a section, of a whole area, or of one comment alone. -/
structure ListRequest where
  context : Option ContextId := none
  component : Option String := none
  area : Option String := none
  item : Option ItemId := none
  replyTo : Option CommentId := none
  comment : Option CommentId := none
  page : Int := 0
  pageSize : Option Int := none
  timeFrom : Option Int := none
  timeTo : Option Int := none
  sort : String := "DESC"
  includeReplies : Bool := false
  includeChildContexts : Bool := false
deriving DecidableEq, Repr

/-- Asks for a new comment. -/
structure PostRequest where
  key : SectionKey
  content : String
  format : TextFormat := 0
  pseudonym : String := ""
  replyTo : Option CommentId := none
  customData : String := ""
deriving DecidableEq, Repr

/-- Asks for a change of a comment. A blank pseudonym leaves the mode of the comment as it is. -/
structure EditRequest where
  id : CommentId
  key : SectionKey
  content : String
  format : TextFormat := 0
  pseudonym : String := ""
  customData : String := ""
deriving DecidableEq, Repr

/-- Asks for the section of one item. -/
structure SectionRequest where
  component : String
  area : String
  context : ContextId
  item : Option ItemId := none
deriving DecidableEq, Repr

/-- Asks for a status, by its name, for a section or one comment of it. -/
structure ChoiceRequest where
  key : SectionKey
  comment : Option CommentId := none
  status : String
deriving DecidableEq, Repr

/-- Asks to record or to withdraw an upvote. -/
structure VoteRequest where
  key : SectionKey
  comment : CommentId
  upvote : Bool
deriving DecidableEq, Repr

end Discussion
