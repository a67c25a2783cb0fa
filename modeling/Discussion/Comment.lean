import Discussion.CustomData
import Discussion.Time.Instant

namespace Discussion

/-- A pseudonym without blanks around it; a blank pseudonym is none. -/
def normalPseudonym (pseudonym : Option String) : Option String :=
  (pseudonym.map Text.trim).filter (· != "")

/-- A comment as it is stored. -/
structure StoredComment where
  id : CommentId
  key : SectionKey
  content : String
  format : TextFormat
  author : UserId
  modifier : UserId
  pseudonym : Option String
  timeCreated : Instant
  timeModified : Instant
  replyTo : Option CommentId
  replies : Int
  upvotes : Int
  customData : String
deriving DecidableEq, Repr, Inhabited

/-- What its author gives for a comment that does not exist yet. -/
structure CommentDraft where
  content : String
  format : TextFormat
  author : UserId
  pseudonym : Option String
  replyTo : Option CommentId
  customData : String

/-- A comment in work. It has an id once it is saved. -/
structure Comment where
  id : Option CommentId
  key : SectionKey
  content : String
  format : TextFormat
  author : UserId
  modifier : UserId
  pseudonym : Option String
  timeCreated : Instant
  timeModified : Instant
  replyTo : Option CommentId
  replies : Int
  upvotes : Int
  customData : CustomData
deriving Inhabited

namespace Comment

/-- A comment that is not saved yet, with its counters at zero. -/
def fresh (key : SectionKey) (new : CommentDraft) (now : Instant) : Comment where
  id := none
  key := key
  content := new.content
  format := new.format
  author := new.author
  modifier := new.author
  pseudonym := normalPseudonym new.pseudonym
  timeCreated := now
  timeModified := now
  replyTo := new.replyTo
  replies := 0
  upvotes := 0
  customData := .text new.customData

def ofStored (r : StoredComment) : Comment where
  id := some r.id
  key := r.key
  content := r.content
  format := r.format
  author := r.author
  modifier := r.modifier
  pseudonym := normalPseudonym r.pseudonym
  timeCreated := r.timeCreated
  timeModified := r.timeModified
  replyTo := r.replyTo
  replies := r.replies
  upvotes := r.upvotes
  customData := .text r.customData

/-- What is stored of a comment. A comment that is not saved has the id zero. -/
def toStored (c : Comment) : StoredComment where
  id := c.id.getD 0
  key := c.key
  content := c.content
  format := c.format
  author := c.author
  modifier := c.modifier
  pseudonym := c.pseudonym
  timeCreated := c.timeCreated
  timeModified := c.timeModified
  replyTo := c.replyTo
  replies := c.replies
  upvotes := c.upvotes
  customData := c.customData.toText

/-- Holds the custom data as text from now on. -/
def packed (c : Comment) : Comment :=
  { c with customData := c.customData.asText.2 }

def isPseudonymous (c : Comment) : Bool :=
  c.pseudonym.isSome

/-- The author, unless hidden behind a pseudonym. -/
def shownAuthor (c : Comment) (reveal : Bool) : Option UserId :=
  if c.isPseudonymous && !reveal then none else some c.author

/-- The last modifier. Hidden only where it is the author behind a pseudonym. -/
def shownModifier (c : Comment) (reveal : Bool) : Option UserId :=
  if c.isPseudonymous && c.modifier == c.author && !reveal then none else some c.modifier

def isReply (c : Comment) : Bool :=
  c.replyTo.isSome

def isBy (c : Comment) (user : UserId) : Bool :=
  c.author == user

def age (c : Comment) (now : Instant) : Duration :=
  now.since c.timeCreated

def withContent (c : Comment) (content : String) (format : TextFormat) : Comment :=
  { c with content, format }

/-- A pseudonym may change, but it never goes away again. -/
def withPseudonym (c : Comment) (pseudonym : String) : Except Error Comment :=
  match normalPseudonym (some pseudonym) with
  | some p => pure { c with pseudonym := some p }
  | none => if c.isPseudonymous then throw .pseudonymRemoval else pure c

def withCustomData (c : Comment) (fields : Json.Fields) : Comment :=
  { c with customData := .fields fields }

def withCustomDataText (c : Comment) (json : String) : Comment :=
  { c with customData := .text json }

def changedBy (c : Comment) (user : UserId) (time : Instant) : Comment :=
  { c with modifier := user, timeModified := time }

def withId (c : Comment) (id : CommentId) : Comment :=
  { c with id := some id }

def addUpvotes (c : Comment) (delta : Int) : Comment :=
  { c with upvotes := c.upvotes + delta }

end Comment

end Discussion
