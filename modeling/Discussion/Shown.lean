import Discussion.Notification

namespace Discussion

/-- A comment as one user sees it. Times are in whole seconds. -/
structure ShownComment where
  id : CommentId
  key : SectionKey
  content : String
  format : TextFormat
  customData : Json.Fields
  timeCreated : Int
  timeModified : Int
  author : Option UserId
  authorName : String
  modifier : Option UserId
  modifierName : String
  pseudonym : Option String
  replyTo : Option CommentId
  replies : Int
  upvotes : Int
  hasUpvoted : Bool
  subscription : Delivery
  defaultSubscription : Delivery
  canReplyByPseudonym : Bool
  canReplyByRealName : Bool
  mayUpvote : Bool
  mayEdit : Bool
  mayDelete : Bool
  canSubscribe : Bool
  canSubscribeDigest : Bool
  canUnsubscribe : Bool
  isOwn : Bool
  url : String

/-- A reply is possible in one mode at least. -/
def ShownComment.canReply (v : ShownComment) : Bool :=
  v.canReplyByPseudonym || v.canReplyByRealName

/-- A section as one user sees it. -/
structure ShownSection where
  key : SectionKey
  title : String
  url : String
  canPostByPseudonym : Bool
  canPostByRealName : Bool
  subscription : Delivery
  defaultSubscription : Delivery
  customData : Json.Fields

def ShownSection.mayPost (v : ShownSection) : Bool :=
  v.canPostByPseudonym || v.canPostByRealName

/-- Author and last modifier of a comment, as far as they are known. -/
structure Participants where
  author : Option Person := none
  modifier : Option Person := none

/-- A user without an id to show appears under the pseudonym, and an unknown user under the
number. -/
def shownName (id : Option UserId) (person : Option Person) (pseudonym : Option String) : String :=
  match id, person with
  | none, _ => pseudonym.getD ""
  | some _, some person => person.fullName
  | some id, none => "User " ++ Text.integerText id

/-- What the viewer of a comment or a section hears of it and would hear without a choice. -/
structure Hearing where
  current : Delivery
  fallback : Delivery

namespace Section

/-- Guests hear nothing. -/
def hearing (s : Section) (viewer : Option UserId) (comment : Option Comment) : Action Hearing := do
  match viewer with
  | none => return ⟨.off, .off⟩
  | some user => return ⟨← s.status user comment, s.usualStatus user⟩

def hasUpvoted (viewer : Option UserId) (id : CommentId) : Action Bool := do
  match viewer with
  | none => return false
  | some user => Action.store (.upvoted id user)

/-- A user may choose a status other than the current one where the capability allows the step. -/
def mayChoose (cap : Capability) (current status : Delivery) (comment : Comment) : Bool :=
  cap.user.isSome && current != status && cap.maySubscribe current status (some comment)

/-- The view of a comment for the user of a capability. Authors see themselves behind their own
pseudonyms. -/
def viewComment (s : Section) (comment : Comment) (cap : Capability) (people : Participants) :
    Action ShownComment := do
  let viewer := cap.user
  let isOwn := viewer.any comment.isBy
  let author := comment.shownAuthor isOwn
  let modifier := comment.shownModifier isOwn
  let (fields, data) ← Action.ofExcept comment.customData.asFields
  let comment := { comment with customData := data }
  let id := comment.id.getD 0
  let hasUpvoted ← hasUpvoted viewer id
  let hearing ← s.hearing viewer (some comment)
  return {
    id
    key := s.key
    content := comment.content
    format := comment.format
    customData := s.handler.exportCustomData s.key comment fields viewer
    timeCreated := comment.timeCreated.seconds
    timeModified := comment.timeModified.seconds
    author
    authorName := shownName author people.author comment.pseudonym
    modifier
    modifierName := shownName modifier people.modifier comment.pseudonym
    pseudonym := comment.pseudonym
    replyTo := comment.replyTo
    replies := comment.replies
    upvotes := comment.upvotes
    hasUpvoted
    subscription := hearing.current
    defaultSubscription := hearing.fallback
    canReplyByPseudonym := cap.mayPost .pseudonym (some comment)
    canReplyByRealName := cap.mayPost .realName (some comment)
    mayUpvote := cap.mayUpvote comment
    mayEdit := cap.mayEdit comment
    mayDelete := cap.mayDelete comment
    canSubscribe := mayChoose cap hearing.current .immediate comment
    canSubscribeDigest := mayChoose cap hearing.current .dailyDigest comment
    canUnsubscribe := mayChoose cap hearing.current .off comment
    isOwn
    url := s.item.commentUrl id }

/-- The view of the section for the user of a capability. -/
def view (s : Section) (cap : Capability) : Action ShownSection := do
  let hearing ← s.hearing cap.user none
  return {
    key := s.key
    title := s.item.title
    url := s.item.url
    canPostByPseudonym := cap.mayPost .pseudonym none
    canPostByRealName := cap.mayPost .realName none
    subscription := hearing.current
    defaultSubscription := hearing.fallback
    customData := s.handler.sectionCustomData s.key cap.user }

end Section

end Discussion
