import Discussion.Program
import Discussion.Settings.Basic

namespace Discussion

/-- What a site gives to every operation at one moment. -/
structure Site where
  permissions : Permissions
  settings : Settings
  now : Instant

/-- The comments attached to one item of an area. -/
structure Section where
  area : Area
  key : SectionKey
  item : HostItem

/-- The section of an item that the caller already holds. -/
def Area.sectionOfHeld (a : Area) (item : ItemId) (host : HostItem) : Section :=
  ⟨a, a.sectionKey item, host⟩

/-- The section of an item, which the component looks up. -/
def Area.sectionOf (a : Area) (item : ItemId) : Action Section := do
  let key := a.sectionKey item
  let host ← Action.host a.handler (.item key)
  return ⟨a, key, host⟩

/-- Removes every comment of the area. -/
def Area.clear (a : Area) : Action Nat :=
  Action.store (.removeSelected a.selection)

namespace Section

def handler (s : Section) : Handler :=
  s.area.handler

def options (s : Section) : AreaOptions :=
  s.area.options

/-- Every comment of the section. -/
def selection (s : Section) : Selection where
  component := s.key.component
  area := s.key.area
  contexts := [s.key.context]
  items := .one s.key.item

/-- The capability of a user or guest, which the component may replace. -/
def capability (site : Site) (s : Section) (user : Option UserId) : Except Error Capability := do
  let window ← site.settings.editingTime
  return s.handler.capability s.key
    (.ofPermissions site.permissions s.key.context user s.options window site.now)

/-- The comment with an id, if it belongs to the section. -/
def comment? (s : Section) (id : CommentId) : Action (Option Comment) := do
  let record ← Action.store (.comment id)
  return (record.filter fun r => r.key == s.key).map Comment.ofStored

/-- The comment with an id, which must belong to the section. -/
def comment (s : Section) (id : CommentId) : Action Comment := do
  match ← s.comment? id with
  | some comment => return comment
  | none => throw (.notFound id)

/-- The number of top-level comments, or of replies to a comment. -/
def count (s : Section) (replyTo : Option CommentId) : Action Nat :=
  let parent : ThreadLevel := match replyTo with
    | some id => .repliesTo id
    | none => .topLevel
  Action.store (.countSelected { s.selection with parent })

/-- What the component finds wrong with a comment. A pseudonym is checked only where there is one.
Custom data that is read stays decoded. -/
def validate (s : Section) (comment : Comment) (cap : Capability) : Findings × Comment :=
  let errors := s.handler.checkContent s.key comment.content comment.format cap
  let errors := Dictionary.extend [] errors
  let errors := match comment.pseudonym with
    | some pseudonym => Dictionary.extend errors (s.handler.checkPseudonym s.key pseudonym cap)
    | none => errors
  match comment.customData.asFields with
  | .ok (fields, decoded) =>
    let comment := { comment with customData := decoded }
    (Dictionary.extend errors (s.handler.checkCustomData s.key comment fields cap), comment)
  | .error e => (Dictionary.insert errors "custom_data" e.message, comment)

/-- The component's last word on a comment before it is saved. -/
def beforeSave (s : Section) (comment : Comment) (cap : Capability) : Comment :=
  s.handler.beforeSave s.key comment cap

/-- A new reply must go to a comment of the section that is not a reply itself. -/
def checkTarget (s : Section) (target : CommentId) : Action Unit := do
  if (← s.comment target).isReply then
    throw (.mistake (.nestedReply target))

/-- Stores a new comment, or what may change of a stored one, and tells about it. -/
def save (s : Section) (comment : Comment) : Action Comment := do
  if comment.key ≠ s.key then
    throw (.mistake (.foreignComment comment.key s.key))
  let comment := comment.packed
  let record := comment.toStored
  match comment.id with
  | some id =>
    if ← Action.store (.revise record) then
      Action.tell (.updated s.key id record.modifier)
      return comment
    else throw (.notFound id)
  | none =>
    if let some target := comment.replyTo then
      s.checkTarget target
    let id ← Action.store (.add record)
    Action.tell (.created s.key id comment.replyTo record.modifier)
    return comment.withId id

/-- Removes a comment with the replies to it and tells about it. Tells how many comments are gone;
a comment that is not saved is no comment to remove. -/
def delete (s : Section) (comment : Comment) : Action Nat := do
  match comment.id with
  | none => return 0
  | some id =>
    let deleted ← Action.store (.removeThread id comment.replyTo)
    if 0 < deleted then
      Action.tell (.deleted s.key id)
    return deleted

/-- Removes every comment of the section. -/
def clear (s : Section) : Action Nat :=
  Action.store (.removeSelected s.selection)

/-- Sets a user's vote, keeps the comment's counter in step and tells about it. Tells whether
anything changed. -/
def vote (s : Section) (comment : Comment) (user : UserId) (upvote : Bool) :
    Action (Bool × Comment) := do
  match comment.id with
  | none => throw (.mistake .unsavedComment)
  | some id =>
    if ← Action.store (.castVote id user upvote) then
      Action.tell (.voted s.key id user upvote)
      return (true, comment.addUpvotes (if upvote then 1 else -1))
    else return (false, comment)

/-- What the component lets a user without a choice of their own hear. -/
def usualStatus (s : Section) (user : UserId) : Delivery :=
  match s.handler.usualStatus s.key user with
  | .default => .off
  | status => status

end Section

end Discussion
