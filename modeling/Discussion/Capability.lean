import Discussion.AreaOptions
import Discussion.Comment
import Discussion.Permission
import Discussion.Delivery

namespace Discussion

/-- Whether a comment shows its author's name or a pseudonym. -/
inductive Signature where
  | realName
  | pseudonym
deriving DecidableEq, Repr

/-- A pseudonym that is not blank is shown. -/
def Signature.ofPseudonym (pseudonym : Option String) : Signature :=
  if (normalPseudonym pseudonym).isSome then .pseudonym else .realName

/-- What one user may do in one section. -/
structure Capability where
  user : Option UserId
  mayView : Bool
  mayPost : Signature → Option Comment → Bool
  mayEdit : Comment → Bool
  mayDelete : Comment → Bool
  mayUpvote : Comment → Bool
  maySubscribe : Delivery → Delivery → Option Comment → Bool

/-- The usual capability: three permissions, the options of the area, and the time in which authors
may edit. -/
structure UsualCapability where
  user : Option UserId
  view : Bool
  editAny : Bool
  delete : Bool
  options : AreaOptions
  window : Duration
  now : Instant

namespace UsualCapability

def ofPermissions (permissions : Permissions) (context : ContextId) (user : Option UserId)
    (options : AreaOptions) (window : Duration) (now : Instant) : UsualCapability where
  user := user
  view := permissions Permissions.view context user
  editAny := permissions Permissions.editAny context user
  delete := permissions Permissions.delete context user
  options := options
  window := window
  now := now

def allowsSignature (c : UsualCapability) : Signature → Bool
  | .realName => c.options.allowRealname
  | .pseudonym => c.options.allowPseudonym

/-- Replies go one level deep. -/
def allowsTarget (c : UsualCapability) : Option Comment → Bool
  | none => true
  | some target => c.options.allowReplies && !target.isReply

/-- A comment is its author's to edit until the window has passed. -/
def ownsFresh (c : UsualCapability) (comment : Comment) : Bool :=
  match c.user with
  | none => false
  | some user => comment.isBy user && (comment.age c.now).nanos < c.window.nanos

/-- Nothing is allowed to who may not view. -/
def toCapability (c : UsualCapability) : Capability where
  user := c.user
  mayView := c.view
  mayPost mode target := c.view && c.allowsSignature mode && c.allowsTarget target
  mayEdit comment := c.view && (c.ownsFresh comment || c.editAny)
  mayDelete _ := c.view && c.delete
  mayUpvote comment := c.view && c.options.allowUpvotes && comment.shownAuthor true != c.user
  maySubscribe _ _ _ := c.view && c.options.allowSubscriptions

end UsualCapability

end Discussion
