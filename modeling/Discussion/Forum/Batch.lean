import Discussion.Forum.Basic
import Discussion.Request
import Discussion.Shown

namespace Discussion

-- The zero of a sum is that of the core library, whatever else is in scope.
attribute [local instance (high)] Zero.ofOfNat0

/-- A comment that has passed every check and waits to be saved. -/
structure Prepared where
  sec : Section
  cap : Capability
  comment : Comment

namespace Prepared

/-- The component's checks and its last word on a comment, which is named where it is stored
already. -/
def check (sec : Section) (cap : Capability) (comment : Comment) (id : Option CommentId) :
    Except Error Prepared := do
  let (errors, comment) := sec.validate comment cap
  if !errors.isEmpty then
    throw (.validation id errors)
  return ⟨sec, cap, sec.beforeSave comment cap⟩

/-- Saves the comment and shows it to its user. -/
def save (p : Prepared) (people : Comment → Participants) : Action ShownComment := do
  let comment ← p.sec.save p.comment
  p.sec.viewComment comment p.cap (people comment)

end Prepared

namespace Forum

/-- What changes anything needs a site with comments enabled and a user. -/
def memberOf (f : Forum) (user : Option UserId) (action : MemberAction) : Except Error UserId :=
  if f.site.settings.enabled then
    match user with
    | some user => pure user
    | none => throw (.refused (.guest action))
  else throw .disabled

def personOf (people : List Person) (id : UserId) : Option Person :=
  people.find? (·.id == id)

/-- Checks a request for a new comment. -/
def preparePost (f : Forum) (user : UserId) (req : PostRequest) : Action Prepared := do
  let sec ← f.sectionOf req.key
  let cap ← sec.capability f.site (some user)
  let target ← req.replyTo.mapM sec.comment
  let pseudonym := normalPseudonym (some req.pseudonym)
  if !cap.mayPost (.ofPseudonym pseudonym) target then
    throw (.refused (.post sec.key))
  let comment := Comment.fresh sec.key
    ⟨req.content, req.format, user, pseudonym, req.replyTo, req.customData⟩ f.site.now
  Prepared.check sec cap comment none

/-- Stores new comments, after all of them have been checked. -/
def post (f : Forum) (user : Option UserId) (batch : List PostRequest) :
    Action (List ShownComment) := do
  let user ← f.memberOf user .post
  let pending ← batch.mapM (f.preparePost user)
  let people ← Action.store (.peopleByIds [user])
  let me := personOf people user
  pending.mapM fun p => p.save fun _ => ⟨me, me⟩

/-- A comment under a real name takes a pseudonym only where the user may post under one. -/
def mayTakePseudonym (cap : Capability) (comment : Comment) (pseudonym : String) : Bool :=
  Text.isBlankText pseudonym || comment.isPseudonymous || cap.mayPost .pseudonym none

/-- Checks a request for a change. -/
def prepareEdit (f : Forum) (user : UserId) (req : EditRequest) : Action Prepared := do
  let sec ← f.sectionOf req.key
  let comment ← sec.comment req.id
  let cap ← sec.capability f.site (some user)
  if !cap.mayEdit comment then
    throw (.refused (.edit req.id))
  if !mayTakePseudonym cap comment req.pseudonym then
    throw (.field (some req.id) "pseudonym" "pseudonyms are not allowed here")
  match (comment.withContent req.content req.format).withPseudonym req.pseudonym with
  | .error e => throw (.field (some req.id) "pseudonym" e.message)
  | .ok comment =>
    let comment := (comment.withCustomDataText req.customData).changedBy user f.site.now
    Prepared.check sec cap comment (some req.id)

/-- Stores changes of comments, after all of them have been checked. -/
def edit (f : Forum) (user : Option UserId) (batch : List EditRequest) :
    Action (List ShownComment) := do
  let user ← f.memberOf user .edit
  let pending ← batch.mapM (f.prepareEdit user)
  let people ← Action.store (.peopleByIds (pending.flatMap fun p => [p.comment.author, user]))
  pending.mapM fun p => p.save fun comment =>
    ⟨personOf people comment.author, personOf people user⟩

/-- Checks the removal of a stored comment. -/
def prepareRemoval (f : Forum) (user : UserId) (record : StoredComment) :
    Action (Section × Comment) := do
  let sec ← f.sectionOf record.key
  let comment := Comment.ofStored record
  let cap ← sec.capability f.site (some user)
  if !cap.mayDelete comment then
    throw (.refused (.delete record.id))
  return (sec, comment)

/-- The wanted ids without a comment. Of ids in a row that are equal one is named. -/
def missingIds (ids : List CommentId) (records : List StoredComment) : List CommentId :=
  (ids.filter fun id => !records.any (·.id == id)).eraseReps

/-- Removes comments with the replies to them, after all of them have been checked. Tells how many
comments are gone. -/
def remove (f : Forum) (user : Option UserId) (ids : List CommentId) : Action Nat := do
  let user ← f.memberOf user .delete
  let records ← Action.store (.commentsByIds ids)
  let missing := missingIds ids records
  if !missing.isEmpty then
    throw (.missing missing)
  let targets ← records.mapM (f.prepareRemoval user)
  let counts ← targets.mapM fun t => t.1.delete t.2
  return counts.sum

end Forum

end Discussion
