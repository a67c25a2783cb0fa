import Discussion.Forum.Batch

namespace Discussion.Forum

def statusOfName (name : String) : Except Error Delivery :=
  match Delivery.ofName? name with
  | some status => pure status
  | none => throw (.unknownStatus name)

/-- Sets what a user hears of a section or of one comment of it. Answers what the user hears from
now on. -/
def choose (f : Forum) (user : Option UserId) (req : ChoiceRequest) : Action Delivery := do
  let user ← f.memberOf user .subscribe
  let status ← statusOfName req.status
  let sec ← f.sectionOf req.key
  let comment ← req.comment.mapM sec.comment
  let current ← sec.status user comment
  let cap ← sec.capability f.site (some user)
  if !cap.maySubscribe current status comment then
    throw (.refused (.subscribe sec.key))
  sec.setStatus user comment status
  sec.status user comment

/-- Records or withdraws a user's upvote. Answers the upvotes of the comment. -/
def vote (f : Forum) (user : Option UserId) (req : VoteRequest) : Action Int := do
  let user ← f.memberOf user .vote
  let sec ← f.sectionOf req.key
  let comment ← sec.comment req.comment
  let cap ← sec.capability f.site (some user)
  if !cap.mayUpvote comment then
    throw (.refused (.vote req.comment))
  let (_, comment) ← sec.vote comment user req.upvote
  return comment.upvotes

end Discussion.Forum
