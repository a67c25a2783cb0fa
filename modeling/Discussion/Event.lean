import Discussion.SectionKey
import Discussion.Delivery

namespace Discussion

/-- What has changed, told after the change is stored. -/
inductive Event where
  | created (key : SectionKey) (comment : CommentId) (replyTo : Option CommentId) (user : UserId)
  | updated (key : SectionKey) (comment : CommentId) (user : UserId)
  | deleted (key : SectionKey) (comment : CommentId)
  | voted (key : SectionKey) (comment : CommentId) (user : UserId) (upvoted : Bool)
  | chosen (key : SectionKey) (comment : Option CommentId) (user : UserId)
      (status : Delivery)
deriving DecidableEq, Repr

end Discussion
