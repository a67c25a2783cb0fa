import Discussion.Forum.Page
import Discussion.Wire.Record

namespace Discussion

open Json

def ShownComment.toJson (v : ShownComment) : Json :=
  Json.record [
    ("id", .int v.id),
    ("context_id", .int v.key.context),
    ("component", .text v.key.component),
    ("comment_area", .text v.key.area),
    ("item_id", .int v.key.item),
    ("content", .text v.content),
    ("content_format", .int v.format),
    ("custom_data", .object v.customData),
    ("time_created", .int v.timeCreated),
    ("time_modified", .int v.timeModified),
    ("user_created_id", ofOption .int v.author),
    ("user_created_name", .text v.authorName),
    ("user_modified_id", ofOption .int v.modifier),
    ("user_modified_name", .text v.modifierName),
    ("pseudonym", ofOption .text v.pseudonym),
    ("reply_to_id", ofOption .int v.replyTo),
    ("replies", .int v.replies),
    ("upvotes", .int v.upvotes),
    ("user_upvoted", .bool v.hasUpvoted),
    ("subscription", v.subscription.toJson),
    ("default_subscription", v.defaultSubscription.toJson),
    ("can_reply", .bool v.canReply),
    ("allow_pseudonym_reply", .bool v.canReplyByPseudonym),
    ("allow_realname_reply", .bool v.canReplyByRealName),
    ("can_upvote", .bool v.mayUpvote),
    ("can_edit", .bool v.mayEdit),
    ("can_delete", .bool v.mayDelete),
    ("can_subscribe_immediate", .bool v.canSubscribe),
    ("can_subscribe_digests", .bool v.canSubscribeDigest),
    ("can_unsubscribe", .bool v.canUnsubscribe),
    ("is_own", .bool v.isOwn),
    ("comment_url", .text v.url)]

def ShownSection.toJson (v : ShownSection) : Json :=
  Json.record [
    ("unique_key", .text v.key.unique),
    ("context_id", .int v.key.context),
    ("component", .text v.key.component),
    ("comment_area", .text v.key.area),
    ("item_id", .int v.key.item),
    ("item_title", .text v.title),
    ("item_url", .text v.url),
    ("can_post", .bool v.mayPost),
    ("allow_pseudonym", .bool v.canPostByPseudonym),
    ("allow_realname", .bool v.canPostByRealName),
    ("subscription", v.subscription.toJson),
    ("default_subscription", v.defaultSubscription.toJson),
    ("custom_data", .object v.customData)]

def CommentPage.toJson (p : CommentPage) : Json :=
  Json.record [
    ("comments", .list (p.comments.map ShownComment.toJson)),
    ("total_count", .int p.total),
    ("sections", .list (p.sections.map ShownSection.toJson)),
    ("per_page", .int p.pageSize),
    ("can_post", .bool p.mayPost)]

end Discussion
