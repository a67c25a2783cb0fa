import Discussion.AreaOptions
import Discussion.Json.Record
import Discussion.Request

namespace Discussion

open Json Json.RecordReader

def ListRequest.ofJson? : Json → Option ListRequest :=
  RecordReader.read do
    let context ← optional "context_id" number?
    let component ← optional "component" text?
    let area ← optional "comment_area" text?
    let item ← optional "item_id" number?
    let replyTo ← optional "reply_to_id" number?
    let comment ← optional "comment_id" number?
    let page ← orElse "page" 0 number?
    let pageSize ← orElse "page_size" none (nullable number?)
    let timeFrom ← optional "time_from" number?
    let timeTo ← optional "time_to" number?
    let sort ← orElse "sort_direction" "DESC" text?
    let includeReplies ← orElse "include_replies" false bool?
    let includeChildContexts ← orElse "include_child_contexts" false bool?
    return {
      context, component, area, item, replyTo, comment, page, pageSize, timeFrom, timeTo, sort,
      includeReplies, includeChildContexts }

/-- The key of a section as the requests name its parts. -/
def requestKey : RecordReader SectionKey := do
  let context ← required "context_id" number?
  let component ← required "component" text?
  let area ← required "comment_area" text?
  let item ← required "item_id" number?
  return { component, area, context, item }

def PostRequest.ofJson? : Json → Option PostRequest :=
  RecordReader.read do
    let key ← requestKey
    let content ← required "content" text?
    let format ← orElse "content_format" 0 format?
    let pseudonym ← orElse "pseudonym" "" text?
    let replyTo ← optional "reply_to_id" number?
    let customData ← orElse "custom_data" "" text?
    return { key, content, format, pseudonym, replyTo, customData }

def EditRequest.ofJson? : Json → Option EditRequest :=
  RecordReader.read do
    let id ← required "id" number?
    let key ← requestKey
    let content ← required "content" text?
    let format ← orElse "content_format" 0 format?
    let pseudonym ← orElse "pseudonym" "" text?
    let customData ← orElse "custom_data" "" text?
    return { id, key, content, format, pseudonym, customData }

def SectionRequest.ofJson? : Json → Option SectionRequest :=
  RecordReader.read do
    let context ← required "context_id" number?
    let component ← required "component" text?
    let area ← required "comment_area" text?
    let item ← optional "item_id" number?
    return { component, area, context, item }

def ChoiceRequest.ofJson? : Json → Option ChoiceRequest :=
  RecordReader.read do
    let key ← requestKey
    let comment ← optional "comment_id" number?
    let status ← required "status" text?
    return { key, comment, status }

def VoteRequest.ofJson? : Json → Option VoteRequest :=
  RecordReader.read do
    let key ← requestKey
    let comment ← required "comment_id" number?
    let upvote ← required "upvote" bool?
    return { key, comment, upvote }

/-- Options that are not given keep their usual values. -/
def AreaOptions.ofJson? : Json → Option AreaOptions :=
  RecordReader.read do
    let usual : AreaOptions := {}
    let allowReplies ← orElse "allow_replies" usual.allowReplies bool?
    let allowUpvotes ← orElse "allow_upvotes" usual.allowUpvotes bool?
    let allowRealname ← orElse "allow_realname" usual.allowRealname bool?
    let allowPseudonym ← orElse "allow_pseudonym" usual.allowPseudonym bool?
    let allowSubscriptions ← orElse "allow_subscriptions" usual.allowSubscriptions bool?
    return { allowReplies, allowUpvotes, allowRealname, allowPseudonym, allowSubscriptions }

def AreaOptions.toJson (o : AreaOptions) : Json :=
  Json.record [
    ("allow_replies", .bool o.allowReplies),
    ("allow_upvotes", .bool o.allowUpvotes),
    ("allow_realname", .bool o.allowRealname),
    ("allow_pseudonym", .bool o.allowPseudonym),
    ("allow_subscriptions", .bool o.allowSubscriptions)]

end Discussion
