import Discussion.Event
import Discussion.Wire.Record

namespace Discussion.Event

open Json Json.RecordReader

/-- The fields of an event, by the name of its kind. -/
def reader? : String → Option (RecordReader Event)
  | "CommentCreated" => some do
    let key ← required "section" SectionKey.ofJson?
    let comment ← required "comment_id" number?
    let replyTo ← optional "reply_to" number?
    let user ← required "user_id" number?
    return .created key comment replyTo user
  | "CommentUpdated" => some do
    let key ← required "section" SectionKey.ofJson?
    let comment ← required "comment_id" number?
    let user ← required "user_id" number?
    return .updated key comment user
  | "CommentDeleted" => some do
    let key ← required "section" SectionKey.ofJson?
    let comment ← required "comment_id" number?
    return .deleted key comment
  | "VoteChanged" => some do
    let key ← required "section" SectionKey.ofJson?
    let comment ← required "comment_id" number?
    let user ← required "user_id" number?
    let upvoted ← required "upvoted" bool?
    return .voted key comment user upvoted
  | "SubscriptionChanged" => some do
    let key ← required "section" SectionKey.ofJson?
    let comment ← optional "comment_id" number?
    let user ← required "user_id" number?
    let status ← required "status" Delivery.ofJson?
    return .chosen key comment user status
  | _ => none

/-- An event is an object whose only field is named for the kind of the event and holds its
fields. -/
def ofJson? : Json → Option Event
  | .object [(kind, .object fields)] => (reader? kind).bind fun r => r.read (.object fields)
  | _ => none

def kind : Event → String
  | .created .. => "CommentCreated"
  | .updated .. => "CommentUpdated"
  | .deleted .. => "CommentDeleted"
  | .voted .. => "VoteChanged"
  | .chosen .. => "SubscriptionChanged"

def fields : Event → List (String × Json)
  | .created key comment replyTo user =>
    [("section", key.toJson), ("comment_id", .int comment), ("reply_to", ofOption .int replyTo),
      ("user_id", .int user)]
  | .updated key comment user =>
    [("section", key.toJson), ("comment_id", .int comment), ("user_id", .int user)]
  | .deleted key comment => [("section", key.toJson), ("comment_id", .int comment)]
  | .voted key comment user upvoted =>
    [("section", key.toJson), ("comment_id", .int comment), ("user_id", .int user),
      ("upvoted", .bool upvoted)]
  | .chosen key comment user status =>
    [("section", key.toJson), ("comment_id", ofOption .int comment), ("user_id", .int user),
      ("status", status.toJson)]

def toJson (e : Event) : Json :=
  .object [(e.kind, Json.record e.fields)]

end Discussion.Event
