import Discussion.Comment
import Discussion.Json.Record
import Discussion.Person
import Discussion.Delivery
import Discussion.Time.Rfc3339

namespace Discussion

open Json Json.RecordReader

namespace SectionKey

def ofJson? : Json → Option SectionKey :=
  RecordReader.read do
    let component ← required "component" text?
    let area ← required "area" text?
    let context ← required "context_id" number?
    let item ← required "item_id" number?
    return { component, area, context, item }

def toJson (k : SectionKey) : Json :=
  Json.record [
    ("component", .text k.component),
    ("area", .text k.area),
    ("context_id", .int k.context),
    ("item_id", .int k.item)]

end SectionKey

namespace Delivery

/-- A status is given by its name, alone or as the only field of an object that holds null. -/
def ofJson? : Json → Option Delivery
  | .text name => ofName? name
  | .object [(name, .null)] => ofName? name
  | _ => none

def toJson (s : Delivery) : Json :=
  .text s.name

end Delivery

namespace Person

def ofJson? : Json → Option Person :=
  RecordReader.read do
    let id ← required "id" number?
    let username ← required "username" text?
    let firstName ← required "first_name" text?
    let lastName ← required "last_name" text?
    return { id, username, firstName, lastName }

def toJson (p : Person) : Json :=
  Json.record [
    ("id", .int p.id),
    ("username", .text p.username),
    ("first_name", .text p.firstName),
    ("last_name", .text p.lastName)]

end Person

def Instant.ofJson? (j : Json) : Option Instant :=
  j.text?.bind Rfc3339.read

def Instant.toJson (t : Instant) : Json :=
  .text (Rfc3339.write t)

namespace StoredComment

def ofJson? : Json → Option StoredComment :=
  RecordReader.read do
    let id ← required "id" number?
    let context ← required "context_id" number?
    let component ← required "component" text?
    let area ← required "area" text?
    let item ← required "item_id" number?
    let content ← required "content" text?
    let format ← required "format" format?
    let author ← required "user_id" number?
    let modifier ← required "user_modified" number?
    let pseudonym ← optional "pseudonym" text?
    let timeCreated ← required "time_created" Instant.ofJson?
    let timeModified ← required "time_modified" Instant.ofJson?
    let replyTo ← optional "reply_to_id" number?
    let replies ← required "replies" number?
    let upvotes ← required "upvotes" number?
    let customData ← required "custom_data" text?
    return {
      id, key := ⟨component, area, context, item⟩, content, format, author, modifier, pseudonym,
      timeCreated, timeModified, replyTo, replies, upvotes, customData }

def toJson (r : StoredComment) : Json :=
  Json.record [
    ("id", .int r.id),
    ("context_id", .int r.key.context),
    ("component", .text r.key.component),
    ("area", .text r.key.area),
    ("item_id", .int r.key.item),
    ("content", .text r.content),
    ("format", .int r.format),
    ("user_id", .int r.author),
    ("user_modified", .int r.modifier),
    ("pseudonym", ofOption .text r.pseudonym),
    ("time_created", r.timeCreated.toJson),
    ("time_modified", r.timeModified.toJson),
    ("reply_to_id", ofOption .int r.replyTo),
    ("replies", .int r.replies),
    ("upvotes", .int r.upvotes),
    ("custom_data", .text r.customData)]

end StoredComment

end Discussion
