import Discussion.SectionKey
import Discussion.Time.Instant

namespace Discussion

/-- The items that a selection covers. -/
inductive ItemRange where
  | all
  | one (item : ItemId)
  | anyOf (items : List ItemId)
deriving DecidableEq, Repr

def ItemRange.covers : ItemRange → ItemId → Bool
  | .all, _ => true
  | .one item, i => i == item
  | .anyOf items, i => items.contains i

/-- Which comments a selection covers, by what they reply to. -/
inductive ThreadLevel where
  | any
  | topLevel
  | repliesTo (parent : CommentId)
deriving DecidableEq, Repr

def ThreadLevel.covers : ThreadLevel → Option CommentId → Bool
  | .any, _ => true
  | .topLevel, parent => parent.isNone
  | .repliesTo p, parent => parent == some p

/-- A condition on comments, all of whose parts must hold. -/
structure Selection where
  component : String
  area : String
  contexts : List ContextId
  items : ItemRange := .all
  parent : ThreadLevel := .any
  timeFrom : Option Instant := none
  timeTo : Option Instant := none
deriving DecidableEq, Repr

namespace Selection

/-- The part of the condition that speaks of sections. -/
def coversSection (f : Selection) (k : SectionKey) : Bool :=
  k.component == f.component && k.area == f.area && f.contexts.contains k.context
    && f.items.covers k.item

/-- Bounds are compared by whole seconds, and both belong to the span. -/
def coversSecond (f : Selection) (seconds : Int) : Bool :=
  f.timeFrom.all (fun t => t.seconds ≤ seconds) && f.timeTo.all (fun t => seconds ≤ t.seconds)

/-- Bounds are compared to the nanosecond, and both belong to the span. -/
def coversInstant (f : Selection) (time : Instant) : Bool :=
  f.timeFrom.all (fun t => t.notAfter time) && f.timeTo.all (fun t => time.notAfter t)

/-- A selection without a condition on replies or times covers whole sections. -/
def isWholeSections (f : Selection) : Bool :=
  f.parent == .any && f.timeFrom.isNone && f.timeTo.isNone

end Selection

end Discussion
