import Discussion.Paging
import Discussion.Store.Basic

namespace Discussion.Store

/-- Earlier comments come first, and of two at the same second the one with the smaller id. -/
def precedes (a b : StoredComment) : Bool :=
  a.timeCreated.seconds < b.timeCreated.seconds
    || (a.timeCreated.seconds == b.timeCreated.seconds && a.id ≤ b.id)

def sorted (rows : List StoredComment) : SortOrder → List StoredComment
  | .ascending => rows.mergeSort precedes
  | .descending => rows.mergeSort fun a b => precedes b a

/-- The comments that fit a selection, in order, or one page of them. -/
def select (s : Store) (f : Selection) (sort : SortOrder) (page : Option Slice) :
    List StoredComment :=
  Slice.cut (sorted (s.comments.filter f.covers) sort) page

def countSelected (s : Store) (f : Selection) : Nat :=
  s.comments.countP f.covers

/-- Removes the comments that fit a selection with the votes and choices for them. Where whole
sections are selected, the choices for these sections go as well. -/
def removeSelected (s : Store) (f : Selection) : Nat × Store :=
  let gone := s.anyWithId f.covers
  let unsubscribed (t : Choice) : Bool :=
    if f.isWholeSections then f.coversSection t.key else gone t.comment
  (s.countSelected f, ((s.dropVotes gone).dropChoices unsubscribed).dropComments f.covers)

/-- Removes the comments of the sections that satisfy a condition, with all their votes and
choices. -/
def removeSections (s : Store) (p : SectionKey → Bool) : Nat × Store :=
  (s.comments.countP (p ·.key),
    ((s.dropVotes (s.anyWithId (p ·.key))).dropChoices (p ·.key)).dropComments (p ·.key))

def removeComponent (s : Store) (component : String) : Nat × Store :=
  s.removeSections (·.component == component)

def removeContexts (s : Store) (contexts : List ContextId) : Nat × Store :=
  s.removeSections fun k => contexts.contains k.context

end Discussion.Store
