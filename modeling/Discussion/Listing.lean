import Discussion.PeopleCache
import Discussion.Section

namespace Discussion

/-- Whom a listing is for. Nothing is hidden from the trusted viewer. -/
inductive Viewer where
  | trusted
  | guest
  | user (id : UserId)
deriving DecidableEq, Repr

namespace Viewer

def user? : Viewer → Option UserId
  | .user id => some id
  | _ => none

def ofUser : Option UserId → Viewer
  | some id => .user id
  | none => .guest

end Viewer

/-- What a listing asks for. Pages count from zero, and a page size that is not positive sets no
limit. With a comment id the listing is about that comment alone. -/
structure ListingQuery where
  comment : Option CommentId := none
  replyTo : Option CommentId := none
  timeFrom : Option Instant := none
  timeTo : Option Instant := none
  page : Int := 0
  pageSize : Int := -1
  sort : SortOrder := .descending
  includeReplies : Bool := false
  includeChildContexts : Bool := false
deriving DecidableEq, Repr

def ListingQuery.parent (p : ListingQuery) (includeReplies : Bool) : ThreadLevel :=
  match p.replyTo with
  | some id => .repliesTo id
  | none => if includeReplies then .any else .topLevel

/-- Where a listing looks. -/
inductive Place where
  | ofSection (s : Section)
  | ofArea (a : Area)

/-- A listing. What it has found out stays for its life: the comments of its page, the totals, which
sections of an area the viewer may see, the contexts and items of the area, and people. -/
structure Listing where
  place : Place
  params : ListingQuery
  viewer : Viewer
  results : Option (List Comment) := none
  totalWithReplies : Option Nat := none
  totalTopLevel : Option Nat := none
  sections : Dictionary (Option Section) := []
  reach : Option (List ContextId × ItemRange) := none
  people : PeopleCache := {}

/-- A computation on a listing. What the listing has found out stays, also after an error. -/
abbrev ListingM := ExceptT Error (StateT Listing Program)

namespace ListingM

variable {α : Type}

def ofAction (e : Action α) : ListingM α :=
  ExceptT.mk (StateT.lift e.run)

instance : MonadLift Action ListingM where
  monadLift := ofAction

/-- The result of a computation on a listing that is not used further. -/
def eval (m : ListingM α) (s : Listing) : Action α :=
  ExceptT.mk ((fun r => r.1) <$> m.run.run s)

end ListingM

/-- A comment fits a selection, whatever it replies to. -/
def Selection.coversAlone (f : Selection) (r : StoredComment) : Bool :=
  f.coversSection r.key && f.coversInstant r.timeCreated

namespace Listing

def ofSection (s : Section) (params : ListingQuery) (viewer : Viewer) : Listing where
  place := .ofSection s
  params := params
  viewer := viewer

def ofArea (a : Area) (params : ListingQuery) (viewer : Viewer) : Listing where
  place := .ofArea a
  params := params
  viewer := viewer

/-- The section that the listing is bound to. -/
def boundSection? (s : Listing) : Option Section :=
  match s.place with
  | .ofSection sec => some sec
  | .ofArea _ => none

def admits (site : Site) (viewer : Viewer) (sec : Section) : Except Error Bool :=
  match viewer with
  | .trusted => pure true
  | viewer => do return (← sec.capability site viewer.user?).mayView

/-- A listing of a section that the viewer may not see asks the store nothing. -/
def isVisible (site : Site) (s : Listing) : Except Error Bool :=
  match s.place with
  | .ofSection sec => admits site s.viewer sec
  | .ofArea _ => pure true

/-- The given contexts after the first, each once, without those already there. -/
def addContexts (contexts : List ContextId) (more : List ContextId) : List ContextId :=
  more.foldl (fun contexts c => if contexts.contains c then contexts else contexts ++ [c]) contexts

/-- The contexts and items of an area that the viewer's listing covers. -/
def findReach (a : Area) : ListingM (List ContextId × ItemRange) := do
  let s ← get
  if let some reach := s.reach then return reach
  let user := s.viewer.user?
  let children ←
    if s.params.includeChildContexts then
      Action.host a.handler (.childContexts a.context user)
    else pure []
  let contexts := addContexts [a.context] children
  let visibility ← Action.host a.handler (.visibility contexts user)
  let reach := (contexts, visibility.range)
  modify fun s => { s with reach := some reach }
  return reach

/-- The condition on the comments of the listing, with or without replies. -/
def selection (includeReplies : Bool) : ListingM Selection := do
  let s ← get
  let base : Selection ← match s.place with
    | .ofSection sec => pure sec.selection
    | .ofArea a => do
      let (contexts, items) ← findReach a
      pure { a.selection with contexts, items }
  return { base with
    parent := s.params.parent includeReplies
    timeFrom := s.params.timeFrom
    timeTo := s.params.timeTo }

/-- Whether the viewer may see a comment of an area's listing. Each section is looked up once. -/
def accept (site : Site) (a : Area) (r : StoredComment) : ListingM Bool := do
  let s ← get
  if let some known := Dictionary.find? s.sections r.key.unique then
    return known.isSome
  let sec ← (a.withContext r.key.context).sectionOf r.key.item
  let allowed ← admits site s.viewer sec
  modify fun s => { s with
    sections := Dictionary.insert s.sections r.key.unique (if allowed then some sec else none) }
  return allowed

def acceptAll (site : Site) (a : Area) : List StoredComment → ListingM (List Comment)
  | [] => return []
  | r :: rest => do
    if ← accept site a r then
      return .ofStored r :: (← acceptAll site a rest)
    else acceptAll site a rest

/-- The rows of the page, before any are hidden. -/
def fetchRows : ListingM (List StoredComment) := do
  let s ← get
  match s.params.comment with
  | some id =>
    let f ← selection true
    let record ← Action.store (.comment id)
    return (record.filter f.coversAlone).toList
  | none =>
    let f ← selection s.params.includeReplies
    Action.store (.select f s.params.sort
      (Slice.ofPage? s.params.page s.params.pageSize))

def fetch (site : Site) : ListingM (List Comment) := do
  let s ← get
  if !(← s.isVisible site) then return []
  let rows ← fetchRows
  match s.place with
  | .ofSection _ => return rows.map .ofStored
  | .ofArea a => acceptAll site a rows

/-- The comments of the page. -/
def all (site : Site) : ListingM (List Comment) := do
  match (← get).results with
  | some comments => return comments
  | none =>
    let comments ← fetch site
    modify fun s => { s with results := some comments }
    return comments

def first (site : Site) : ListingM (Option Comment) := do
  return (← all site).head?

/-- The size of the page once it is there, before that the rows from the page on. -/
def count (site : Site) : ListingM Nat := do
  let s ← get
  if let some comments := s.results then return comments.length
  if s.params.comment.isSome then return (← all site).length
  if !(← s.isVisible site) then return 0
  let f ← selection s.params.includeReplies
  let total ← Action.store (.countSelected f)
  let skipped := min (Slice.rowsBefore s.params.page s.params.pageSize) maxNumber
  return (total - skipped).toNat

def total? (s : Listing) (includeReplies : Bool) : Option Nat :=
  if includeReplies then s.totalWithReplies else s.totalTopLevel

def setTotal (s : Listing) (includeReplies : Bool) (n : Nat) : Listing :=
  if includeReplies then { s with totalWithReplies := some n }
  else { s with totalTopLevel := some n }

/-- The rows of all pages, with or without replies. -/
def countAllPages (site : Site) (includeReplies : Bool) : ListingM Nat := do
  let s ← get
  if let some n := s.total? includeReplies then return n
  let n ←
    if s.params.comment.isSome then (fun comments => comments.length) <$> all site
    else if ← s.isVisible site then do
      let f ← selection includeReplies
      Action.store (.countSelected f)
    else pure 0
  modify fun s => s.setTotal includeReplies n
  return n

/-- The section of a comment of the listing. -/
def sectionOf (s : Listing) (key : SectionKey) : Option Section :=
  match s.place with
  | .ofSection sec => if sec.key = key then some sec else none
  | .ofArea _ => (Dictionary.find? s.sections key.unique).join

/-- The sections of the comments on the page, each once and in order of first appearance. -/
def foundSections (s : Listing) : List Section :=
  go [] ((s.results.getD []).filterMap fun c => s.sectionOf c.key)
where
  go (seen : List String) : List Section → List Section
    | [] => []
    | sec :: rest =>
      if seen.contains sec.key.unique then go seen rest
      else sec :: go (sec.key.unique :: seen) rest

/-- The authors and modifiers of the comments on the page. -/
def peopleOfPage (s : Listing) : List UserId :=
  (s.results.getD []).flatMap fun c => [c.author, c.modifier]

/-- The person with an id. The people of the page are looked up along. -/
def person (id : UserId) : ListingM (Option Person) := do
  let s ← get
  let (person, people) ← s.people.get id s.peopleOfPage
  modify fun s => { s with people }
  return person

end Listing

end Discussion
