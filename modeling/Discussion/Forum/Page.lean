import Discussion.Forum.Basic
import Discussion.Request
import Discussion.Listing
import Discussion.Text.Case
import Discussion.Shown

namespace Discussion

/-- One page of a listing, with the number of comments on all pages, replies among them. -/
structure CommentPage where
  comments : List ShownComment
  total : Nat
  sections : List ShownSection
  pageSize : Int
  mayPost : Bool

/-- A bound on times, named by its field, must be a moment that a date can hold. -/
def timeBound (name : String) (seconds : Option Int) : Except Error (Option Instant) :=
  match seconds with
  | none => pure none
  | some s =>
    match Instant.ofSeconds? s with
    | some t => pure (some t)
    | none => throw (.field none name "timestamp out of range")

/-- What a request asks of a listing. The direction of the sort may be written in small letters. -/
def ListRequest.params (settings : Settings) (req : ListRequest) : Except Error ListingQuery := do
  let sort ← SortOrder.ofName (Text.upper req.sort)
  let pageSize := req.pageSize.getD settings.defaultPageSize
  if settings.maxPageSize < pageSize then
    throw (.pageSize pageSize settings.maxPageSize)
  if (Slice.rowsBefore? req.page pageSize).isNone then
    throw (.mistake (.pageOutOfRange req.page pageSize))
  let timeFrom ← timeBound "time_from" req.timeFrom
  let timeTo ← timeBound "time_to" req.timeTo
  return {
    comment := req.comment
    replyTo := req.replyTo
    timeFrom
    timeTo
    page := req.page
    pageSize
    sort
    includeReplies := req.includeReplies
    includeChildContexts := req.includeChildContexts }

namespace Listing

/-- The author and the last modifier of a comment, whoever may see them. -/
def peopleOf (c : Comment) : ListingM Participants := do
  let author ← person c.author
  let modifier ← person c.modifier
  return { author, modifier }

/-- The view of a comment on the page. -/
def viewComment (site : Site) (user : Option UserId) (c : Comment) :
    ListingM (Option ShownComment) := do
  match (← get).sectionOf c.key with
  | none => return none
  | some sec =>
    -- A capability that is kept for the text of the section's key is this one: the sections of a
    -- page are of one area, where the text tells the section (`Forum.Panorama.told`), and what a
    -- section grants a user depends on nothing else.
    let cap ← sec.capability site user
    let people ← peopleOf c
    let view ← sec.viewComment c cap people
    return some view

/-- The sections of a page: the one that the listing is bound to, else those of its comments. -/
def pageSections (s : Listing) : List Section :=
  match s.boundSection? with
  | some sec => [sec]
  | none => s.foundSections

def viewSection (site : Site) (user : Option UserId) (sec : Section) : Action ShownSection := do
  let cap ← sec.capability site user
  sec.view cap

/-- The page of the listing. Posting is possible only where the listing is bound to a section. -/
def toPage (site : Site) (user : Option UserId) : ListingM CommentPage := do
  let comments ← all site
  let total ← countAllPages site true
  let views ← comments.filterMapM (viewComment site user)
  let s ← get
  let sections ← s.pageSections.mapM fun sec => ListingM.ofAction (viewSection site user sec)
  return {
    comments := views
    total
    sections
    pageSize := s.params.pageSize
    mayPost := s.boundSection?.isSome && sections.head?.any (·.mayPost) }

end Listing

namespace Forum

/-- The listing that a request is about. A comment alone is looked for in its own section. -/
def openListing (f : Forum) (user : Option UserId) (req : ListRequest) (params : ListingQuery) :
    Action Listing := do
  let viewer := Viewer.ofUser user
  match req.comment with
  | some id =>
    match ← f.comment? id with
    | some (sec, _) => return .ofSection sec params viewer
    | none => throw (.notFound id)
  | none =>
    match req.component, req.area, req.context with
    | some component, some area, some context =>
      let area ← f.area component area context
      match req.item with
      | some item => return .ofSection (← area.sectionOf item) params viewer
      | none => return .ofArea area params viewer
    | _, _, _ => throw (.mistake .noScope)

/-- One page of comments. -/
def list (f : Forum) (user : Option UserId) (req : ListRequest) : Action CommentPage := do
  let params ← req.params f.site.settings
  let listing ← f.openListing user req params
  (Listing.toPage f.site user).eval listing

/-- The section of an item. There is none without an item, or where the user may not view it. -/
def sectionViews (f : Forum) (user : Option UserId) (req : SectionRequest) :
    Action (List ShownSection) := do
  match req.item with
  | none => return []
  | some item =>
    let sec ← f.sectionOf ⟨req.component, req.area, req.context, item⟩
    let cap ← sec.capability f.site user
    if cap.mayView then return [← sec.view cap] else return []

end Forum

end Discussion
