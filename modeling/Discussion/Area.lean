import Discussion.Capability
import Discussion.Error
import Discussion.Selection

namespace Discussion

/-- The item of the host that a section belongs to. -/
structure HostItem where
  title : String
  url : String
  commentUrl : CommentId → String

/-- The address of a comment is the item's address with a fragment. -/
def HostItem.plain (title url : String) : HostItem where
  title := title
  url := url
  commentUrl id := url ++ "#comment-" ++ Text.integerText id

/-- The items of an area that a user may see in a listing of the whole area. -/
inductive VisibleItems where
  | hidden
  | all
  | items (ids : List ItemId)
deriving DecidableEq, Repr

def VisibleItems.range : VisibleItems → ItemRange
  | .hidden => .anyOf []
  | .all => .all
  | .items ids => .anyOf ids

/-- What the component that owns an area contributes. Only the item of a section is required. -/
structure Handler where
  item : SectionKey → Except String HostItem
  capability : SectionKey → UsualCapability → Capability := fun _ c => c.toCapability
  checkContent : SectionKey → String → TextFormat → Capability → Findings :=
    fun _ _ _ _ => []
  checkPseudonym : SectionKey → String → Capability → Findings := fun _ _ _ => []
  checkCustomData : SectionKey → Comment → Json.Fields → Capability → Findings :=
    fun _ _ _ _ => []
  beforeSave : SectionKey → Comment → Capability → Comment := fun _ comment _ => comment
  usualStatus : SectionKey → UserId → Delivery := fun _ _ => .off
  autoSubscribers : SectionKey → Except String (List UserId) := fun _ => pure []
  visibility : List ContextId → Option UserId → Except String VisibleItems :=
    fun _ _ => pure .hidden
  childContexts : ContextId → Option UserId → Except String (List ContextId) :=
    fun _ _ => pure []
  exportCustomData : SectionKey → Comment → Json.Fields → Option UserId → Json.Fields :=
    fun _ _ fields _ => fields
  sectionCustomData : SectionKey → Option UserId → Json.Fields := fun _ _ => []

/-- One comment area of a component in one context. -/
structure Area where
  component : String
  name : String
  context : ContextId
  options : AreaOptions
  handler : Handler

namespace Area

def withContext (a : Area) (context : ContextId) : Area :=
  { a with context }

def sectionKey (a : Area) (item : ItemId) : SectionKey :=
  ⟨a.component, a.name, a.context, item⟩

/-- Every comment of the area. -/
def selection (a : Area) : Selection where
  component := a.component
  area := a.name
  contexts := [a.context]

end Area

end Discussion
