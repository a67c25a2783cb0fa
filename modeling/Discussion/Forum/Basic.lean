import Discussion.Section

namespace Discussion

/-- An area that a component has declared, with what the component contributes to it. -/
structure DeclaredArea where
  component : String
  area : String
  options : AreaOptions
  handler : Handler

/-- A site with the areas declared on it. -/
structure Forum where
  site : Site
  areas : List DeclaredArea := []

namespace Forum

/-- Declares an area. A later declaration of the same area takes the place of an earlier one. -/
def declare (f : Forum) (component area : String) (options : AreaOptions) (handler : Handler) :
    Except Error Forum := do
  checkName component
  checkName area
  let others := f.areas.filter fun r => !(r.component == component && r.area == area)
  return { f with areas := others ++ [⟨component, area, options, handler⟩] }

def declared? (f : Forum) (component area : String) : Option DeclaredArea :=
  f.areas.find? fun r => r.component == component && r.area == area

/-- A declared area in a context. -/
def area (f : Forum) (component area : String) (context : ContextId) : Except Error Area :=
  match f.declared? component area with
  | some r => pure ⟨component, area, context, r.options, r.handler⟩
  | none => throw (.unknownArea component area)

/-- The section of an item in a declared area. -/
def sectionOf (f : Forum) (key : SectionKey) : Action Section := do
  let area ← f.area key.component key.area key.context
  area.sectionOf key.item

/-- The names of a component's areas in increasing order. -/
def areasIn (f : Forum) (component : String) : List String :=
  let names := (f.areas.filter (·.component == component)).map (·.area)
  names.mergeSort fun a b => a ≤ b

/-- The comment with an id and the section it stands in. -/
def comment? (f : Forum) (id : CommentId) : Action (Option (Section × Comment)) := do
  match ← Action.store (.comment id) with
  | none => return none
  | some record =>
    let sec ← f.sectionOf record.key
    return some (sec, .ofStored record)

/-- Removes every comment of a component. -/
def purgeComponent (component : String) : Action Nat :=
  Action.store (.removeComponent component)

/-- Removes every comment in one of the contexts. -/
def purgeContexts (contexts : List ContextId) : Action Nat :=
  Action.store (.removeContexts contexts)

/-- Withdraws every upvote of a user. -/
def purgeVotes (user : UserId) : Action Nat :=
  Action.store (.withdrawVotes user)

/-- Takes back every choice of a user. -/
def purgeChoices (user : UserId) : Action Nat :=
  Action.store (.forgetChoices user)

end Forum

end Discussion
