import Discussion.AreaOptions
import Discussion.Error
import Discussion.Time.Instant

namespace Discussion

/-- The settings of a site. -/
structure Settings where
  databaseUrl : String := "sqlite://data/comments.db"
  enabled : Bool := true
  maxEditingSeconds : Int := 1800
  maxPageSize : Int := 200
  defaultPageSize : Int := 50
  areas : Dictionary (Dictionary AreaOptions) := []

namespace Settings

/-- The options set for an area of a component. -/
def optionsFor (s : Settings) (component area : String) : AreaOptions :=
  ((Dictionary.find? s.areas component).bind fun areas => Dictionary.find? areas area).getD {}

/-- The time in which authors may edit their comments. A negative setting allows none. -/
def editingTime (s : Settings) : Except Error Duration :=
  let seconds := max s.maxEditingSeconds 0
  match Duration.ofSeconds? seconds with
  | some window => pure window
  | none => throw (.editingTime seconds)

end Settings

end Discussion
