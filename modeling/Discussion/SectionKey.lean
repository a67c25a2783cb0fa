import Discussion.Text.Digits

namespace Discussion

-- Powers are those of the core library, whatever else is in scope.
attribute [local instance (high)] instPowNat

abbrev CommentId := Int
abbrev UserId := Int
abbrev ContextId := Int
abbrev ItemId := Int

/-- The largest and smallest numbers that an id, a counter or a page number takes. -/
def maxNumber : Int := 2 ^ (63 : Nat) - 1

def minNumber : Int := -2 ^ (63 : Nat)

/-- A text format of comments, as the host's renderer numbers them. Format zero is plain text. -/
abbrev TextFormat := Int

def isLowerLetter (c : Char) : Bool :=
  'a' ≤ c && c ≤ 'z'

def isNameChar (c : Char) : Bool :=
  isLowerLetter c || Text.isDigit c || c == '_'

/-- Names of components and areas: at most a hundred lower-case letters, digits and underscores, the
first of them a letter. -/
def isName (s : String) : Bool :=
  match s.toList with
  | [] => false
  | c :: rest => isLowerLetter c && rest.all isNameChar && rest.length < 100

/-- Identifies the comments of one item: the component and its area, the context, and the item. -/
structure SectionKey where
  component : String
  area : String
  context : ContextId
  item : ItemId
deriving DecidableEq, Repr, Inhabited

namespace SectionKey

/-- The four parts joined by underscores. -/
def unique (k : SectionKey) : String :=
  k.component ++ "_" ++ k.area ++ "_" ++ Text.integerText k.context ++ "_"
    ++ Text.integerText k.item

end SectionKey

end Discussion
