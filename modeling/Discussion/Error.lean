import Discussion.SectionKey
import Discussion.Dictionary
import Discussion.Text.Quoted

namespace Discussion

/-- What is wrong with a comment, by field. -/
abbrev Findings := Dictionary String

/-- What only a signed-in user may do. -/
inductive MemberAction where
  | post
  | edit
  | delete
  | subscribe
  | vote
deriving DecidableEq, Repr

def MemberAction.phrase : MemberAction → String
  | .post => "post comments"
  | .edit => "edit comments"
  | .delete => "delete comments"
  | .subscribe => "subscribe"
  | .vote => "vote"

/-- Why a user is refused. -/
inductive Refusal where
  | guest (action : MemberAction)
  | post (key : SectionKey)
  | edit (id : CommentId)
  | delete (id : CommentId)
  | subscribe (key : SectionKey)
  | vote (id : CommentId)
deriving DecidableEq, Repr

def Refusal.message : Refusal → String
  | .guest action => "guests cannot " ++ action.phrase
  | .post key => "cannot post in " ++ key.unique
  | .edit id => "cannot edit comment " ++ Text.integerText id
  | .delete id => "cannot delete comment " ++ Text.integerText id
  | .subscribe key => "cannot change subscriptions in " ++ key.unique
  | .vote id => "cannot vote on comment " ++ Text.integerText id

/-- What makes a request meaningless. -/
inductive Mistake where
  | foreignComment (comment own : SectionKey)
  | nestedReply (target : CommentId)
  | unsavedComment
  | pageOutOfRange (page size : Int)
  | noScope
deriving DecidableEq, Repr

def Mistake.message : Mistake → String
  | .foreignComment comment own =>
    "comment belongs to section " ++ comment.unique ++ ", not " ++ own.unique
  | .nestedReply target =>
    "comment " ++ Text.integerText target ++ " is a reply and cannot be replied to"
  | .unsavedComment => "comment is not saved"
  | .pageOutOfRange page size =>
    "page " ++ Text.integerText page ++ " of size " ++ Text.integerText size ++ " is out of range"
  | .noScope => "component, comment_area and context_id are required"

/-- Why an operation fails. The editing window error stands for a window that is too long to
compute with. -/
inductive Error where
  | sortDirection (value : String)
  | unknownStatus (value : String)
  | name (value : String)
  | pseudonymRemoval
  | customData
  | disabled
  | unknownArea (component area : String)
  | pageSize (requested max : Int)
  | mistake (cause : Mistake)
  | validation (comment : Option CommentId) (errors : Findings)
  | refused (cause : Refusal)
  | notFound (id : CommentId)
  | missing (ids : List CommentId)
  | storage (cause : String)
  | editingTime (seconds : Int)
deriving DecidableEq, Repr

namespace Error

/-- The text of a validation error names the comment as known or not. -/
def optionalId : Option CommentId → String
  | none => "None"
  | some id => "Some(" ++ Text.integerText id ++ ")"

def message : Error → String
  | .sortDirection value =>
    "Invalid value for sort direction (value: " ++ value ++ "), allowed values are: ASC,DESC"
  | .unknownStatus value => "Invalid subscription status: " ++ value
  | .name value => "Invalid component or area name: '" ++ value ++ "'"
  | .pseudonymRemoval => "A pseudonym cannot be removed, only changed"
  | .customData => "Custom data is not a valid JSON object"
  | .disabled => "Comments are disabled on this site"
  | .unknownArea component area => "Unknown comment area " ++ component ++ "/" ++ area
  | .pageSize requested max =>
    "Page size " ++ Text.integerText requested ++ " exceeds the maximum of "
      ++ Text.integerText max
  | .mistake cause => "Invalid input: " ++ cause.message
  | .validation comment errors =>
    "Validation failed for comment " ++ optionalId comment ++ ": " ++ Text.quotedPairs errors
  | .refused cause => "Permission denied: " ++ cause.message
  | .notFound id => "Comment " ++ Text.integerText id ++ " not found"
  | .missing ids =>
    "Comments not found: [" ++ ", ".intercalate (ids.map Text.integerText) ++ "]"
  | .storage cause => "Storage failure: " ++ cause
  | .editingTime seconds =>
    "Editing window of " ++ Text.integerText seconds ++ " seconds is too long"

/-- An error of a single field. -/
def field (comment : Option CommentId) (name text : String) : Error :=
  .validation comment [(name, text)]

end Error

/-- Accepts the names of components and areas. -/
def checkName (s : String) : Except Error Unit :=
  if isName s then pure () else throw (.name s)

/-- The key of a section with checked names. -/
def SectionKey.make (component area : String) (context : ContextId) (item : ItemId) :
    Except Error SectionKey := do
  checkName component
  checkName area
  return ⟨component, area, context, item⟩

end Discussion
