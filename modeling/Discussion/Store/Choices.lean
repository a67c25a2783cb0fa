import Discussion.Store.Basic

namespace Discussion.Store

def isChoice (user : UserId) (key : SectionKey) (comment : Option CommentId) (t : Choice) : Bool :=
  t.user == user && t.key == key && t.comment == choiceTarget comment

/-- What a user has chosen for a section, or for one comment of it. -/
def choice? (s : Store) (user : UserId) (key : SectionKey) (comment : Option CommentId) :
    Option Delivery :=
  (s.choices.find? (isChoice user key comment)).map (·.status)

/-- Stores a choice in place of an earlier one. The default status removes it. -/
def choose (s : Store) (user : UserId) (key : SectionKey) (comment : Option CommentId)
    (status : Delivery) : Store :=
  let rest := s.choices.filter fun t => !isChoice user key comment t
  if status = .default then { s with choices := rest }
  else { s with choices := rest ++ [⟨user, key, choiceTarget comment, status⟩] }

/-- What users have chosen for a section, or for one comment of it, in the order of the users. -/
def choicesFor (s : Store) (key : SectionKey) (comment : Option CommentId) :
    List (UserId × Delivery) :=
  let found := s.choices.filter fun t => t.key == key && t.comment == choiceTarget comment
  (found.map fun t => (t.user, t.status)).mergeSort fun a b => a.1 ≤ b.1

/-- Removes every choice of a user. Tells how many there were. -/
def forgetChoices (s : Store) (user : UserId) : Nat × Store :=
  (s.choices.countP (·.user == user), s.dropChoices (·.user == user))

end Discussion.Store
