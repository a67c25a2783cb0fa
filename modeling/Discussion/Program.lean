import Discussion.Area
import Discussion.Event
import Discussion.Store.Choices
import Discussion.Store.People
import Discussion.Store.Selected
import Discussion.Store.Threads
import Discussion.Store.Upvotes

namespace Discussion

/-- A call to the store. Each call happens as a whole or not at all. -/
inductive StoreCall where
  | add (record : StoredComment)
  | revise (record : StoredComment)
  | removeThread (id : CommentId) (replyTo : Option CommentId)
  | comment (id : CommentId)
  | commentsByIds (ids : List CommentId)
  | select (selection : Selection) (sort : SortOrder) (page : Option Slice)
  | countSelected (selection : Selection)
  | removeSelected (selection : Selection)
  | removeComponent (component : String)
  | removeContexts (contexts : List ContextId)
  | peopleByIds (ids : List UserId)
  | setPerson (person : Person)
  | castVote (comment : CommentId) (user : UserId) (upvote : Bool)
  | upvoted (comment : CommentId) (user : UserId)
  | withdrawVotes (user : UserId)
  | choice (user : UserId) (key : SectionKey) (comment : Option CommentId)
  | choose (user : UserId) (key : SectionKey) (comment : Option CommentId) (status : Delivery)
  | choicesFor (key : SectionKey) (comment : Option CommentId)
  | forgetChoices (user : UserId)

/-- What a store call answers. -/
abbrev StoreCall.Answer : StoreCall → Type
  | add _ => CommentId
  | revise _ => Bool
  | removeThread _ _ => Nat
  | comment _ => Option StoredComment
  | commentsByIds _ => List StoredComment
  | select _ _ _ => List StoredComment
  | countSelected _ => Nat
  | removeSelected _ => Nat
  | removeComponent _ => Nat
  | removeContexts _ => Nat
  | peopleByIds _ => List Person
  | setPerson _ => Unit
  | castVote _ _ _ => Bool
  | upvoted _ _ => Bool
  | withdrawVotes _ => Nat
  | choice _ _ _ => Option Delivery
  | choose _ _ _ _ => Unit
  | choicesFor _ _ => List (UserId × Delivery)
  | forgetChoices _ => Nat

/-- Carries out a call. -/
def Store.answer (s : Store) : (c : StoreCall) → c.Answer × Store
  | .add record => s.add record
  | .revise record => s.revise record
  | .removeThread id replyTo => s.removeThread id replyTo
  | .comment id => (s.comment? id, s)
  | .commentsByIds ids => (s.commentsByIds ids, s)
  | .select selection sort page => (s.select selection sort page, s)
  | .countSelected selection => (s.countSelected selection, s)
  | .removeSelected selection => s.removeSelected selection
  | .removeComponent component => s.removeComponent component
  | .removeContexts contexts => s.removeContexts contexts
  | .peopleByIds ids => (s.peopleByIds ids, s)
  | .setPerson person => ((), s.setPerson person)
  | .castVote comment user upvote => s.castVote comment user upvote
  | .upvoted comment user => (s.upvoted comment user, s)
  | .withdrawVotes user => s.withdrawVotes user
  | .choice user key comment => (s.choice? user key comment, s)
  | .choose user key comment status => ((), s.choose user key comment status)
  | .choicesFor key comment => (s.choicesFor key comment, s)
  | .forgetChoices user => s.forgetChoices user

/-- A question to the component that owns an area. -/
inductive HostCall where
  | item (key : SectionKey)
  | autoSubscribers (key : SectionKey)
  | visibility (contexts : List ContextId) (user : Option UserId)
  | childContexts (context : ContextId) (user : Option UserId)

abbrev HostCall.Answer : HostCall → Type
  | item _ => HostItem
  | autoSubscribers _ => List UserId
  | visibility _ _ => VisibleItems
  | childContexts _ _ => List ContextId

def Handler.answer (h : Handler) : (c : HostCall) → Except String c.Answer
  | .item key => h.item key
  | .autoSubscribers key => h.autoSubscribers key
  | .visibility contexts user => h.visibility contexts user
  | .childContexts context user => h.childContexts context user

/-- A call that may fail. -/
inductive Call where
  | store (call : StoreCall)
  | host (handler : Handler) (call : HostCall)

abbrev Call.Answer : Call → Type
  | store call => call.Answer
  | host _ call => call.Answer

/-- A computation that makes calls one after another, goes on with their answers or failures, and
tells events. -/
inductive Program (α : Type) where
  | done (result : α)
  | call (request : Call) (next : Except String request.Answer → Program α)
  | tell (event : Event) (next : Program α)

namespace Program

variable {α β σ : Type}

def bind (p : Program α) (f : α → Program β) : Program β :=
  match p with
  | .done a => f a
  | .call request next => .call request fun answer => (next answer).bind f
  | .tell event next => .tell event (next.bind f)

instance : Monad Program where
  pure := .done
  bind := bind

end Program

/-- What a program works on: the store, and the events told so far. -/
structure World where
  store : Store := {}
  events : List Event := []
deriving Inhabited

/-- Carries out a call. A question to a component changes nothing. -/
def World.answer (w : World) : (c : Call) → Except String c.Answer × World
  | .store call =>
    let (answer, store) := w.store.answer call
    (.ok answer, { w with store })
  | .host handler call => (handler.answer call, w)

/-- Decides before each call whether it fails, and with what text. A failing call does nothing. -/
abbrev Faults (σ : Type) := σ → Call → Option String × σ

/-- No call fails by itself. -/
def Faults.never : Faults Unit := fun _ _ => (none, ())

/-- Runs a program to its end. -/
def Program.run {α σ : Type} (faults : Faults σ) : Program α → σ → World → α × σ × World
  | .done result, state, world => (result, state, world)
  | .tell event next, state, world =>
    next.run faults state { world with events := world.events ++ [event] }
  | .call request next, state, world =>
    match faults state request with
    | (some failure, state) => (next (.error failure)).run faults state world
    | (none, state) =>
      let (answer, world) := world.answer request
      (next answer).run faults state world

/-- A program that may end with an error. -/
abbrev Action := ExceptT Error Program

namespace Action

/-- Makes a call; its failure is an error of storage. -/
def call (request : Call) : Action request.Answer :=
  ExceptT.mk (.call request fun answer => .done (answer.mapError Error.storage))

def store (c : StoreCall) : Action c.Answer :=
  call (.store c)

def host (h : Handler) (c : HostCall) : Action c.Answer :=
  call (.host h c)

def tell (event : Event) : Action Unit :=
  ExceptT.mk (.tell event (.done (.ok ())))

def ofExcept {α : Type} (e : Except Error α) : Action α :=
  ExceptT.mk (.done e)

instance : MonadLift (Except Error) Action where
  monadLift := ofExcept

end Action

end Discussion
