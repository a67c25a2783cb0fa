import Discussion.Proofs.Attachment
import Discussion.Proofs.Refusals
import Discussion.Proofs.StoreMatches
import Discussion.Proofs.StoredPeople

namespace Discussion

variable {s t : Store} {w : World}

/-- A request to vote, and the forum as it stands when its turn comes. -/
structure Ballot where
  forum : Forum
  user : Option UserId
  request : VoteRequest

namespace Ballot

/-- What the request is answered with, where no call fails. -/
def answer (b : Ballot) (w : World) : Except Error Int :=
  ((b.forum.vote b.user b.request).run.run Faults.never () w).1

/-- What the request makes of a world, where no call fails. -/
def cast (b : Ballot) (w : World) : World :=
  ((b.forum.vote b.user b.request).run.run Faults.never () w).2.2

/-- A refused request changes nothing. An accepted one is answered with the upvotes that its comment
has afterwards, and it is told of just when the user's vote for the comment is new or gone. -/
def Tells (b : Ballot) (w : World) : Prop :=
  match b.answer w with
  | .error _ => b.cast w = w
  | .ok n => ∃ user x, b.user = some user ∧
      (b.cast w).store.comment? b.request.comment = some x ∧ x.upvotes = n ∧
      (b.cast w).events = w.events ++
        if (b.cast w).store.upvoted b.request.comment user = w.store.upvoted b.request.comment user
        then [] else [.voted b.request.key b.request.comment user b.request.upvote]

def isFor (id : CommentId) (user : UserId) (b : Ballot) : Bool :=
  b.request.comment == id && b.user == some user

/-- What a user asks for last with regard to a comment. -/
def last (bs : List Ballot) (id : CommentId) (user : UserId) : Option Bool :=
  (bs.filter (isFor id user)).getLast?.map (·.request.upvote)

/-- Those of the requests that are accepted, each in the world that the ones before have made. -/
def accepted (w : World) : List Ballot → List Ballot
  | [] => []
  | b :: bs => if (b.answer w).toBool then b :: accepted (b.cast w) bs else accepted (b.cast w) bs

end Ballot

/-- What requests to vote make of a world, one after another. -/
def World.polled (w : World) (bs : List Ballot) : World :=
  bs.foldl (fun w b => b.cast w) w

namespace Store

/-- From one store to the other nothing but votes may have come or gone, and the upvotes of every
comment have changed by as much as the number of its votes. -/
structure Revotes (s t : Store) : Prop where
  comments : t.comments = s.comments.map fun c =>
    { c with upvotes := c.upvotes + (t.votesFor c.id - s.votesFor c.id) }
  lastId : t.lastId = s.lastId
  choices : t.choices = s.choices
  people : t.people = s.people

theorem Revotes.refl (s : Store) : s.Revotes s := by
  refine ⟨?_, rfl, rfl, rfl⟩
  simp only [Int.sub_self, Int.add_zero, List.map_id']

theorem Revotes.trans {r : Store} (h : s.Revotes t) (h' : t.Revotes r) : s.Revotes r := by
  refine ⟨?_, h'.lastId.trans h.lastId, h'.choices.trans h.choices, h'.people.trans h.people⟩
  rw [h'.comments, h.comments, List.map_map]
  refine List.map_congr_left fun c _ => ?_
  dsimp only [Function.comp_apply]
  congr 1
  lia

theorem Revotes.symm (h : s.Revotes t) : t.Revotes s := by
  refine ⟨?_, h.lastId.symm, h.choices.symm, h.people.symm⟩
  rw [h.comments, List.map_map]
  refine (List.map_id'' (fun c => ?_) _).symm
  cases c
  dsimp only [Function.comp_apply]
  congr 1
  lia

theorem Revotes.matches {r : Store} (h : r.Revotes s) (h' : r.Revotes t) (hs : s.votes.Nodup)
    (ht : t.votes.Nodup) (hsame : ∀ id user, t.upvoted id user = s.upvoted id user) :
    s.Matches t := by
  have hvotes : t.votes.Perm s.votes := by
    refine (List.perm_ext_iff_of_nodup ht hs).2 fun v => ?_
    rw [← List.contains_iff_mem, ← List.contains_iff_mem]
    exact Bool.eq_iff_iff.1 (hsame v.comment v.user)
  refine ⟨?_, h'.lastId.trans h.lastId.symm, hvotes, h'.choices.trans h.choices.symm,
    h'.people.trans h.people.symm⟩
  have hcount (id : CommentId) : t.votesFor id = s.votesFor id := hvotes.countP_eq _
  simp only [h'.comments, h.comments, hcount]

variable {id : CommentId} {user : UserId} {upvote : Bool}

theorem upvoted_castVote (s : Store) (id i : CommentId) (user u : UserId) (upvote : Bool) :
    (s.castVote id user upvote).2.upvoted i u =
      if i = id ∧ u = user then upvote else s.upvoted i u := by
  rw [Bool.eq_iff_iff, upvoted, List.contains_iff_mem, mem_votes_castVote]
  simp only [Vote.mk.injEq]
  split
  · rfl
  · exact List.contains_iff_mem.symm

theorem castVote_fst (s : Store) (id : CommentId) (user : UserId) (upvote : Bool) :
    (s.castVote id user upvote).1 = (s.upvoted id user != upvote) := by
  unfold castVote
  cases s.upvoted id user <;> cases upvote <;> rfl

theorem voteChange_eq (s : Store) (id : CommentId) (user : UserId) (upvote : Bool) :
    s.voteChange id user upvote =
      if (s.castVote id user upvote).1 then if upvote then 1 else -1 else 0 := by
  rw [voteChange, castVote_fst]
  cases s.upvoted id user <;> cases upvote <;> rfl

theorem comment?_castVote {x : StoredComment} (hx : s.comment? id = some x) :
    (s.castVote id user upvote).2.comment? id =
      some { x with upvotes := x.upvotes + s.voteChange id user upvote } := by
  have hid := (mem_of_comment? hx).2
  unfold comment? at hx ⊢
  rw [comments_castVote, List.find?_map]
  have hsame : (fun c : StoredComment => c.id == id) ∘ (fun c : StoredComment =>
      if c.id = id then { c with upvotes := c.upvotes + s.voteChange id user upvote } else c) =
        fun c => c.id == id := by
    funext c
    dsimp only [Function.comp_apply]
    split <;> rfl
  rw [hsame, hx, Option.map_some, if_pos hid]

theorem nodup_votes_answer (h : s.votes.Nodup) (c : StoreCall) : (s.answer c).2.votes.Nodup := by
  rcases s.votes_answer c with hsub | ⟨id, user, rfl, hnew, hvotes⟩
  · exact h.sublist hsub
  · rw [hvotes, List.nodup_append]
    refine ⟨h, List.nodup_singleton _, fun v hv u hu hvu => hnew ?_⟩
    rwa [← List.mem_singleton.1 hu, ← hvu]

theorem nodup_votes_of_reached {allowed : Forum → Operation → Prop} (hw : Reached allowed w) :
    w.store.votes.Nodup :=
  Writes.reached (.of_store (P := fun s => s.votes.Nodup) fun _ c _ h => nodup_votes_answer h c)
    List.nodup_nil hw

theorem revotes_castVote (h : s.votes.Nodup) (id : CommentId) (user : UserId) (upvote : Bool) :
    s.Revotes (s.castVote id user upvote).2 where
  comments := by
    rw [comments_castVote]
    refine List.map_congr_left fun c _ => ?_
    have hvotes := votesFor_castVote h id user upvote c.id
    split
    next hid =>
      rw [if_pos hid] at hvotes
      congr 1
      lia
    next hid =>
      rw [if_neg hid] at hvotes
      cases c
      congr 1
      lia
  lastId := by
    have hlast := s.lastId_answer (.castVote id user upvote)
    exact hlast.trans (Int.add_zero _)
  choices := s.choices_castVote id user upvote
  people := by
    rcases s.people_answer (.castVote id user upvote) with hsame | ⟨person, hcall⟩
    · exact hsame
    · cases hcall

end Store

/-- The component lets a user vote for a comment whatever its upvotes come to. -/
def Handler.IgnoresVotes (h : Handler) : Prop :=
  ∀ key usual (c : Comment) n,
    (h.capability key usual).mayUpvote (c.addUpvotes n) = (h.capability key usual).mayUpvote c

theorem Handler.GrantsUsual.ignoresVotes {h : Handler} (husual : h.GrantsUsual) :
    h.IgnoresVotes := by
  intro key usual c n
  rw [husual]
  rfl

theorem Section.vote_yields (sec : Section) {comment : Comment} {id : CommentId}
    (hid : comment.id = some id) (user : UserId) (upvote : Bool) (w : World) :
    let changed := (w.store.castVote id user upvote).1
    (sec.vote comment user upvote).Yields w
      (changed, comment.addUpvotes (w.store.voteChange id user upvote)) {
        store := (w.store.castVote id user upvote).2
        events := w.events ++ if changed then [.voted sec.key id user upvote] else [] } := by
  intro changed
  unfold Section.vote
  rw [Store.voteChange_eq, hid]
  refine Action.yields_bind.2 ⟨_, _, Action.yields_store.2 ⟨rfl, rfl⟩, ?_⟩
  change Action.Yields (if changed then _ else _) _ (changed, comment.addUpvotes
    (if changed then _ else _)) _
  generalize changed = c
  cases c with
  | true =>
    refine Action.yields_bind.2 ⟨(), _, Action.yields_tell.2 rfl, ?_⟩
    exact Action.yields_pure.2 ⟨rfl, rfl⟩
  | false =>
    refine Action.yields_pure.2 ⟨?_, ?_⟩
    · rw [if_neg Bool.false_ne_true, Comment.addUpvotes, Int.add_zero]
    · rw [if_neg Bool.false_ne_true, List.append_nil]
      rfl

namespace Ballot

/-- The request is one of a member who may upvote the comment. -/
structure Stands (b : Ballot) (s : Store) (user : UserId) (sec : Section) (x : StoredComment) :
    Prop where
  member : b.forum.memberOf b.user .vote = .ok user
  located : (b.forum.sectionOf b.request.key).look s = .ok sec
  found : s.comment? b.request.comment = some x
  own : x.key = sec.key
  allowed : ∃ cap, sec.capability b.forum.site (some user) = .ok cap ∧ cap.mayUpvote (.ofStored x)

variable {b : Ballot} {user : UserId} {sec : Section} {x : StoredComment}

theorem Stands.yields (h : b.Stands w.store user sec x) :
    let changed := (w.store.castVote b.request.comment user b.request.upvote).1
    (b.forum.vote b.user b.request).Yields w
      (x.upvotes + w.store.voteChange b.request.comment user b.request.upvote) {
        store := (w.store.castVote b.request.comment user b.request.upvote).2
        events := w.events ++ if changed
          then [.voted b.request.key b.request.comment user b.request.upvote] else [] } := by
  intro changed
  obtain ⟨cap, hcap, hallowed⟩ := h.allowed
  have hsection := (b.forum.sectionOf_reads b.request.key).answers h.located
  have hcomment : (sec.comment b.request.comment).Answers w (.ofStored x) :=
    (sec.comment_reads _).answers (sec.look_comment.2 ⟨x, h.found, h.own, rfl⟩)
  have hid : (Comment.ofStored x).id = some b.request.comment :=
    congrArg some (Store.mem_of_comment? h.found).2
  unfold Forum.vote Action.Yields
  rw [(Action.answers_lift h.member).run_bind, hsection.run_bind, hcomment.run_bind,
    (Action.answers_lift hcap).run_bind]
  dsimp only
  rw [hallowed, Bool.not_true, if_neg Bool.false_ne_true,
    ← (b.forum.sectionOf_reads _).look h.located]
  refine Action.yields_bind.2 ⟨_, _, sec.vote_yields hid user b.request.upvote w, ?_⟩
  exact Action.yields_pure.2 ⟨rfl, rfl⟩

theorem cast_cases (b : Ballot) (w : World) : (∃ user sec x, b.Stands w.store user sec x) ∨
    (∃ e, b.answer w = .error e) ∧ b.cast w = w := by
  unfold answer cast Forum.vote
  rw [(Action.Reads.lift_any _).run_bind, Action.look_lift]
  cases hmember : b.forum.memberOf b.user .vote with
  | error e => exact .inr ⟨⟨e, rfl⟩, rfl⟩
  | ok user =>
    dsimp only
    rw [(b.forum.sectionOf_reads _).run_bind]
    cases hsec : (b.forum.sectionOf b.request.key).look w.store with
    | error e => exact .inr ⟨⟨e, rfl⟩, rfl⟩
    | ok sec =>
      dsimp only
      rw [(sec.comment_reads _).run_bind]
      cases hcomment : (sec.comment b.request.comment).look w.store with
      | error e => exact .inr ⟨⟨e, rfl⟩, rfl⟩
      | ok comment =>
        obtain ⟨x, hx, hown, rfl⟩ := sec.look_comment.1 hcomment
        dsimp only
        rw [(Action.Reads.lift_any _).run_bind, Action.look_lift]
        cases hcap : sec.capability b.forum.site (some user) with
        | error e => exact .inr ⟨⟨e, rfl⟩, rfl⟩
        | ok cap =>
          dsimp only
          cases hallowed : cap.mayUpvote (.ofStored x) with
          | false => exact .inr ⟨⟨_, rfl⟩, rfl⟩
          | true => exact .inl ⟨user, sec, x, hmember, hsec, hx, hown, cap, hcap, hallowed⟩

theorem Stands.answer_eq (h : b.Stands w.store user sec x) : b.answer w =
    .ok (x.upvotes + w.store.voteChange b.request.comment user b.request.upvote) :=
  congrArg Prod.fst h.yields

theorem Stands.store_eq (h : b.Stands w.store user sec x) :
    (b.cast w).store = (w.store.castVote b.request.comment user b.request.upvote).2 :=
  congrArg (fun r => r.2.2.store) h.yields

theorem Stands.events_eq (h : b.Stands w.store user sec x) : (b.cast w).events = w.events ++
    if (w.store.castVote b.request.comment user b.request.upvote).1
    then [.voted b.request.key b.request.comment user b.request.upvote] else [] :=
  congrArg (fun r => r.2.2.events) h.yields

theorem Stands.user_eq (h : b.Stands s user sec x) : b.user = some user :=
  b.forum.memberOf_eq_ok h.member

theorem tells (b : Ballot) (w : World) : b.Tells w := by
  unfold Tells
  rcases b.cast_cases w with ⟨user, sec, x, h⟩ | ⟨⟨e, he⟩, hw⟩
  · rw [h.answer_eq]
    have hupvoted : (b.cast w).store.upvoted b.request.comment user = b.request.upvote := by
      rw [h.store_eq, Store.upvoted_castVote]
      exact if_pos ⟨rfl, rfl⟩
    refine ⟨user, _, h.user_eq, h.store_eq ▸ Store.comment?_castVote h.found, rfl, ?_⟩
    rw [h.events_eq, hupvoted, Store.castVote_fst]
    cases w.store.upvoted b.request.comment user <;> cases b.request.upvote <;> rfl
  · rw [he]
    exact hw

theorem upvoted_cast (b : Ballot) (w : World) (id : CommentId) (user : UserId) :
    (b.cast w).store.upvoted id user =
      if (b.answer w).toBool && b.isFor id user then b.request.upvote
      else w.store.upvoted id user := by
  rcases b.cast_cases w with ⟨u, sec, x, h⟩ | ⟨⟨e, he⟩, hw⟩
  · have hown : b.isFor id user = true ↔ id = b.request.comment ∧ user = u := by
      rw [isFor, h.user_eq, Bool.and_eq_true, beq_iff_eq, beq_iff_eq, Option.some.injEq, eq_comm,
        @eq_comm _ u]
    rw [h.store_eq, Store.upvoted_castVote, h.answer_eq]
    simp only [Except.toBool, Bool.true_and, hown]
  · rw [he, hw]
    rfl

theorem revotes_cast (b : Ballot) (hw : w.store.votes.Nodup) :
    w.store.Revotes (b.cast w).store ∧ (b.cast w).store.votes.Nodup := by
  rcases b.cast_cases w with ⟨user, sec, x, h⟩ | ⟨-, hsame⟩
  · rw [h.store_eq]
    exact ⟨Store.revotes_castVote hw _ _ _, Store.nodup_votes_answer hw (.castVote _ _ _)⟩
  · rw [hsame]
    exact ⟨.refl _, hw⟩

theorem last_cons (b : Ballot) (bs : List Ballot) (id : CommentId) (user : UserId) :
    last (b :: bs) id user =
      (last bs id user).or (if b.isFor id user then some b.request.upvote else none) := by
  unfold last
  rw [List.filter_cons]
  split
  · rw [List.getLast?_cons]
    cases (bs.filter (isFor id user)).getLast? <;> rfl
  · rw [Option.or_none]

theorem upvoted_polled (w : World) (bs : List Ballot) (id : CommentId) (user : UserId) :
    (w.polled bs).store.upvoted id user =
      (last (accepted w bs) id user).getD (w.store.upvoted id user) := by
  induction bs generalizing w with
  | nil => rfl
  | cons b bs ih =>
    refine (ih (b.cast w)).trans ?_
    rw [upvoted_cast, accepted]
    cases (b.answer w).toBool with
    | false => rfl
    | true =>
      rw [if_pos rfl, last_cons, Bool.true_and]
      cases last (accepted (b.cast w) bs) id user with
      | some upvote => rfl
      | none => split <;> rfl

theorem revotes_polled (hw : w.store.votes.Nodup) (bs : List Ballot) :
    w.store.Revotes (w.polled bs).store ∧ (w.polled bs).store.votes.Nodup := by
  induction bs generalizing w with
  | nil => exact ⟨.refl _, hw⟩
  | cons b bs ih =>
    obtain ⟨hcast, hnodup⟩ := b.revotes_cast hw
    obtain ⟨hrest, hlast⟩ := ih hnodup
    exact ⟨hcast.trans hrest, hlast⟩

/-- Where upvotes have no say in it, a request is accepted or refused whatever votes there are. -/
theorem Stands.of_revotes (h : b.Stands s user sec x) (hst : s.Revotes t)
    (hb : ∀ d ∈ b.forum.areas, d.handler.IgnoresVotes) : ∃ y, b.Stands t user sec y := by
  obtain ⟨cap, hcap, hallowed⟩ := h.allowed
  obtain ⟨-, hignores⟩ := (Forum.sectionOf_handler hb b.request.key).look h.located
  obtain ⟨window, -, hgiven⟩ := exists_of_bind_eq_ok hcap
  obtain rfl := Except.ok.inj hgiven
  have hfound : t.comment? b.request.comment = (s.comment? b.request.comment).map fun c =>
      { c with upvotes := c.upvotes + (t.votesFor c.id - s.votesFor c.id) } := by
    rw [Store.comment?, hst.comments, List.find?_map]
    rfl
  rw [h.found] at hfound
  refine ⟨_, h.member, ?_, hfound, h.own, _, hcap, ?_⟩
  · rw [Forum.look_sectionOf (s := s)]
    exact h.located
  · exact (hignores _ _ (.ofStored x) _).trans hallowed

theorem toBool_answer_iff (b : Ballot) (w : World) :
    (b.answer w).toBool ↔ ∃ user sec x, b.Stands w.store user sec x := by
  rcases b.cast_cases w with ⟨user, sec, x, h⟩ | ⟨⟨e, he⟩, -⟩
  · exact iff_of_true (by rw [h.answer_eq]; rfl) ⟨user, sec, x, h⟩
  · refine iff_of_false (by rw [he]; exact Bool.false_ne_true) ?_
    rintro ⟨user, sec, x, h⟩
    cases he.symm.trans h.answer_eq

theorem toBool_answer_eq {w' : World} (h : w.store.Revotes w'.store)
    (hb : ∀ d ∈ b.forum.areas, d.handler.IgnoresVotes) :
    (b.answer w').toBool = (b.answer w).toBool := by
  rw [Bool.eq_iff_iff, toBool_answer_iff, toBool_answer_iff]
  constructor
  · rintro ⟨user, sec, x, hx⟩
    exact ⟨user, sec, hx.of_revotes h.symm hb⟩
  · rintro ⟨user, sec, x, hx⟩
    exact ⟨user, sec, hx.of_revotes h hb⟩

theorem accepted_eq_filter (hw : w.store.votes.Nodup) {bs : List Ballot}
    (hbs : ∀ b ∈ bs, ∀ d ∈ b.forum.areas, d.handler.IgnoresVotes) :
    accepted w bs = bs.filter fun b => (b.answer w).toBool := by
  suffices hlater : ∀ w', w'.store.votes.Nodup → w.store.Revotes w'.store →
      accepted w' bs = bs.filter fun b => (b.answer w).toBool from hlater w hw (.refl _)
  induction bs with
  | nil => exact fun _ _ _ => rfl
  | cons b bs ih =>
    intro w' hw' hrevotes
    obtain ⟨hb, hbs⟩ := List.forall_mem_cons.1 hbs
    obtain ⟨hcast, hnodup⟩ := b.revotes_cast hw'
    rw [accepted, ih hbs _ hnodup (hrevotes.trans hcast), toBool_answer_eq hrevotes hb,
      List.filter_cons]

theorem last_filter_congr {p : Ballot → Bool} {bs bs' : List Ballot} {id : CommentId}
    {user : UserId} (h : bs.filter (isFor id user) = bs'.filter (isFor id user)) :
    last (bs.filter p) id user = last (bs'.filter p) id user := by
  unfold last
  rw [List.filter_comm, h, List.filter_comm]

theorem filter_swap {a b : Ballot}
    (h : a.request.comment ≠ b.request.comment ∨ a.user ≠ b.user) (bs : List Ballot)
    (id : CommentId) (user : UserId) :
    (b :: a :: bs).filter (isFor id user) = (a :: b :: bs).filter (isFor id user) := by
  cases ha : isFor id user a with
  | false => simp only [List.filter_cons, ha, Bool.false_eq_true, ↓reduceIte]
  | true =>
    have hb : isFor id user b = false := by
      simp only [isFor, Bool.and_eq_true, Bool.and_eq_false_iff, beq_iff_eq,
        beq_eq_false_iff_ne] at ha ⊢
      obtain ⟨rfl, huser⟩ := ha
      exact h.imp Ne.symm fun hne hb => hne (huser.trans hb.symm)
    simp only [List.filter_cons, hb, Bool.false_eq_true, ↓reduceIte]

end Ballot

/-- What requests to vote come to: each is told as it is answered, the last accepted one of a user
for a comment decides whether the comment has the user's vote, and nothing else has changed. -/
structure World.Polls (w : World) (bs : List Ballot) : Prop where
  tells : ∀ before b after, bs = before ++ b :: after → b.Tells (w.polled before)
  upvoted : ∀ id user, (w.polled bs).store.upvoted id user =
    (Ballot.last (Ballot.accepted w bs) id user).getD (w.store.upvoted id user)
  revotes : w.store.Revotes (w.polled bs).store

/-- Votes depend on the last accepted request of each user for each comment only. Where components
do not look at upvotes to accept one, the order of requests for different pairs makes no
difference. -/
theorem polls_of_reached {allowed : Forum → Operation → Prop} (hw : Reached allowed w) :
    (∀ bs, w.Polls bs) ∧
    (∀ bs bs', (∀ id user, Ballot.last (Ballot.accepted w bs) id user =
      Ballot.last (Ballot.accepted w bs') id user) →
        (w.polled bs).store.Matches (w.polled bs').store) ∧
    ∀ bs bs' : List Ballot, (∀ b ∈ bs, ∀ d ∈ b.forum.areas, d.handler.IgnoresVotes) → bs'.Perm bs →
      (∀ id user, bs'.filter (Ballot.isFor id user) = bs.filter (Ballot.isFor id user)) →
        (w.polled bs).store.Matches (w.polled bs').store := by
  have hnodup := Store.nodup_votes_of_reached hw
  have hmatches (bs bs' : List Ballot) (hlast : ∀ id user,
      Ballot.last (Ballot.accepted w bs) id user = Ballot.last (Ballot.accepted w bs') id user) :
      (w.polled bs).store.Matches (w.polled bs').store := by
    obtain ⟨hrevotes, hbs⟩ := Ballot.revotes_polled hnodup bs
    obtain ⟨hrevotes', hbs'⟩ := Ballot.revotes_polled hnodup bs'
    refine hrevotes.matches hrevotes' hbs hbs' fun id user => ?_
    rw [Ballot.upvoted_polled, Ballot.upvoted_polled, hlast]
  refine ⟨fun bs => ⟨?_, Ballot.upvoted_polled w bs, (Ballot.revotes_polled hnodup bs).1⟩, hmatches,
    fun bs bs' hignore hperm hsame => hmatches bs bs' fun id user => ?_⟩
  · exact fun before b _ _ => b.tells (w.polled before)
  · rw [Ballot.accepted_eq_filter hnodup hignore,
      Ballot.accepted_eq_filter hnodup fun b hb => hignore b (hperm.mem_iff.1 hb)]
    exact Ballot.last_filter_congr (hsame id user).symm

/-- A request by a user of the wiki. -/
def Ballot.onWiki (user : UserId) (comment : CommentId) (upvote : Bool) : Ballot where
  forum := .wiki .wiki
  user := some user
  request := { key := ⟨"wiki", "talk", 1, 1⟩, comment, upvote }

/-- Two users vote for a comment each, and one of them in vain for their own. In whatever order the
two go, the same is stored, but for the order of the votes. -/
theorem polls_twoThreads :
    let bs : List Ballot := [.onWiki 4 3 true, .onWiki 5 2 true, .onWiki 4 2 true]
    let bs' : List Ballot := [.onWiki 5 2 true, .onWiki 4 3 true, .onWiki 4 2 true]
    let votes (w : World) := w.store.votes.map fun v => (v.comment, v.user)
    Reached (fun _ _ => True) Forum.twoThreads ∧ Forum.twoThreads.Polls bs ∧
      (Forum.twoThreads.polled bs).store.Matches (Forum.twoThreads.polled bs').store ∧
      (Ballot.accepted Forum.twoThreads bs).length = 2 ∧
      votes (Forum.twoThreads.polled bs) = [(4, 6), (3, 4), (2, 5)] ∧
      votes (Forum.twoThreads.polled bs') = [(4, 6), (2, 5), (3, 4)] := by
  intro bs bs' votes
  have hwiki : ∀ d ∈ (Forum.wiki .wiki).areas, d.handler.IgnoresVotes :=
    List.forall_mem_singleton.2 (Handler.GrantsUsual.ignoresVotes rfl)
  have hignore : ∀ b ∈ bs, ∀ d ∈ b.forum.areas, d.handler.IgnoresVotes :=
    List.forall_mem_cons.2 ⟨hwiki, List.forall_mem_cons.2
      ⟨hwiki, List.forall_mem_singleton.2 hwiki⟩⟩
  have hsame : ∀ id user, bs'.filter (Ballot.isFor id user) = bs.filter (Ballot.isFor id user) :=
    Ballot.filter_swap (.inl (by decide)) _
  obtain ⟨hpolls, -, hreorder⟩ := polls_of_reached Forum.reached_twoThreads
  have hmatches := hreorder bs bs' hignore (List.Perm.swap _ _ _) hsame
  exact ⟨Forum.reached_twoThreads, hpolls bs, hmatches, by decide +kernel, by decide +kernel,
    by decide +kernel⟩

/-- A wiki where a comment that has an upvote gets no other. -/
def Handler.sparing : Handler where
  item := Handler.wiki.item
  capability _ c := { c.toCapability with
    mayUpvote := fun comment => c.toCapability.mayUpvote comment && comment.upvotes < 1 }

/-- A request to upvote the second comment of the sparing wiki. -/
def Ballot.sparing (user : UserId) : Ballot where
  forum := .wiki .sparing
  user := some user
  request := { key := ⟨"wiki", "talk", 1, 1⟩, comment := 2, upvote := true }

/-- Two users want to vote for one comment, and whoever comes first has the vote. The order of
requests for different pairs decides what is stored. -/
theorem polls_out_of_order :
    let bs : List Ballot := [.sparing 5, .sparing 6]
    let bs' : List Ballot := [.sparing 6, .sparing 5]
    let votes (w : World) := w.store.votes.map fun v => (v.comment, v.user)
    Reached (fun _ _ => True) Forum.twoThreads ∧ bs'.Perm bs ∧
      (∀ id user, bs'.filter (Ballot.isFor id user) = bs.filter (Ballot.isFor id user)) ∧
      votes (Forum.twoThreads.polled bs) = [(4, 6), (2, 5)] ∧
      votes (Forum.twoThreads.polled bs') = [(4, 6), (2, 6)] ∧
      ¬(Forum.twoThreads.polled bs).store.Matches (Forum.twoThreads.polled bs').store := by
  intro bs bs' votes
  have hvotes : votes (Forum.twoThreads.polled bs) = [(4, 6), (2, 5)] := by decide +kernel
  have hvotes' : votes (Forum.twoThreads.polled bs') = [(4, 6), (2, 6)] := by decide +kernel
  refine ⟨Forum.reached_twoThreads, List.Perm.swap _ _ _, Ballot.filter_swap (.inr (by decide)) _,
    hvotes, hvotes', fun hmatches => ?_⟩
  have hperm : (votes (Forum.twoThreads.polled bs')).Perm (votes (Forum.twoThreads.polled bs)) :=
    hmatches.votes.map _
  rw [hvotes, hvotes'] at hperm
  exact absurd hperm (by decide)

end Discussion
