import Discussion.Proofs.People
import Discussion.Proofs.Sorting

namespace Discussion

variable {viewer : Option UserId} {s t : Store}

/-- The rows are one and the same, or a pseudonym hides from the viewer who wrote them. In that case
the last modifiers may differ as well, if they are the authors. -/
inductive StoredComment.Disguised (viewer : Option UserId) : StoredComment → StoredComment → Prop
  | same (c : StoredComment) : Disguised viewer c c
  | hidden {c : StoredComment} {author modifier : UserId} :
    (normalPseudonym c.pseudonym).isSome → viewer ≠ some c.author → viewer ≠ some author →
    (c.modifier = c.author ∧ modifier = author ∨
      modifier = c.modifier ∧ c.modifier ≠ c.author ∧ c.modifier ≠ author) →
    Disguised viewer c { c with author, modifier }

/-- The stores differ in nothing but who hides behind pseudonyms. -/
structure Store.Disguised (viewer : Option UserId) (s t : Store) : Prop where
  comments : List.Forall₂ (StoredComment.Disguised viewer) s.comments t.comments
  votes : t.votes = s.votes
  choices : t.choices = s.choices
  people : t.people = s.people

inductive Comment.Disguised (viewer : Option UserId) : Comment → Comment → Prop
  | same (c : Comment) : Disguised viewer c c
  | hidden {c : Comment} {author modifier : UserId} :
    c.isPseudonymous → viewer ≠ some c.author → viewer ≠ some author →
    (c.modifier = c.author ∧ modifier = author ∨
      modifier = c.modifier ∧ c.modifier ≠ c.author ∧ c.modifier ≠ author) →
    Disguised viewer c { c with author, modifier }

namespace StoredComment.Disguised

variable {c d : StoredComment} (h : c.Disguised viewer d)

include h

theorem id_eq : d.id = c.id := by cases h <;> rfl

theorem key_eq : d.key = c.key := by cases h <;> rfl

theorem replyTo_eq : d.replyTo = c.replyTo := by cases h <;> rfl

theorem timeCreated_eq : d.timeCreated = c.timeCreated := by cases h <;> rfl

theorem coversAlone (f : Selection) : f.coversAlone d = f.coversAlone c := by
  rw [Selection.coversAlone, Selection.coversAlone, h.key_eq, h.timeCreated_eq]

theorem ofStored : (Comment.ofStored c).Disguised viewer (.ofStored d) := by
  cases h with
  | same => exact .same _
  | hidden hpseudonym hfirst hsecond hmodifier => exact .hidden hpseudonym hfirst hsecond hmodifier

end StoredComment.Disguised

theorem Comment.bind_ofStored (x : Option StoredComment) :
    (x.map Comment.ofStored).bind (·.id) = x.map (·.id) := by
  cases x <;> rfl

namespace Section

variable (sec : Section)

/-- What a user hears, as their choices tell. -/
def statusIn (s : Store) (user : UserId) (comment : Option CommentId) : Delivery :=
  ((comment.bind fun id => s.choice? user sec.key (some id)).or
    (s.choice? user sec.key none)).getD (sec.usualStatus user)

theorem look_status (user : UserId) (comment : Option Comment) :
    (sec.status user comment).look s = .ok (sec.statusIn s user (comment.bind (·.id))) := by
  have hasked {α : Type} (comment : Option Comment) (id : Option CommentId)
      (hid : comment.bind (·.id) = id) (next : Option Delivery → Action α) :
      (sec.chosenStatus user comment >>= next).look s =
        (next (s.choice? user sec.key id)).look s := by
    rw [← hid]
    rfl
  have hsection : (sec.status user none).look s = .ok (sec.statusIn s user none) := by
    refine (hasked none none rfl _).trans ?_
    rw [statusIn]
    cases s.choice? user sec.key none <;> rfl
  cases comment with
  | none => exact hsection
  | some c =>
    refine (hasked (some c) c.id rfl _).trans ?_
    change _ = Except.ok (sec.statusIn s user c.id)
    cases hchoice : s.choice? user sec.key c.id with
    | none =>
      refine hsection.trans (congrArg Except.ok ?_)
      cases hid : c.id with
      | none => rfl
      | some id =>
        rw [hid] at hchoice
        rw [statusIn, statusIn, Option.bind_some, hchoice]
        rfl
    | some status =>
      refine congrArg Except.ok ?_
      cases hid : c.id with
      | none =>
        rw [hid] at hchoice
        rw [statusIn, hchoice]
        rfl
      | some id =>
        rw [hid] at hchoice
        rw [statusIn, Option.bind_some, hchoice]
        rfl

theorem status_observes (user : UserId) (comment : Option Comment) {faulty : Call → Prop}
    {w : World} : (sec.status user comment).Observes faulty w fun status =>
      status = sec.statusIn w.store user (comment.bind (·.id)) := by
  refine ((sec.status_asks user comment).truthful faulty w).mono fun status hlook => ?_
  rw [sec.look_status] at hlook
  exact (Except.ok.inj hlook).symm

theorem look_hearing (user : Option UserId) (comment : Option Comment) :
    (sec.hearing user comment).look s = .ok (match user with
      | none => ⟨.off, .off⟩
      | some user => ⟨sec.statusIn s user (comment.bind (·.id)), sec.usualStatus user⟩) := by
  cases user with
  | none => rfl
  | some user => exact Action.look_bind_of (sec.look_status user comment)

theorem look_hasUpvoted (user : Option UserId) (id : CommentId) :
    (hasUpvoted user id).look s = .ok (user.any (s.upvoted id)) := by
  cases user <;> rfl

end Section

theorem Comment.Disguised.key_eq {c d : Comment} (h : c.Disguised viewer d) : d.key = c.key := by
  cases h <;> rfl

namespace Comment

variable {c : Comment}

theorem any_isBy (h : viewer ≠ some c.author) : viewer.any c.isBy = false := by
  cases viewer with
  | none => rfl
  | some user => exact beq_false_of_ne fun heq => h (congrArg some heq.symm)

theorem shownAuthor_false (h : c.isPseudonymous) : c.shownAuthor false = none := by
  rw [shownAuthor, h]
  rfl

theorem shownModifier_author (h : c.isPseudonymous) (hauthor : c.modifier = c.author) :
    c.shownModifier false = none := by
  rw [shownModifier, h, hauthor, BEq.rfl]
  rfl

theorem shownModifier_other (hauthor : c.modifier ≠ c.author) :
    c.shownModifier false = some c.modifier := by
  rw [shownModifier, beq_false_of_ne hauthor, Bool.and_false]
  rfl

end Comment

namespace UsualCapability

variable {usual : UsualCapability} {c : Comment}

theorem ownsFresh_other (h : usual.user ≠ some c.author) : usual.ownsFresh c = false := by
  have hother := Comment.any_isBy h
  unfold ownsFresh
  cases huser : usual.user with
  | none => rfl
  | some user =>
    rw [huser] at hother
    exact Bool.and_eq_false_imp.2 fun howns => nomatch howns.symm.trans hother

theorem mayEdit_other (h : usual.user ≠ some c.author) :
    usual.toCapability.mayEdit c = (usual.view && usual.editAny) := by
  change (usual.view && (usual.ownsFresh c || usual.editAny)) = _
  rw [ownsFresh_other h, Bool.false_or]

theorem mayUpvote_other (h : usual.user ≠ some c.author) :
    usual.toCapability.mayUpvote c = (usual.view && usual.options.allowUpvotes) := by
  change (usual.view && usual.options.allowUpvotes && c.shownAuthor true != usual.user) = _
  have hshown : c.shownAuthor true = some c.author := by
    rw [Comment.shownAuthor, Bool.not_true, Bool.and_false]
    rfl
  rw [hshown, bne_iff_ne.2 h.symm, Bool.and_true]

end UsualCapability

theorem forall₂_find? {α β : Type} {R : α → β → Prop} {p : α → Bool} {q : β → Bool}
    (hpq : ∀ a b, R a b → p a = q b) {l : List α} {k : List β} (h : List.Forall₂ R l k) :
    Option.Rel R (l.find? p) (k.find? q) := by
  induction h with
  | nil => exact .none
  | cons hab _ ih =>
    rw [List.find?_cons, List.find?_cons, hpq _ _ hab]
    split
    · exact .some hab
    · exact ih

namespace Store.Disguised

variable (h : s.Disguised viewer t)

include h

theorem upvoted : t.upvoted = s.upvoted := by
  unfold Store.upvoted
  rw [h.votes]

theorem statusIn (sec : Section) : sec.statusIn t = sec.statusIn s := by
  unfold Section.statusIn Store.choice?
  rw [h.choices]

theorem person? : t.person? = s.person? :=
  Store.person?_congr h.people

theorem comment? (id : CommentId) :
    Option.Rel (StoredComment.Disguised viewer) (s.comment? id) (t.comment? id) := by
  apply forall₂_find? _ h.comments
  intro c d hc
  rw [hc.id_eq]

theorem matching (f : Selection) : List.Forall₂ (StoredComment.Disguised viewer)
    (s.comments.filter f.covers) (t.comments.filter f.covers) := by
  apply List.rel_filter _ h.comments
  intro c d hc
  change f.covers c = true ↔ f.covers d = true
  rw [Selection.covers, Selection.covers, hc.key_eq, hc.replyTo_eq, hc.timeCreated_eq]

theorem countSelected (f : Selection) : t.countSelected f = s.countSelected f := by
  rw [Store.countSelected, Store.countSelected, List.countP_eq_length_filter,
    List.countP_eq_length_filter]
  exact (h.matching f).length_eq.symm

/-- The rows stand in the same places, as their authors have no part in their order. -/
theorem select (f : Selection) (order : SortOrder) (page : Option Slice) :
    List.Forall₂ (StoredComment.Disguised viewer) (s.select f order page)
      (t.select f order page) := by
  have hprecedes (a a' b b' : StoredComment) (ha : a.Disguised viewer a')
      (hb : b.Disguised viewer b') : Store.precedes a b = Store.precedes a' b' := by
    rw [Store.precedes, Store.precedes, ha.id_eq, hb.id_eq, ha.timeCreated_eq, hb.timeCreated_eq]
  have hsorted : List.Forall₂ (StoredComment.Disguised viewer)
      (Store.sorted (s.comments.filter f.covers) order)
      (Store.sorted (t.comments.filter f.covers) order) := by
    cases order with
    | ascending => exact forall₂_mergeSort hprecedes (h.matching f)
    | descending =>
      exact forall₂_mergeSort (fun a a' b b' ha hb => hprecedes b b' a a' hb ha) (h.matching f)
  cases page with
  | none => exact hsorted
  | some p => exact List.forall₂_take _ (List.forall₂_drop _ hsorted)

end Store.Disguised

namespace Section

variable (sec : Section)

/-- A view shows of the store what its user has voted for and hears of the comment. -/
theorem look_viewComment_congr {c : Comment} {cap : Capability}
    (hupvoted : t.upvoted (c.id.getD 0) = s.upvoted (c.id.getD 0))
    (hstatus : ∀ user, sec.statusIn t user c.id = sec.statusIn s user c.id)
    (people : Participants) :
    (sec.viewComment c cap people).look t = (sec.viewComment c cap people).look s := by
  unfold viewComment
  rw [Action.look_bind, Action.look_bind]
  refine congrArg _ (funext fun r => ?_)
  rw [Action.look_bind_of (look_hasUpvoted _ _), Action.look_bind_of (look_hasUpvoted _ _),
    Action.look_bind_of (sec.look_hearing _ _), Action.look_bind_of (sec.look_hearing _ _),
    hupvoted]
  simp only [Option.bind_some, hstatus]
  rfl

theorem look_viewComment (hs : s.Disguised viewer t) (c : Comment) (cap : Capability)
    (people : Participants) :
    (sec.viewComment c cap people).look t = (sec.viewComment c cap people).look s :=
  sec.look_viewComment_congr (by rw [hs.upvoted]) (fun user => by rw [hs.statusIn]) people

theorem viewComment_disguised {c d : Comment} (h : c.Disguised viewer d)
    {usual : UsualCapability} (hviewer : usual.user = viewer)
    (hexport : sec.handler.exportCustomData = fun _ _ fields _ => fields)
    (known : UserId → Option Person) :
    sec.viewComment d usual.toCapability ⟨known d.author, known d.modifier⟩ =
      sec.viewComment c usual.toCapability ⟨known c.author, known c.modifier⟩ := by
  cases h with
  | same => rfl
  | @hidden author modifier hpseudonym hfirst hsecond hmodifier =>
    obtain rfl := hviewer
    let d : Comment := { c with author, modifier }
    have hc := Comment.any_isBy hfirst
    have hd : usual.user.any d.isBy = false := Comment.any_isBy hsecond
    have hauthor : c.shownAuthor false = none := Comment.shownAuthor_false hpseudonym
    have hauthor' : d.shownAuthor false = none := Comment.shownAuthor_false hpseudonym
    have hmodifier : d.shownModifier false = c.shownModifier false ∧ ∀ pseudonym,
        shownName (c.shownModifier false) (known d.modifier) pseudonym =
          shownName (c.shownModifier false) (known c.modifier) pseudonym := by
      rcases hmodifier with ⟨hown, hown'⟩ | ⟨rfl, hforeign, hforeign'⟩
      · rw [Comment.shownModifier_author (c := d) hpseudonym hown',
          Comment.shownModifier_author hpseudonym hown]
        exact ⟨rfl, fun _ => rfl⟩
      · rw [Comment.shownModifier_other (c := d) hforeign', Comment.shownModifier_other hforeign]
        exact ⟨rfl, fun _ => rfl⟩
    change sec.viewComment d _ ⟨known d.author, known d.modifier⟩ = _
    unfold viewComment
    simp only [show usual.toCapability.user = usual.user from rfl, hc, hd, hauthor, hauthor',
      hmodifier.1, hmodifier.2, hexport]
    refine bind_congr fun r => ?_
    -- Neither of the authors is the viewer, so that both comments are a stranger's.
    rw [UsualCapability.mayUpvote_other (c := { c with customData := r.2 }) hfirst,
      UsualCapability.mayUpvote_other (c := { d with customData := r.2 }) hsecond,
      UsualCapability.mayEdit_other (c := { c with customData := r.2 }) hfirst,
      UsualCapability.mayEdit_other (c := { d with customData := r.2 }) hsecond]
    rfl

end Section

end Discussion
