import Discussion.Proofs.PreparedRequests
import Discussion.Proofs.Yield

namespace Discussion

variable {s t : Store}

namespace Section

variable (sec : Section)

theorem look_comment {id : CommentId} {c : Comment} : (sec.comment id).look s = .ok c ↔
    ∃ x, s.comment? id = some x ∧ x.key = sec.key ∧ c = .ofStored x := by
  have hasked : (sec.comment? id).look s =
      .ok (((s.comment? id).filter fun r => r.key == sec.key).map .ofStored) := rfl
  rw [comment, Action.look_bind_of hasked]
  constructor
  · intro h
    cases hfound : (s.comment? id).filter fun r => r.key == sec.key with
    | none =>
      rw [hfound] at h
      cases h
    | some x =>
      rw [hfound] at h
      obtain ⟨hx, hkey⟩ := Option.filter_eq_some_iff.1 hfound
      exact ⟨x, hx, beq_iff_eq.1 hkey, (Except.ok.inj h).symm⟩
  · rintro ⟨x, hx, hkey, rfl⟩
    have hfilter : (some x).filter (fun r => r.key == sec.key) = some x :=
      Option.filter_some_pos (beq_iff_eq.2 hkey)
    rw [hx, hfilter]
    rfl

theorem look_target {target : Option CommentId} {found : Option Comment} :
    Action.look s (target.mapM sec.comment) = .ok found ↔ ∃ x : Option StoredComment,
      x.map (·.id) = target ∧ (∀ c ∈ x, s.comment? c.id = some c ∧ c.key = sec.key) ∧
        found = x.map .ofStored := by
  cases target with
  | none =>
    constructor
    · intro h
      exact ⟨none, rfl, fun _ hc => (nomatch hc), (Except.ok.inj h).symm⟩
    · rintro ⟨x, hid, -, rfl⟩
      rw [Option.map_eq_none_iff.1 hid]
      rfl
  | some id =>
    change (some <$> sec.comment id).look s = _ ↔ _
    rw [map_eq_pure_bind]
    constructor
    · intro hlook
      obtain ⟨c, hc, h⟩ := Action.look_bind_eq_ok hlook
      obtain ⟨x, hx, hkey, rfl⟩ := sec.look_comment.1 hc
      obtain rfl := (Store.mem_of_comment? hx).2
      refine ⟨some x, rfl, ?_, (Except.ok.inj h).symm⟩
      rintro _ ⟨⟩
      exact ⟨hx, hkey⟩
    · rintro ⟨x, hid, hx, rfl⟩
      obtain ⟨x, rfl, rfl⟩ := Option.map_eq_some_iff.1 hid
      obtain ⟨hstored, hkey⟩ := hx x rfl
      rw [Action.look_bind_of (sec.look_comment.2 ⟨x, hstored, hkey, rfl⟩)]
      rfl

/-- A save that succeeds has added the comment, or it has stored what may change of it again. -/
theorem save_yields {comment c : Comment} {w w' : World} (h : (sec.save comment).Yields w c w') :
    comment.key = sec.key ∧
      (comment.id = none ∧ c = comment.packed.withId (w.store.lastId + 1) ∧
          w'.store = (w.store.add comment.packed.toStored).2 ∨
        ∃ x ∈ w.store.comments, comment.id = some x.id ∧ c = comment.packed ∧
          w'.store = (w.store.revise comment.packed.toStored).2) := by
  unfold save at h
  split at h
  · exact (Action.not_yields_throw h).elim
  next hkey =>
  rw [not_not] at hkey
  refine ⟨hkey, ?_⟩
  dsimp only at h
  split at h
  next id hid =>
    obtain ⟨revised, w₁, hrevise, h⟩ := Action.yields_bind.1 h
    obtain ⟨rfl, rfl⟩ := Action.yields_store.1 hrevise
    split at h
    next hstored =>
      obtain ⟨_, w₂, htell, h⟩ := Action.yields_bind.1 h
      obtain rfl := Action.yields_tell.1 htell
      obtain ⟨rfl, rfl⟩ := Action.yields_pure.1 h
      obtain ⟨x, hx, hxid⟩ := List.any_eq_true.1 hstored
      have hrow : comment.packed.toStored.id = id := by
        rw [Comment.toStored, show comment.packed.id = some id from hid]
        rfl
      rw [hrow, beq_iff_eq] at hxid
      exact .inr ⟨x, hx, hxid ▸ hid, rfl, rfl⟩
    · exact (Action.not_yields_throw h).elim
  next hid =>
    have hadded (h : Action.Yields (do
        let id ← Action.store (.add comment.packed.toStored)
        Action.tell (.created sec.key id comment.packed.replyTo comment.packed.toStored.modifier)
        return comment.packed.withId id) w c w') :
        c = comment.packed.withId (w.store.lastId + 1) ∧
          w'.store = (w.store.add comment.packed.toStored).2 := by
      obtain ⟨id, w₁, hadd, h⟩ := Action.yields_bind.1 h
      obtain ⟨rfl, rfl⟩ := Action.yields_store.1 hadd
      obtain ⟨_, w₂, htell, h⟩ := Action.yields_bind.1 h
      obtain rfl := Action.yields_tell.1 htell
      obtain ⟨rfl, rfl⟩ := Action.yields_pure.1 h
      refine ⟨congrArg comment.packed.withId ?_, rfl⟩
      exact Store.adds_fresh (c := .add comment.packed.toStored) (List.mem_singleton_self _)
    refine .inl ⟨hid, hadded ?_⟩
    split at h
    next target _ =>
      obtain ⟨_, w₁, hcheck, hrest⟩ := Action.yields_bind.1 h
      obtain ⟨-, rfl⟩ := (sec.checkTarget_reads target).yields_iff.1 hcheck
      exact hrest
    · exact h

end Section

theorem Prepared.save_yields {p : Prepared} {people : Comment → Participants} {v : ShownComment}
    {w w' : World} : (p.save people).Yields w v w' ↔ ∃ c, (p.sec.save p.comment).Yields w c w' ∧
      (p.sec.viewComment c p.cap (people c)).look w'.store = .ok v := by
  unfold save
  rw [Action.yields_bind]
  constructor
  · rintro ⟨c, w₁, hsave, hview⟩
    obtain ⟨hlook, rfl⟩ := (p.sec.viewComment_reads c p.cap (people c)).yields_iff.1 hview
    exact ⟨c, hsave, hlook⟩
  · rintro ⟨c, hsave, hlook⟩
    exact ⟨c, w', hsave, (p.sec.viewComment_reads c p.cap (people c)).yields_iff.2 ⟨hlook, rfl⟩⟩

section Saves

variable {p : Prepared} {people : Comment → Participants} {v : ShownComment} {w w' : World}

theorem Prepared.save_new (h : (p.save people).Yields w v w') (hnew : p.comment.id = none) :
    p.comment.key = p.sec.key ∧ w'.store = (w.store.add p.comment.packed.toStored).2 ∧
      let c := p.comment.packed.withId (w.store.lastId + 1)
      (p.sec.viewComment c p.cap (people c)).look w'.store = .ok v := by
  obtain ⟨c, hsaved, hview⟩ := save_yields.1 h
  obtain ⟨hkey, ⟨-, rfl, hstore⟩ | ⟨x, -, hid, -⟩⟩ := p.sec.save_yields hsaved
  · exact ⟨hkey, hstore, hview⟩
  · rw [hnew] at hid
    cases hid

theorem Prepared.save_again (h : (p.save people).Yields w v w') {id : CommentId}
    (hold : p.comment.id = some id) : p.comment.key = p.sec.key ∧
      (∃ x ∈ w.store.comments, x.id = id) ∧
      w'.store = (w.store.revise p.comment.packed.toStored).2 ∧
      (p.sec.viewComment p.comment.packed p.cap (people p.comment.packed)).look w'.store =
        .ok v := by
  obtain ⟨c, hsaved, hview⟩ := save_yields.1 h
  obtain ⟨hkey, ⟨hid, -⟩ | ⟨x, hx, hid, rfl, hstore⟩⟩ := p.sec.save_yields hsaved
  · rw [hold] at hid
    cases hid
  · exact ⟨hkey, ⟨x, hx, Option.some.inj (hid.symm.trans hold)⟩, hstore, hview⟩

end Saves

namespace Forum

variable (f : Forum) (s : Store) (user : UserId)

/-- What is found out in a store about a new comment. -/
structure PostsIn (req : PostRequest) (p : Prepared) : Prop where
  located : (f.sectionOf req.key).look s = .ok p.sec
  capability : p.sec.capability f.site (some user) = .ok p.cap
  target : ∃ x : Option StoredComment, x.map (·.id) = req.replyTo ∧
    (∀ c ∈ x, s.comment? c.id = some c ∧ c.key = p.sec.key) ∧
      p.cap.mayPost (.ofPseudonym (normalPseudonym (some req.pseudonym))) (x.map .ofStored)
  checked : Prepared.check p.sec p.cap (f.draft user req p.sec.key) none = .ok p

/-- What is found out in a store about a comment that is to be edited. -/
structure EditsIn (req : EditRequest) (p : Prepared) : Prop where
  located : (f.sectionOf req.key).look s = .ok p.sec
  found : ∃ x, s.comment? req.id = some x ∧ f.Edits user req x p

variable {f s user} {p : Prepared}

theorem look_preparePost {req : PostRequest} :
    (f.preparePost user req).look s = .ok p ↔ f.PostsIn s user req p := by
  constructor
  · intro h
    obtain ⟨sec, hsec, h⟩ := Action.look_bind_eq_ok h
    obtain ⟨cap, hcap, h⟩ := Action.look_bind_eq_ok h
    obtain ⟨target, htarget, h⟩ := Action.look_bind_eq_ok h
    obtain ⟨x, hid, hx, rfl⟩ := sec.look_target.1 htarget
    dsimp only at h
    split at h
    · cases h
    next hpost =>
      rw [Bool.not_eq_true, Bool.not_eq_false'] at hpost
      have hchecked : Prepared.check sec cap (f.draft user req sec.key) none = .ok p := h
      obtain ⟨fields, -, -, hp⟩ := Prepared.check_inv hchecked
      obtain ⟨rfl, rfl⟩ : p.sec = sec ∧ p.cap = cap := by rw [hp]; exact ⟨rfl, rfl⟩
      exact ⟨hsec, hcap, ⟨x, hid, hx, hpost⟩, hchecked⟩
  · rintro ⟨hsec, hcap, ⟨x, hid, hx, hpost⟩, hchecked⟩
    unfold preparePost
    rw [Action.look_bind_of hsec, Action.look_bind_of ((Action.look_lift _).trans hcap),
      Action.look_bind_of (p.sec.look_target.2 ⟨x, hid, hx, rfl⟩)]
    dsimp only
    rw [hpost]
    exact hchecked

theorem look_prepareEdit {req : EditRequest} :
    (f.prepareEdit user req).look s = .ok p ↔ f.EditsIn s user req p := by
  constructor
  · intro h
    obtain ⟨sec, hsec, h⟩ := Action.look_bind_eq_ok h
    obtain ⟨_, hcomment, h⟩ := Action.look_bind_eq_ok h
    obtain ⟨x, hx, hown, rfl⟩ := sec.look_comment.1 hcomment
    obtain ⟨cap, hcap, h⟩ := Action.look_bind_eq_ok h
    dsimp only at h
    split at h
    · cases h
    next hedit =>
    split at h
    · cases h
    next hsignature =>
    split at h
    · cases h
    next edited hset =>
      have hchecked : Prepared.check sec cap
        ((edited.withCustomDataText req.customData).changedBy user f.site.now) (some req.id) =
          .ok p := h
      obtain ⟨fields, -, -, hp⟩ := Prepared.check_inv hchecked
      obtain ⟨rfl, rfl⟩ : p.sec = sec ∧ p.cap = cap := by rw [hp]; exact ⟨rfl, rfl⟩
      have hdeclared := ((f.sectionOf_declared req.key).look hsec).2
      refine ⟨hsec, x, hx, ⟨hdeclared, hcap⟩, hown, ?_, ?_, edited, hset, hchecked⟩
      · simpa using hedit
      · simpa using hsignature
  · rintro ⟨hsec, x, hx, ⟨-, hcap⟩, hown, hedit, hsignature, edited, hset, hchecked⟩
    unfold prepareEdit
    rw [Action.look_bind_of hsec, Action.look_bind_of (p.sec.look_comment.2 ⟨x, hx, hown, rfl⟩),
      Action.look_bind_of ((Action.look_lift _).trans hcap)]
    dsimp only
    rw [hedit, hsignature, hset]
    exact hchecked

end Forum

end Discussion
