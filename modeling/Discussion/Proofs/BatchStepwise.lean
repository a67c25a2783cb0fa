import Discussion.Proofs.Preparation
import Discussion.Proofs.Pseudonym
import Discussion.Proofs.StoredPeople

namespace Discussion

variable {s t : Store} {w w' : World}

namespace Store

theorem comment?_add {r x : StoredComment} {id : CommentId} (h : s.comment? id = some x) :
    (s.add r).2.comment? id = some (x.addReplies (if r.replyTo = some x.id then 1 else 0)) := by
  unfold comment? at h ⊢
  rw [comments_add, List.find?_map]
  change ((s.comments ++ [s.newRow r]).find? (·.id == id)).map _ = _
  rw [List.find?_append, h]
  rfl

theorem comment?_revise {r : StoredComment} {id : CommentId} :
    (s.revise r).2.comment? id =
      (s.comment? id).map fun c => if id = r.id then c.revised r else c := by
  have hid (c : StoredComment) : (if c.id = r.id then c.revised r else c).id = c.id := by
    split <;> rfl
  unfold comment?
  rw [comments_revise, List.find?_map]
  have hsame : ((·.id == id) ∘ fun c : StoredComment => if c.id = r.id then c.revised r else c) =
      (·.id == id) := by
    funext c
    exact congrArg (· == id) (hid c)
  rw [hsame]
  cases hfound : s.comments.find? (·.id == id) with
  | none => rfl
  | some c =>
    have hc := List.find?_some hfound
    rw [Option.map_some, Option.map_some, beq_iff_eq.1 hc]

end Store

/-- What becomes of the store when a comment is saved. -/
inductive Store.Saves (s : Store) (c : Comment) : Store → Prop
  | new : c.id = none → Saves s c (s.add c.packed.toStored).2
  | again : c.id = some c.packed.toStored.id → Saves s c (s.revise c.packed.toStored).2

theorem Store.Saves.people_eq {c : Comment} (h : s.Saves c t) : t.people = s.people := by
  cases h with
  | new => exact s.people_add _
  | again => rfl

theorem Prepared.save_saves {p : Prepared} {people : Comment → Participants} {v : ShownComment}
    (h : (p.save people).Yields w v w') : w.store.Saves p.comment w'.store := by
  obtain ⟨c, hsave, -⟩ := save_yields.1 h
  obtain ⟨-, ⟨hid, -, hstore⟩ | ⟨x, -, hid, -, hstore⟩⟩ := p.sec.save_yields hsave
  · rw [hstore]
    exact .new hid
  · rw [hstore]
    refine .again ?_
    rw [Comment.toStored, show p.comment.packed.id = some x.id from hid, hid]
    rfl

theorem Prepared.save_congr {p : Prepared} {people people' : Comment → Participants}
    (h : ∀ c, c.author = p.comment.author → people c = people' c) {v : ShownComment}
    (hsave : (p.save people).Yields w v w') : (p.save people').Yields w v w' := by
  obtain ⟨c, hsaved, hview⟩ := save_yields.1 hsave
  refine save_yields.2 ⟨c, hsaved, ?_⟩
  have hauthor : c.author = p.comment.author := by
    obtain ⟨-, ⟨-, rfl, -⟩ | ⟨x, -, -, rfl, -⟩⟩ := p.sec.save_yields hsaved <;> rfl
  rw [← h c hauthor]
  exact hview

namespace Forum

section Batch

variable {ρ : Type} {prepare : ρ → Action Prepared} {ids : List Prepared → List UserId}
variable {people : List Person → Comment → Participants}

/-- Checks all requests, looks up people, and saves one comment after another. -/
def batch (prepare : ρ → Action Prepared) (ids : List Prepared → List UserId)
    (people : List Person → Comment → Participants) (reqs : List ρ) :
    Action (List ShownComment) := do
  let pending ← reqs.mapM prepare
  let found ← Action.store (.peopleByIds (ids pending))
  pending.mapM fun p => p.save (people found)

theorem batch_yields (hreads : ∀ req, (prepare req).Reads fun _ => True) {reqs : List ρ}
    {views : List ShownComment} : (batch prepare ids people reqs).Yields w views w' ↔
      ∃ pending, List.Forall₂ (fun req p => (prepare req).look w.store = .ok p) reqs pending ∧
        Action.Yields (pending.mapM fun p => p.save (people (w.store.peopleByIds (ids pending))))
          w views w' := by
  unfold batch
  rw [(Action.Reads.mapM hreads reqs).yields_bind]
  apply exists_congr
  intro pending
  rw [Action.look_mapM_eq_ok]
  apply and_congr_right
  intro _
  rw [(Action.Reads.store (c := .peopleByIds (ids pending)) rfl).yields_bind]
  constructor
  · rintro ⟨found, hfound, h⟩
    obtain rfl := Except.ok.inj hfound
    exact h
  · exact fun h => ⟨_, rfl, h⟩

/-- Where no save stands in the way of the checks that follow, a batch that is accepted is accepted
one by one as well, with the same results. -/
theorem batch_yields_each {R : ρ → ρ → Prop}
    (hreads : ∀ req, (prepare req).Reads fun _ => True)
    (hpeople : ∀ {s : Store} {pending : List Prepared} {p : Prepared}, p ∈ pending → ∀ {c : Comment},
      c.author = p.comment.author →
        people (s.peopleByIds (ids pending)) c = people (s.peopleByIds (ids [p])) c)
    (hsaves : ∀ {s t : Store} {req req' : ρ} {p p' : Prepared}, R req req' →
      (prepare req).look s = .ok p → (prepare req').look s = .ok p' → s.Saves p.comment t →
        (prepare req').look t = .ok p')
    {reqs : List ρ} (hreqs : reqs.Pairwise R) {views : List ShownComment}
    (h : (batch prepare ids people reqs).Yields w views w') :
    Action.Yields (reqs.mapM fun req => batch prepare ids people [req]) w
      (views.map fun v => [v]) w' := by
  obtain ⟨pending, hpending, hall⟩ := (batch_yields hreads).1 h
  clear h
  -- The people are those of the first world, and stay the same in all that follow.
  generalize hfound : w.store.peopleByIds (ids pending) = found at hall
  have hwho : ∀ p ∈ pending, ∀ c : Comment, c.author = p.comment.author →
      people found c = people (w.store.peopleByIds (ids [p])) c := by
    rintro p hp c hc
    rw [← hfound]
    exact hpeople hp hc
  clear hfound
  induction reqs generalizing w pending views with
  | nil =>
    obtain rfl := List.forall₂_nil_left_iff.1 hpending
    obtain ⟨rfl, rfl⟩ := Action.yields_pure.1 hall
    exact Action.yields_pure.2 ⟨rfl, rfl⟩
  | cons req reqs ih =>
    obtain ⟨p, pending, hp, hprepared, rfl⟩ := List.forall₂_cons_left_iff.1 hpending
    obtain ⟨v, vs, w₁, hsave, hrest, rfl⟩ := Action.yields_mapM_cons.1 hall
    obtain ⟨hapart, hreqs⟩ := List.pairwise_cons.1 hreqs
    obtain ⟨hfirst, hwho⟩ := List.forall_mem_cons.1 hwho
    have hsaved := Prepared.save_saves hsave
    have hsingle : (batch prepare ids people [req]).Yields w [v] w₁ := by
      refine (batch_yields hreads).2 ⟨[p], .cons hp .nil, Action.yields_mapM_cons.2 ?_⟩
      exact ⟨v, [], w₁, Prepared.save_congr hfirst hsave, Action.yields_pure.2 ⟨rfl, rfl⟩, rfl⟩
    have hstill : List.Forall₂ (fun req p => (prepare req).look w₁.store = .ok p) reqs pending :=
      ((List.forall₂_and_left _ _).2 ⟨hapart, hprepared⟩).imp fun req' p' h =>
        hsaves h.1 hp h.2 hsaved
    refine Action.yields_mapM_cons.2 ⟨[v], _, w₁, hsingle, ih hreqs pending hstill hrest ?_, rfl⟩
    intro p' hp' c hc
    rw [Store.peopleByIds, hsaved.people_eq]
    exact hwho p' hp' c hc

end Batch

variable {f : Forum} {user : UserId} {p : Prepared}

theorem PostsIn.isPlain {req : PostRequest} (h : f.PostsIn s user req p)
    (hf : ∀ d ∈ f.areas, d.handler.IsPlain) : p.sec.handler.IsPlain :=
  ((sectionOf_handler hf req.key).look h.located).2

theorem PostsIn.id_eq {req : PostRequest} (h : f.PostsIn s user req p)
    (hf : ∀ d ∈ f.areas, d.handler.IsPlain) : p.comment.id = none :=
  (Prepared.check_kept (h.isPlain hf).asIs.keepsId h.checked).2

theorem PostsIn.of_kept {req : PostRequest} (h : f.PostsIn s user req p)
    (hf : ∀ d ∈ f.areas, d.handler.IsPlain)
    (hkept : ∀ {id x}, s.comment? id = some x →
      ∃ y, t.comment? id = some y ∧ y.key = x.key ∧ y.replyTo = x.replyTo) :
    f.PostsIn t user req p where
  located := (look_sectionOf req.key).trans h.located
  capability := h.capability
  checked := h.checked
  target := by
    obtain ⟨x, hid, hx, hpost⟩ := h.target
    cases x with
    | none => exact ⟨none, hid, fun _ hc => (nomatch hc), hpost⟩
    | some x =>
      obtain ⟨hstored, hown⟩ := hx x rfl
      obtain ⟨y, hy, hkey, hreply⟩ := hkept hstored
      obtain hyid := (Store.mem_of_comment? hy).2
      refine ⟨some y, (congrArg some hyid).trans hid, ?_, ?_⟩
      · rintro _ ⟨⟩
        exact ⟨hyid ▸ hy, hkey.trans hown⟩
      · obtain ⟨usual, -, hcap⟩ := Section.capability_usual (h.isPlain hf).capability h.capability
        have hdepth : (Comment.ofStored y).isReply = (Comment.ofStored x).isReply :=
          congrArg Option.isSome hreply
        rw [hcap] at hpost ⊢
        dsimp only [UsualCapability.toCapability, UsualCapability.allowsTarget,
          Option.map_some] at hpost ⊢
        rw [hdepth]
        exact hpost

theorem EditsIn.of_kept {req : EditRequest} (h : f.EditsIn s user req p)
    (hkept : t.comment? req.id = s.comment? req.id) : f.EditsIn t user req p where
  located := (look_sectionOf req.key).trans h.located
  found := by
    obtain ⟨x, hx, hedits⟩ := h.found
    exact ⟨x, hkept.trans hx, hedits⟩

theorem EditsIn.id_eq {req : EditRequest} (h : f.EditsIn s user req p)
    (hf : ∀ d ∈ f.areas, d.handler.IsPlain) : p.comment.id = some req.id := by
  obtain ⟨x, hx, hedits⟩ := h.found
  rw [hedits.id_eq fun d hd => (hf d hd).asIs.keepsId, (Store.mem_of_comment? hx).2]

theorem look_preparePost_saved (hf : ∀ d ∈ f.areas, d.handler.IsPlain) {req req' : PostRequest}
    {p' : Prepared} (h : (f.preparePost user req).look s = .ok p)
    (h' : (f.preparePost user req').look s = .ok p') (hsaves : s.Saves p.comment t) :
    (f.preparePost user req').look t = .ok p' := by
  have hid := (look_preparePost.1 h).id_eq hf
  cases hsaves with
  | new =>
    exact look_preparePost.2 ((look_preparePost.1 h').of_kept hf fun hx =>
      ⟨_, Store.comment?_add hx, rfl, rfl⟩)
  | again hold =>
    rw [hid] at hold
    cases hold

theorem look_prepareEdit_saved (hf : ∀ d ∈ f.areas, d.handler.IsPlain) {req req' : EditRequest}
    {p' : Prepared} (hother : req.id ≠ req'.id) (h : (f.prepareEdit user req).look s = .ok p)
    (h' : (f.prepareEdit user req').look s = .ok p') (hsaves : s.Saves p.comment t) :
    (f.prepareEdit user req').look t = .ok p' := by
  have hid := (look_prepareEdit.1 h).id_eq hf
  cases hsaves with
  | new hnew =>
    rw [hid] at hnew
    cases hnew
  | again hold =>
    refine look_prepareEdit.2 ((look_prepareEdit.1 h').of_kept ?_)
    have hrow : req'.id ≠ p.comment.packed.toStored.id := fun heq =>
      hother ((Option.some.inj (hid.symm.trans hold)).trans heq.symm)
    simp only [Store.comment?_revise, if_neg hrow, Option.map_id']

theorem post_eq_batch {user : Option UserId} {reqs : List PostRequest} {views : List ShownComment}
    (h : (f.post user reqs).Yields w views w') : ∃ u, user = some u ∧ f.post user =
      batch (f.preparePost u) (fun _ => [u])
        fun people _ => ⟨personOf people u, personOf people u⟩ := by
  obtain ⟨u, hu, -⟩ := (Action.Reads.lift (f.memberOf user .post)).yields_bind.1 h
  rw [Action.look_lift] at hu
  refine ⟨u, f.memberOf_eq_ok hu, funext fun reqs => ?_⟩
  unfold post
  rw [hu]
  rfl

theorem edit_eq_batch {user : Option UserId} {reqs : List EditRequest} {views : List ShownComment}
    (h : (f.edit user reqs).Yields w views w') : ∃ u, user = some u ∧ f.edit user =
      batch (f.prepareEdit u) (fun pending => pending.flatMap fun p => [p.comment.author, u])
        fun people comment => ⟨personOf people comment.author, personOf people u⟩ := by
  obtain ⟨u, hu, -⟩ := (Action.Reads.lift (f.memberOf user .edit)).yields_bind.1 h
  rw [Action.look_lift] at hu
  refine ⟨u, f.memberOf_eq_ok hu, funext fun reqs => ?_⟩
  unfold edit
  rw [hu]
  rfl

end Forum

/-- A batch that is accepted does what its items do one by one, each of which is accepted as well:
the views, the events and all that is stored in the end are the same. In an edit no comment may
come twice. -/
theorem Forum.accepted_one_by_one {f : Forum} (hf : ∀ d ∈ f.areas, d.handler.IsPlain)
    (user : Option UserId) {views : List ShownComment} :
    (∀ batch, (f.post user batch).Yields w views w' →
      Action.Yields (batch.mapM fun req => f.post user [req]) w (views.map fun v => [v]) w') ∧
    ∀ batch, (batch.map (·.id)).Nodup → (f.edit user batch).Yields w views w' →
      Action.Yields (batch.mapM fun req => f.edit user [req]) w (views.map fun v => [v]) w' := by
  constructor
  · intro reqs h
    obtain ⟨u, -, hpost⟩ := post_eq_batch h
    rw [hpost] at h ⊢
    exact batch_yields_each (R := fun _ _ => True)
      (fun req => (f.preparePost_posts u req).mono fun _ _ => trivial) (fun _ _ _ => rfl)
      (fun _ => look_preparePost_saved hf) (List.pairwise_of_forall fun _ _ => trivial) h
  · intro reqs hdistinct h
    obtain ⟨u, -, hedit⟩ := edit_eq_batch h
    rw [hedit] at h ⊢
    refine batch_yields_each (R := fun req req' => req.id ≠ req'.id) (f.prepareEdit_reads u) ?_
      (look_prepareEdit_saved hf) (List.pairwise_map.1 hdistinct) h
    intro s pending p hp c hc
    have hasked {id : UserId} (hid : id ∈ [p.comment.author, u]) :
        personOf (s.peopleByIds (pending.flatMap fun p => [p.comment.author, u])) id =
          personOf (s.peopleByIds ([p].flatMap fun p => [p.comment.author, u])) id := by
      rw [Store.personOf_peopleByIds (List.mem_flatMap.2 ⟨p, hp, hid⟩),
        Store.personOf_peopleByIds (List.mem_flatMap.2 ⟨p, List.mem_singleton_self p, hid⟩)]
    rw [hc, hasked List.mem_cons_self, hasked (List.mem_cons_of_mem _ (List.mem_singleton_self u))]

/-- Two comments are replied to in one batch, and both are edited in another. -/
theorem Forum.accepted_one_by_one_wiki :
    let f := Forum.wiki .wiki
    let key : SectionKey := ⟨"wiki", "talk", 1, 1⟩
    let w := World.after {} f (.postToWiki 4 [none, none])
    let replies : List PostRequest := [{ key, content := "First", replyTo := some 2 },
      { key, content := "Second", replyTo := some 1 }, { key, content := "Third" }]
    let changes : List EditRequest := [{ id := 2, key, content := "Better", pseudonym := "  " },
      { id := 1, key, content := "Best" }]
    (∃ views w', (f.post (some 5) replies).Yields w views w' ∧
      Action.Yields (replies.mapM fun req => f.post (some 5) [req]) w (views.map fun v => [v]) w' ∧
        w'.store.comments.map (·.replies) = [1, 1, 0, 0, 0]) ∧
    ∃ views w', (f.edit (some 4) changes).Yields w views w' ∧
      Action.Yields (changes.mapM fun req => f.edit (some 4) [req]) w (views.map fun v => [v]) w' ∧
        w'.store.comments.map (·.content) = ["Best", "Better"] := by
  intro f key w replies changes
  have hplain : ∀ d ∈ f.areas, d.handler.IsPlain := by
    intro d hd
    rw [List.mem_singleton.1 hd]
    exact ⟨rfl, rfl⟩
  constructor
  · obtain ⟨views, h⟩ := Action.exists_yields (m := f.post (some 5) replies) (w := w) (by decide)
    exact ⟨views, _, h, (accepted_one_by_one hplain (some 5)).1 replies h, by decide⟩
  · obtain ⟨views, h⟩ := Action.exists_yields (m := f.edit (some 4) changes) (w := w) (by decide)
    exact ⟨views, _, h, (accepted_one_by_one hplain (some 4)).2 changes (by decide) h, by decide⟩

end Discussion
