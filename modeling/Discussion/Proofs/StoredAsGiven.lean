import Discussion.Proofs.LegibleData
import Discussion.Proofs.WrittenAsRead

namespace Discussion

variable {s : Store} {w w' : World}

/-- The words that are stored are those of a request. The pseudonym is trimmed, and the custom data
is written anew. -/
structure Wording.Renders (words : Wording) (content : String) (format : TextFormat)
    (pseudonym customData : String) : Prop where
  content : words.content = content
  format : words.format = format
  pseudonym : words.pseudonym = normalPseudonym (some pseudonym)
  customData : CustomData.StandsFor words.customData customData

/-- A new comment is stored as it was asked for, and nobody has replied to it or voted for it. -/
structure PostRequest.StoredAs (req : PostRequest) (row : StoredComment) : Prop where
  wording : row.wording.Renders req.content req.format req.pseudonym req.customData
  replyTo : row.replyTo = req.replyTo
  replies : row.replies = 0
  upvotes : row.upvotes = 0

/-- All stored custom data can be read, and no listing fails for it, whoever asks for what and
whichever calls fail. -/
structure World.IsLegible (w : World) : Prop where
  stored : w.store.Legible
  listed : ∀ (f : Forum) (user : Option UserId) (req : ListRequest) {σ : Type} (faults : Faults σ)
    (state : σ), ((f.list user req).run.run faults state w).1 ≠ .error .customData

theorem World.IsLegible.of_stored (h : w.store.Legible) : w.IsLegible where
  stored := h
  listed := fun _ _ _ _ faults state => Forum.list_legible h faults state

theorem Prepared.saveAll_comment? {people : Comment → Participants} {pending : List Prepared}
    {views : List ShownComment} {id : CommentId} {row : StoredComment}
    (hrow : w.store.comment? id = some row)
    (hothers : ∀ p ∈ pending, ∃ other, p.comment.id = some other ∧ other ≠ id)
    (h : Action.Yields (pending.mapM fun p => p.save people) w views w') :
    w'.store.comment? id = some row := by
  induction pending generalizing w views with
  | nil =>
    obtain ⟨-, rfl⟩ := Action.yields_pure.1 h
    exact hrow
  | cons p pending ih =>
    obtain ⟨v, vs, w₁, hsave, hrest, -⟩ := Action.yields_mapM_cons.1 h
    obtain ⟨⟨other, hid, hne⟩, hothers⟩ := List.forall_mem_cons.1 hothers
    refine ih ((save_saves hsave).comment?_kept hrow ?_ ?_) hothers hrest
    · rw [hid]
      exact fun heq => hne (Option.some.inj heq)
    · rw [hid]
      exact nofun

namespace Forum

variable {f : Forum} {user : UserId} {p : Prepared} {people : Comment → Participants}
variable {views : List ShownComment}
variable (hplain : ∀ d ∈ f.areas, d.handler.IsPlain)

include hplain

theorem PostsIn.storedAs {req : PostRequest} (h : f.PostsIn s user req p) (t : Store) :
    req.StoredAs (t.newRow p.comment.packed.toStored) := by
  have hcustom := Prepared.check_standsFor h.checked (h.isPlain hplain).asIs rfl
  obtain ⟨data, hdata⟩ := h.comment_eq hplain
  have hpseudonym : p.comment.pseudonym = normalPseudonym (some req.pseudonym) := by
    rw [hdata]
    dsimp only [draft, Comment.fresh]
    exact normalPseudonym_normalPseudonym (some req.pseudonym)
  have hkept : p.comment.content = req.content ∧ p.comment.format = req.format ∧
      p.comment.replyTo = req.replyTo ∧ p.comment.replies = 0 ∧ p.comment.upvotes = 0 := by
    rw [hdata]
    exact ⟨rfl, rfl, rfl, rfl, rfl⟩
  obtain ⟨hcontent, hformat, hreply, hreplies, hupvotes⟩ := hkept
  exact ⟨⟨hcontent, hformat, hpseudonym, hcustom⟩, hreply, hreplies, hupvotes⟩

theorem EditsIn.renders {req : EditRequest} (h : f.EditsIn s user req p) :
    p.comment.packed.toStored.wording.Renders req.content req.format req.pseudonym
      req.customData := by
  obtain ⟨x, -, hedits⟩ := h.found
  have hasIs := (hedits.serves.handler hplain).asIs
  obtain ⟨edited, hset, hchecked⟩ := hedits.checked
  have hcustom := Prepared.check_standsFor hchecked hasIs rfl
  have hpseudonym := Comment.pseudonym_withPseudonym hset
  obtain ⟨pseudonym, rfl⟩ := Comment.withPseudonym_kept hset
  obtain ⟨fields, -, -, hp⟩ := Prepared.check_asIs hchecked hasIs
  generalize p.comment = comment at hcustom hp ⊢
  obtain rfl := hp
  exact ⟨rfl, rfl, hpseudonym, hcustom⟩

theorem post_stored {reqs : List PostRequest} (hnumbered : w.store.Numbered)
    (h : (f.post (some user) reqs).Yields w views w') : List.Forall₂ (fun req v =>
      ∃ row, w'.store.comment? v.id = some row ∧ req.StoredAs row) reqs views := by
  -- Only rows with new ids are out of reach of the comments that follow.
  refine (post_shown (J := fun s p v => w.store.lastId < v.id ∧ ∃ t : Store,
    s.comment? v.id = some (t.newRow p.comment.packed.toStored)) hnumbered ?save ?kept h).imp ?_
  case save =>
    intro w₁ w₂ req p v hsince hp me hsave
    obtain ⟨hid, hrow⟩ := hp.stored hplain hnumbered hsince hsave
    have hissued := hsince.issued
    exact ⟨by lia, w₁.store, hrow⟩
  case kept =>
    rintro s t req p p' v hp' ⟨hid, base, hrow⟩ hsaves
    obtain ⟨hother, hreply⟩ := hp'.keeps hplain hnumbered hid
    exact ⟨hid, base, hsaves.comment?_kept hrow hother hreply⟩
  · rintro req v ⟨p, hp, -, base, hrow⟩
    exact ⟨_, hrow, hp.storedAs hplain base⟩

/-- The last edit of a comment is what is stored of it: it replaces what was stored before, and the
edits that follow are of other comments. -/
theorem saveAll_last {before after : List EditRequest} {req : EditRequest}
    (hlast : ∀ later ∈ after, later.id ≠ req.id) {pending : List Prepared}
    (hfound : List.Forall₂ (f.EditsIn s user) (before ++ req :: after) pending)
    (h : Action.Yields (pending.mapM fun p => p.save people) w views w') :
    ∃ row, w'.store.comment? req.id = some row ∧
      row.wording.Renders req.content req.format req.pseudonym req.customData := by
  induction before generalizing w views pending with
  | cons earlier before ih =>
    obtain ⟨p, rest, -, hrest, rfl⟩ := List.forall₂_cons_left_iff.1 hfound
    obtain ⟨v, vs, w₁, -, hsaves, -⟩ := Action.yields_mapM_cons.1 h
    exact ih hrest hsaves
  | nil =>
    obtain ⟨p, rest, hp, hrest, rfl⟩ := List.forall₂_cons_left_iff.1 hfound
    obtain ⟨v, vs, w₁, hsave, hsaves, -⟩ := Action.yields_mapM_cons.1 h
    have hid := hp.id_eq hplain
    obtain ⟨-, ⟨x, hx, hxid⟩, hstore, -⟩ := Prepared.save_again hsave hid
    obtain ⟨old, hold⟩ : ∃ old, w.store.comment? req.id = some old :=
      Option.isSome_iff_exists.1 (List.find?_isSome.2 ⟨x, hx, beq_iff_eq.2 hxid⟩)
    have hrow : w₁.store.comment? req.id = some (old.revised p.comment.packed.toStored) := by
      have hown : req.id = p.comment.packed.toStored.id :=
        (congrArg (Option.getD · 0) hid).symm
      rw [hstore, Store.comment?_revise, hold, Option.map_some, if_pos hown]
    refine ⟨_, Prepared.saveAll_comment? hrow ?_ hsaves, hp.renders hplain⟩
    intro q hq
    obtain ⟨later, hother, hlater⟩ :=
      exists_of_forall₂ ((List.forall₂_and_left _ _).2 ⟨hlast, hrest⟩) q hq
    exact ⟨later.id, hlater.id_eq hplain, hother⟩

theorem edit_stored {before after : List EditRequest} {req : EditRequest}
    (hlast : ∀ later ∈ after, later.id ≠ req.id)
    (h : (f.edit (some user) (before ++ req :: after)).Yields w views w') :
    ∃ row, w'.store.comment? req.id = some row ∧
      row.wording.Renders req.content req.format req.pseudonym req.customData := by
  obtain ⟨_, ⟨⟩, hedit⟩ := edit_eq_batch h
  rw [hedit] at h
  obtain ⟨pending, hpending, h⟩ := (batch_yields (f.prepareEdit_reads user)).1 h
  exact saveAll_last hplain hlast (hpending.imp fun _ _ => look_prepareEdit.1) h

end Forum

/-- What is written is stored as it was given: each new comment, and of each comment that is edited
the last edit of the batch. Where components change nothing, all custom data that operations have
stored can be read, whether they came one after another or at one time. -/
theorem Forum.stored_as_given {f : Forum} (hplain : ∀ d ∈ f.areas, d.handler.IsPlain)
    {allowed : Forum → Operation → Prop} (hw : Reached allowed w) (user : Option UserId) :
    (∀ batch views w', (f.post user batch).Yields w views w' → List.Forall₂ (fun req v =>
      ∃ row, w'.store.comment? v.id = some row ∧ req.StoredAs row) batch views) ∧
    (∀ before req after, (∀ later ∈ after, later.id ≠ req.id) → ∀ views w',
      (f.edit user (before ++ req :: after)).Yields w views w' →
        ∃ row, w'.store.comment? req.id = some row ∧
          row.wording.Renders req.content req.format req.pseudonym req.customData) ∧
    (∀ v, Reached Traffic.Plain v → v.IsLegible) ∧
    ∀ t, Traffic.Runs Traffic.Plain (fun _ => True) {} t → t.world.IsLegible := by
  have hplainly (g : Forum) (op : Operation) (hg : Traffic.Plain g op) :
      ∀ d ∈ g.areas, d.handler.SavesAsIs := fun d hd => (hg d hd).asIs
  refine ⟨?_, ?_, fun v hv => ?_, fun t ht => ?_⟩
  · intro batch views w' h
    obtain ⟨u, rfl, -⟩ := post_eq_batch h
    exact post_stored hplain (Store.forest_of_reached hw).toNumbered h
  · intro before req after hlast views w' h
    obtain ⟨u, rfl, -⟩ := edit_eq_batch h
    exact edit_stored hplain hlast h
  · exact .of_stored (Store.legible_of_reached hplainly hv)
  · exact .of_stored (Store.legible_of_runs hplainly ht)

/-- The later of two values of one key counts, and keys are put in order. Of two edits in one batch
the second one counts. -/
theorem Forum.stored_as_given_livelyWiki :
    let f := Forum.livelyWiki ⟨0, 0⟩
    let key : SectionKey := ⟨"wiki", "talk", 1, 1⟩
    let w := World.after {} f (.postToWiki 4 [none])
    let given := "\x7b\"b\": 1, \"a\": [2], \"b\": 3\x7d"
    let reply : PostRequest :=
      { key, content := "Reply", pseudonym := " Owl ", replyTo := some 1, customData := given }
    let first : EditRequest := { id := 1, key, content := "Better", customData := given }
    let second : EditRequest := { id := 1, key, content := "Best", customData := " " }
    Reached Traffic.Plain w ∧ w.IsLegible ∧
    (∃ views w', (f.post (some 5) [reply]).Yields w views w' ∧
      List.Forall₂ (fun req v => ∃ row, w'.store.comment? v.id = some row ∧
        PostRequest.StoredAs req row) [reply] views ∧
      w'.store.comments.map (fun c => (c.pseudonym, c.customData)) =
        [(none, ""), (some "Owl", "\x7b\"a\":[2],\"b\":3\x7d")]) ∧
    ∃ views w', (f.edit (some 4) [first, second]).Yields w views w' ∧
      (∃ row, w'.store.comment? 1 = some row ∧ row.wording.Renders "Best" 0 "" " ") ∧
      w'.store.comments.map (fun c => (c.content, c.customData)) = [("Best", "")] := by
  intro f key w given reply first second
  have hplain : ∀ d ∈ f.areas, d.handler.IsPlain := by
    intro d hd
    rw [List.mem_singleton.1 hd]
    exact ⟨rfl, rfl⟩
  have hw : Reached Traffic.Plain w := Reached.start.after hplain
  obtain ⟨views, hpost⟩ := Action.exists_yields (m := f.post (some 5) [reply]) (w := w)
    (by decide +kernel)
  obtain ⟨views', hedit⟩ := Action.exists_yields (m := f.edit (some 4) [first, second]) (w := w)
    (by decide +kernel)
  have hstored := stored_as_given hplain hw
  refine ⟨hw, (hstored none).2.2.1 w hw,
    ⟨views, _, hpost, (hstored (some 5)).1 _ views _ hpost, by decide +kernel⟩,
    views', _, hedit, ?_, by decide +kernel⟩
  exact (hstored (some 4)).2.1 [first] second [] (fun _ h => nomatch h) views' _ hedit

end Discussion
