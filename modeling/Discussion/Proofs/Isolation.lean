import Discussion.Proofs.Entries
import Discussion.Proofs.PreparedRequests

namespace Discussion

/-- What is stored of one section: its comments, the votes for them, and the choices for the section
and for comments of it. -/
structure Portion where
  comments : List StoredComment
  votes : List Vote
  choices : List Choice
deriving DecidableEq, Repr

def Store.portion (s : Store) (key : SectionKey) : Portion :=
  let comments := s.comments.filter (·.key == key)
  { comments
    votes := s.votes.filter fun v => comments.any (·.id == v.comment)
    choices := s.choices.filter (·.key == key) }

/-- The section that a request names, with the comment that it names there, if any. -/
structure Address where
  key : SectionKey
  comment : Option CommentId

def PostRequest.address (r : PostRequest) : Address := ⟨r.key, r.replyTo⟩

def EditRequest.address (r : EditRequest) : Address := ⟨r.key, some r.id⟩

def VoteRequest.address (r : VoteRequest) : Address := ⟨r.key, some r.comment⟩

def ChoiceRequest.address (r : ChoiceRequest) : Address := ⟨r.key, r.comment⟩

/-- The comment that is named is stored, but in another section. -/
def Address.Misplaced (a : Address) (s : Store) : Prop :=
  ∃ c ∈ s.comments, a.comment = some c.id ∧ c.key ≠ a.key

/-- Whichever calls fail, the action changes nothing outside of the sections that are named, and it
has no result where a comment is misplaced. -/
def Action.StaysWithin {α : Type} (m : Action α) (addresses : List Address) (w : World) : Prop :=
  ∀ {σ : Type} (faults : Faults σ) (state : σ),
    let run := m.run.run faults state w
    (∀ key, (∀ a ∈ addresses, a.key ≠ key) → run.2.2.store.portion key = w.store.portion key) ∧
      ((∃ a ∈ addresses, a.Misplaced w.store) → ∃ e, run.1 = .error e)

namespace Store

variable {s t : Store} {key : SectionKey}

theorem filter_key_map {g : StoredComment → StoredComment} (hkey : ∀ c, (g c).key = c.key)
    {l : List StoredComment} (hsame : ∀ c ∈ l, c.key = key → g c = c) :
    (l.map g).filter (·.key == key) = l.filter (·.key == key) := by
  have hkeys : (fun c : StoredComment => c.key == key) ∘ g = fun c => c.key == key := by
    funext c
    change ((g c).key == key) = _
    rw [hkey]
  rw [List.filter_map, hkeys]
  refine (List.map_congr_left fun c hc => ?_).trans (List.map_id _)
  obtain ⟨hc, hin⟩ := List.mem_filter.1 hc
  exact hsame c hc (beq_iff_eq.1 hin)

theorem portion_eq (hcomments : t.comments.filter (·.key == key) = s.comments.filter (·.key == key))
    (hvotes : t.votes = s.votes) (hchoices : t.choices = s.choices) :
    t.portion key = s.portion key := by
  rw [portion, portion, hcomments, hvotes, hchoices]

/-- A new comment counts at its target, which is of the same section. -/
theorem portion_add (h : s.Keyed) {r : StoredComment} (hfits : s.Fits (.add r))
    (hother : r.key ≠ key) : (s.add r).2.portion key = s.portion key := by
  refine portion_eq ?_ (s.votes_add r) (s.choices_add r)
  have hnew : (s.newRow r).key ≠ key := hother
  rw [comments_add]
  refine (filter_key_map ?_ fun c hc hkey => ?_).trans ?_
  · exact fun _ => rfl
  · rcases List.mem_append.1 hc with hc | hc
    · have hno : r.replyTo ≠ some c.id := by
        intro htarget
        obtain ⟨x, hx, hid, hsec, -⟩ := hfits c.id htarget
        rw [h.eq_of_id hx hc hid] at hsec
        exact hother (hsec.symm.trans hkey)
      rw [if_neg hno, StoredComment.addReplies_zero]
    · rw [List.mem_singleton.1 hc] at hkey
      exact (hnew hkey).elim
  · rw [List.filter_append, List.filter_singleton, beq_eq_false_iff_ne.2 hnew]
    exact List.append_nil _

theorem portion_revise {r : StoredComment} (h : ∀ c ∈ s.comments, c.id = r.id → c.key ≠ key) :
    (s.revise r).2.portion key = s.portion key := by
  refine portion_eq (filter_key_map (fun c => ?_) fun c hc hkey => ?_) rfl rfl
  · split <;> rfl
  · exact if_neg fun hid => h c hc hid hkey

theorem portion_castVote {id : CommentId} (h : ∀ c ∈ s.comments, c.id = id → c.key ≠ key)
    (user : UserId) (upvote : Bool) : (s.castVote id user upvote).2.portion key = s.portion key := by
  have hcomments : (s.castVote id user upvote).2.comments.filter (·.key == key) =
      s.comments.filter (·.key == key) := by
    rw [comments_castVote]
    refine filter_key_map (fun c => ?_) fun c hc hkey => ?_
    · split <;> rfl
    · exact if_neg fun hid => h c hc hid hkey
  -- The votes for comments of the section are for others than this one.
  have hnot : (s.comments.filter (·.key == key)).any (·.id == id) = false := by
    rw [List.any_eq_false]
    intro c hc hid
    obtain ⟨hc, hkey⟩ := List.mem_filter.1 hc
    exact h c hc (beq_iff_eq.1 hid) (beq_iff_eq.1 hkey)
  rw [portion, portion, hcomments, choices_castVote]
  congr 1
  unfold castVote
  dsimp only
  split
  · rfl
  · split
    · change (s.votes ++ [_]).filter _ = _
      rw [List.filter_append, List.filter_singleton, hnot]
      exact List.append_nil _
    · change (s.votes.filter _).filter _ = _
      rw [List.filter_filter]
      refine List.filter_congr fun v _ => ?_
      rw [Bool.and_eq_left_iff_imp]
      intro hv
      rw [bne_iff_ne]
      rintro rfl
      rw [hnot] at hv
      cases hv

theorem portion_choose {k : SectionKey} (hother : k ≠ key) (user : UserId)
    (comment : Option CommentId) (status : Delivery) :
    (s.choose user k comment status).portion key = s.portion key := by
  have hrest : (s.choices.filter fun t => !isChoice user k comment t).filter (·.key == key) =
      s.choices.filter (·.key == key) := by
    rw [List.filter_filter]
    refine List.filter_congr fun t _ => ?_
    rw [Bool.and_eq_left_iff_imp]
    intro hkey
    rw [Bool.not_eq_true', Bool.eq_false_iff]
    intro hchosen
    exact hother ((isChoice_iff.1 hchosen).2.1.symm.trans (beq_iff_eq.1 hkey))
  unfold choose
  split
  · rw [portion, portion]
    exact congrArg _ hrest
  · rw [portion, portion]
    refine congrArg _ ?_
    change (_ ++ [_]).filter _ = _
    rw [List.filter_append, List.filter_singleton, beq_eq_false_iff_ne.2 hother, hrest]
    exact List.append_nil _

/-- From one store to the other nothing has changed outside of the sections that are named, and ids
belong to the comments that they belonged to. -/
structure ChangesWithin (addresses : List Address) (s t : Store) : Prop where
  keyed : t.Keyed
  known : ∀ c ∈ s.comments, t.Knows c.identity
  portion : ∀ key, (∀ a ∈ addresses, a.key ≠ key) → t.portion key = s.portion key

variable {addresses : List Address}

theorem ChangesWithin.refl (h : s.Keyed) : ChangesWithin addresses s s where
  keyed := h
  known := fun _ hc => h.knows hc
  portion := fun _ _ => rfl

theorem ChangesWithin.answer (h : ChangesWithin addresses s t) {c : StoreCall}
    (hportion : ∀ key, (∀ a ∈ addresses, a.key ≠ key) →
      (t.answer c).2.portion key = t.portion key) :
    ChangesWithin addresses s (t.answer c).2 where
  keyed := h.keyed.answer c
  known := fun d hd => (h.known d hd).answer c
  portion := fun key hother => (hportion key hother).trans (h.portion key hother)

end Store

/-- The comment that is named is stored in the section. -/
def Address.Found (a : Address) (s : Store) : Prop :=
  ∀ id ∈ a.comment, ∃ x, s.comment? id = some x ∧ x.key = a.key

theorem Address.Found.not_misplaced {a : Address} {s : Store} (h : a.Found s) (hs : s.Keyed) :
    ¬a.Misplaced s := by
  rintro ⟨c, hc, hid, hkey⟩
  obtain ⟨x, hx, hsec⟩ := h c.id hid
  obtain ⟨hmem, heq⟩ := Store.mem_of_comment? hx
  rw [hs.eq_of_id hmem hc heq] at hsec
  exact hkey hsec

/-- The comment is a new one for the section that is named, or the one that is named. -/
structure Prepared.Follows (p : Prepared) (a : Address) (s : Store) : Prop where
  own : p.sec.key = a.key
  again : ∀ id ∈ p.comment.id, a.comment = some id
  found : a.Found s

variable {addresses : List Address} {a : Address} {s : Store} {w : World}

theorem Prepared.Follows.save {p : Prepared} (h : p.Follows a s) (ha : a ∈ addresses) :
    (p.sec.save p.comment).Keeps fun w => s.ChangesWithin addresses w.store := by
  refine p.sec.save_keeps p.comment (fun hkey w hw hfits => ?_) (fun hagain w hw => ?_)
    fun w _ hw => hw
  · refine hw.answer (c := .add _) fun key hother => Store.portion_add hw.keyed hfits ?_
    intro hsame
    exact hother a ha (h.own.symm.trans (hkey.symm.trans hsame))
  · refine hw.answer (c := .revise _) fun key hother => Store.portion_revise fun c hc hid hkey => ?_
    obtain ⟨id, hsaved⟩ := Option.isSome_iff_exists.1 hagain
    obtain ⟨x, hx, hsec⟩ := h.found id (h.again id hsaved)
    obtain ⟨hmem, rfl⟩ := Store.mem_of_comment? hx
    have hrow : c.id = x.id := by
      rw [hid]
      exact congrArg (·.getD 0) hsaved
    have hsame := (hw.known x hmem).only c.identity (Store.mem_identities hc) hrow
    exact hother a ha (hsec.symm.trans ((congrArg (·.key) hsame).symm.trans hkey))

theorem Action.staysWithin_of_ends {α : Type} {m : Action α} (hw : w.store.Keyed)
    (h : m.run.Ends (fun _ => True) w fun r _ w' => w.store.ChangesWithin addresses w'.store ∧
      ∀ v, r = .ok v → ∀ a ∈ addresses, a.Found w.store) : m.StaysWithin addresses w := by
  intro σ faults state run
  obtain ⟨hchanges, hfound⟩ := h.run_any faults state
  refine ⟨hchanges.portion, ?_⟩
  rintro ⟨a, ha, hmisplaced⟩
  cases hr : run.1 with
  | error e => exact ⟨e, rfl⟩
  | ok v => exact ((hfound v hr a ha).not_misplaced hw hmisplaced).elim

namespace Forum

variable {f : Forum}

theorem preparePost_follows (hf : ∀ d ∈ f.areas, d.handler.KeepsId) (user : UserId)
    (req : PostRequest) : (f.preparePost user req).Observes (fun _ => True) w fun p =>
      p.Follows req.address w.store := by
  refine (preparePost_observes hf user req).mono ?_
  rintro p ⟨sec, cap, x, hkey, hkeeps, -, hid, hx, -, hp⟩
  obtain ⟨rfl, hnew⟩ := Prepared.check_kept hkeeps hp
  refine ⟨hkey, fun id hsaved => ?_, fun id htarget => ?_⟩
  · rw [hnew] at hsaved
    cases hsaved
  · obtain ⟨c, rfl, rfl⟩ := Option.map_eq_some_iff.1 (hid.trans htarget)
    exact ⟨c, (hx c rfl).1, (hx c rfl).2.trans hkey⟩

theorem prepareEdit_follows (hf : ∀ d ∈ f.areas, d.handler.KeepsId) (user : UserId)
    (req : EditRequest) : (f.prepareEdit user req).Observes (fun _ => True) w fun p =>
      p.Follows req.address w.store := by
  refine (prepareEdit_observes hf user req).mono ?_
  rintro p ⟨sec, cap, x, edited, hkey, hkeeps, hx, hown, hset, hp⟩
  obtain ⟨pseudonym, rfl⟩ := Comment.withPseudonym_kept hset
  obtain ⟨rfl, hsame⟩ := Prepared.check_kept hkeeps hp
  obtain ⟨-, hid⟩ := Store.mem_of_comment? hx
  refine ⟨hkey, fun id hsaved => ?_, ?_⟩
  · rw [hsame] at hsaved
    exact (congrArg some hid).symm.trans hsaved
  · rintro _ ⟨⟩
    exact ⟨x, hx, hown.trans hkey⟩

theorem batch_stays {ρ : Type} {prepare : ρ → Action Prepared} {address : ρ → Address}
    (hw : w.store.Keyed) (hprepare : ∀ req, (prepare req).Observes (fun _ => True) w fun p =>
      p.Follows (address req) w.store) (reqs : List ρ) (ids : List Prepared → List UserId)
    (people : List Person → Comment → Participants) :
    Program.Ends (fun _ => True) (ExceptT.run (do
      let pending ← reqs.mapM prepare
      let found ← Action.store (.peopleByIds (ids pending))
      pending.mapM fun p => p.save (people found))) w fun r _ w' =>
        w.store.ChangesWithin (reqs.map address) w'.store ∧
          ∀ shown, r = .ok shown → ∀ a ∈ reqs.map address, a.Found w.store := by
  have hsave : ∀ req ∈ reqs, ∀ p : Prepared, p.Follows (address req) w.store →
      (p.sec.save p.comment).Keeps fun w' =>
        w.store.ChangesWithin (reqs.map address) w'.store :=
    fun _ hreq p hp => hp.save (List.mem_map_of_mem hreq)
  refine (batch_ends (.refl hw) (fun req _ => hprepare req) hsave ids people).mono ?_
  rintro r _ w' ⟨hchanges, hall⟩
  refine ⟨hchanges, fun shown hshown a ha => ?_⟩
  obtain ⟨req, hreq, rfl⟩ := List.mem_map.1 ha
  obtain ⟨p, hp⟩ := hall shown hshown req hreq
  exact hp.found

theorem post_stays (hf : ∀ d ∈ f.areas, d.handler.KeepsId) (hw : w.store.Keyed)
    (user : Option UserId) (batch : List PostRequest) :
    (f.post user batch).StaysWithin (batch.map (·.address)) w := by
  refine Action.staysWithin_of_ends hw ?_
  refine Action.ends_ask (fun _ _ _ _ _ h => h) (.lift _)
    (fun _ => ⟨.refl hw, fun _ h => nomatch h⟩) fun u _ => ?_
  exact batch_stays hw (preparePost_follows hf u) batch (fun _ => [u])
    fun people _ => ⟨personOf people u, personOf people u⟩

theorem edit_stays (hf : ∀ d ∈ f.areas, d.handler.KeepsId) (hw : w.store.Keyed)
    (user : Option UserId) (batch : List EditRequest) :
    (f.edit user batch).StaysWithin (batch.map (·.address)) w := by
  refine Action.staysWithin_of_ends hw ?_
  refine Action.ends_ask (fun _ _ _ _ _ h => h) (.lift _)
    (fun _ => ⟨.refl hw, fun _ h => nomatch h⟩) fun u _ => ?_
  exact batch_stays hw (prepareEdit_follows hf u) batch
    (fun pending => pending.flatMap fun p => [p.comment.author, u])
    fun people comment => ⟨personOf people comment.author, personOf people u⟩

theorem vote_stays (hw : w.store.Keyed) (user : Option UserId) (req : VoteRequest) :
    (f.vote user req).StaysWithin [req.address] w := by
  refine Action.staysWithin_of_ends hw ?_
  refine f.vote_ends user req (fun _ _ _ _ _ h => h) (fun _ => ⟨.refl hw, fun _ h => nomatch h⟩) ?_
  intro u sec x hsec hx hkey
  obtain ⟨hmem, hid⟩ := Store.mem_of_comment? hx
  have hcast : w.store.ChangesWithin [req.address] (w.store.castVote x.id u req.upvote).2 := by
    refine (Store.ChangesWithin.refl hw).answer (c := .castVote x.id u req.upvote) ?_
    refine fun key hother => Store.portion_castVote (fun c hc hsame => ?_) u req.upvote
    rw [hw.eq_of_id hc hmem hsame, hkey, hsec]
    exact hother req.address List.mem_cons_self
  have hfound : ∀ a ∈ [req.address], a.Found w.store := by
    intro a ha
    obtain rfl := List.mem_singleton.1 ha
    rintro _ ⟨⟩
    exact ⟨x, hx, hkey.trans hsec⟩
  refine (sec.vote_stores (P := w.store.ChangesWithin [req.address]) (.ofStored x) u req.upvote
    (.refl hw) ?_).mono fun _ _ _ hchanges => ⟨hchanges, fun _ _ => hfound⟩
  rintro _ ⟨⟩
  exact hcast

theorem choose_stays (hw : w.store.Keyed) (user : Option UserId) (req : ChoiceRequest) :
    (f.choose user req).StaysWithin [req.address] w := by
  refine Action.staysWithin_of_ends hw ?_
  refine f.choose_ends user req (fun _ _ _ _ _ h => h)
    (fun _ => ⟨.refl hw, fun _ h => nomatch h⟩) ?_
  intro u status sec x _ _ hsec _ hid hx
  have hchosen (comment : Option CommentId) : w.store.ChangesWithin [req.address]
      (w.store.choose u sec.key comment status) := by
    refine (Store.ChangesWithin.refl hw).answer (c := .choose u sec.key comment status) ?_
    refine fun key hother => Store.portion_choose ?_ u comment status
    rw [hsec]
    exact hother req.address List.mem_cons_self
  have hfound : ∀ a ∈ [req.address], a.Found w.store := by
    intro a ha id htarget
    obtain rfl := List.mem_singleton.1 ha
    obtain ⟨c, rfl, rfl⟩ := Option.map_eq_some_iff.1 (hid.trans htarget)
    exact ⟨c, (hx c rfl).1, (hx c rfl).2.trans hsec⟩
  refine Action.ends_bind_of (sec.setStatus_stores (P := w.store.ChangesWithin [req.address]) u _
    status (.refl hw) (hchosen _)) ?_ fun e _ w' h => ⟨h, fun _ h => nomatch h⟩
  intro _ _ w' hchanges
  apply Program.Ends.mono (sec.status_reads u _).observes
  rintro r _ _ ⟨-, rfl, -⟩
  exact ⟨hchanges, fun _ _ => hfound⟩

/-- Whatever is stored, and whatever components and calls do: a request changes nothing of sections
that it does not name, and it is refused where it names a comment of another section. Components may
set anything of a comment before it is saved, but its id. -/
theorem requests_stay_within (hf : ∀ d ∈ f.areas, d.handler.KeepsId) (hw : w.store.Keyed)
    (user : Option UserId) :
    (∀ batch, (f.post user batch).StaysWithin (batch.map (·.address)) w) ∧
      (∀ batch, (f.edit user batch).StaysWithin (batch.map (·.address)) w) ∧
      (∀ req, (f.vote user req).StaysWithin [req.address] w) ∧
      ∀ req, (f.choose user req).StaysWithin [req.address] w := by
  exact ⟨post_stays hf hw user, edit_stays hf hw user, vote_stays hw user, choose_stays hw user⟩

/-- The wiki component, where it edits what its users write. -/
def editingWiki : Handler where
  item := Handler.wiki.item
  beforeSave _ comment _ :=
    match (comment.withContent "Edited" comment.format).withPseudonym "Ghost" with
    | .ok edited => edited.withCustomData []
    | .error _ => comment

theorem keepsId_editingWiki : editingWiki.KeepsId := by
  intro key comment cap
  unfold editingWiki
  dsimp only
  split
  next edited h =>
    obtain ⟨pseudonym, rfl⟩ := Comment.withPseudonym_kept h
    rfl
  next => rfl

def firstPage : SectionKey := ⟨"wiki", "talk", 1, 1⟩

def secondPage : SectionKey := ⟨"wiki", "talk", 1, 2⟩

/-- A page each has a comment, and there are votes and choices for comments that are not stored. -/
def twoPages : World where
  store :=
    { comments := [
        { (default : StoredComment) with id := 3, key := firstPage, author := 4 },
        { (default : StoredComment) with
          id := 7, key := secondPage, author := 4, replyTo := some 5, upvotes := 2 }]
      lastId := 8
      votes := [⟨3, 5⟩, ⟨7, 5⟩, ⟨9, 5⟩]
      choices := [⟨5, firstPage, 7, .off⟩, ⟨5, secondPage, 3, .default⟩] }

theorem keyed_twoPages : twoPages.store.Keyed where
  single := by decide
  issued := by decide

theorem requests_stay_within_twoPages :
    let edited := ((Forum.wiki editingWiki).edit (some 4)
      [{ key := firstPage, id := 3, content := "New" }]).run.run Faults.never () twoPages
    let voted := ((Forum.wiki editingWiki).vote (some 5)
      { key := firstPage, comment := 7, upvote := false }).run.run Faults.never () twoPages
    (∀ d ∈ (Forum.wiki editingWiki).areas, d.handler.KeepsId) ∧ twoPages.store.Keyed ∧
      edited.2.2.store.comments.map (·.content) = ["Edited", ""] ∧
      edited.2.2.store.portion secondPage = twoPages.store.portion secondPage ∧
      ∃ e, voted.1 = .error e := by
  intro edited voted
  have hf : ∀ d ∈ (Forum.wiki editingWiki).areas, d.handler.KeepsId := by
    intro d hd
    rw [List.mem_singleton.1 hd]
    exact keepsId_editingWiki
  have hedit := (requests_stay_within hf keyed_twoPages (some 4)).2.1
  have hvote := (requests_stay_within hf keyed_twoPages (some 5)).2.2.1
  have hkept := (hedit [{ key := firstPage, id := 3, content := "New" }] Faults.never ()).1
    secondPage (by decide)
  have hrefused := (hvote { key := firstPage, comment := 7, upvote := false } Faults.never ()).2
    ⟨_, List.mem_cons_self, _, List.mem_cons_of_mem _ List.mem_cons_self, rfl, by decide⟩
  exact ⟨hf, keyed_twoPages, by decide, hkept, hrefused⟩

end Forum

end Discussion
