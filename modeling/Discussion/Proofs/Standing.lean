import Discussion.Proofs.Recipients

namespace Discussion

/-- What is done to the choices of users: one is made, or some go with a user, with comments or with
whole sections. -/
inductive Deed where
  | chose (user : UserId) (key : SectionKey) (comment : Option CommentId) (status : Delivery)
  | forgot (user : UserId)
  | lost (comments : List CommentId)
  | cleared (sections : SectionKey → Bool)

namespace Deed

/-- The deed settles anew what a user wishes to hear of a section, or of one comment of it. -/
def settles (user : UserId) (key : SectionKey) (comment : Option CommentId) : Deed → Bool
  | .chose u k c _ => u == user && k == key && c == comment
  | .forgot u => u == user
  | .lost ids => comment.any ids.contains
  | .cleared sections => sections key

/-- The wish that the deed leaves behind. The default status is none. -/
def wish : Deed → Option Delivery
  | .chose _ _ _ status => if status = .default then none else some status
  | _ => none

end Deed

/-- What a user has last wished to hear of a section, or of one comment of it. The last of the deeds
comes first. -/
def lastWish (history : List Deed) (user : UserId) (key : SectionKey)
    (comment : Option CommentId) : Option Delivery :=
  (history.find? (·.settles user key comment)).bind (·.wish)

/-- The wish that counts: the one for the comment, or else the one for its section. -/
def standingWish (history : List Deed) (user : UserId) (key : SectionKey)
    (comment : Option CommentId) : Option Delivery :=
  (comment.bind fun id => lastWish history user key (some id)).or (lastWish history user key none)

/-- The comments that are not stored any longer. -/
def World.lost (w w' : World) : List CommentId :=
  (w.store.comments.map (·.id)).filter fun id => !w'.store.comments.any (·.id == id)

/-- What an operation does to choices, when it leads from one world to another. -/
def Operation.deed? (w w' : World) : Operation → Option Deed
  | .choose (some user) req => (Delivery.ofName? req.status).map (.chose user req.key req.comment)
  | .remove _ _ => some (.lost (w.lost w'))
  | .clearSection sec => some (.cleared (· == sec.key))
  | .clearArea a => some (.cleared fun k =>
      k.component == a.component && k.area == a.name && k.context == a.context)
  | .purgeComponent component => some (.cleared (·.component == component))
  | .purgeContexts contexts => some (.cleared fun k => contexts.contains k.context)
  | .purgeChoices user => some (.forgot user)
  | _ => none

/-- An operation has done nothing unless it has written. -/
def Operation.deeds (op : Operation) (calls : List Call) (w w' : World) : List Deed :=
  if (writesOf calls).isEmpty then [] else (op.deed? w w').toList

/-- The worlds that come of an empty store, with what has been done to choices on the way. -/
inductive Recounted : World → List Deed → Prop
  | start : Recounted {} []
  | operate {w : World} {history : List Deed} {σ : Type} (f : Forum) (op : Operation)
    (faults : Faults σ) (state : σ) : Recounted w history →
      Recounted ((op.action f).run.run faults state w).2.2
        (op.deeds ((op.action f).run.carried faults state w) w
          ((op.action f).run.run faults state w).2.2 ++ history)

theorem Recounted.reached {w : World} {history : List Deed} (h : Recounted w history) :
    Reached (fun _ _ => True) w := by
  induction h with
  | start => exact .start
  | operate f op faults state _ ih => exact .operate f op faults state ih trivial

variable {s t : Store} {history : List Deed} {d : Deed} {user : UserId} {key : SectionKey}
variable {comment : Option CommentId} {status : Delivery}

/-- The history tells of every choice that is stored, and of no other. No comment has the number
zero, under which the choices for sections are kept. -/
def Recorded (history : List Deed) (s : Store) : Prop :=
  ∀ user key comment status, lastWish history user key comment = some status ↔
    comment ≠ some 0 ∧ ⟨user, key, Store.choiceTarget comment, status⟩ ∈ s.choices

/-- What a deed makes of the stored choices. -/
structure Deed.Alters (d : Deed) (s t : Store) : Prop where
  choices : ∀ {user key comment status}, comment ≠ some 0 →
    (⟨user, key, Store.choiceTarget comment, status⟩ ∈ t.choices ↔
      if d.settles user key comment then d.wish = some status
      else ⟨user, key, Store.choiceTarget comment, status⟩ ∈ s.choices)
  zero : ∀ {user key}, d.settles user key (some 0) → d.wish = none

theorem recorded_empty : Recorded [] {} :=
  fun _ _ _ _ => ⟨nofun, fun h => nomatch h.2⟩

theorem lastWish_cons (d : Deed) (history : List Deed) (user : UserId) (key : SectionKey)
    (comment : Option CommentId) : lastWish (d :: history) user key comment =
      if d.settles user key comment then d.wish else lastWish history user key comment := by
  rw [lastWish, List.find?_cons]
  cases d.settles user key comment <;> rfl

theorem Recorded.cons (h : Recorded history s) (hd : d.Alters s t) : Recorded (d :: history) t := by
  intro user key comment status
  rw [lastWish_cons]
  by_cases hzero : comment = some 0
  · rw [iff_false_right fun hboth => hboth.1 hzero, hzero]
    split
    next hsettled =>
      rw [hd.zero hsettled]
      exact nofun
    next => exact fun hlast => ((h user key (some 0) status).1 hlast).1 rfl
  · rw [and_iff_right hzero, hd.choices hzero]
    split
    · rfl
    · rw [h user key comment status, and_iff_right hzero]

theorem Deed.Alters.of_wish (hwish : d.wish = none)
    (h : ∀ {user key comment status}, comment ≠ some 0 →
      (⟨user, key, Store.choiceTarget comment, status⟩ ∈ t.choices ↔
        ⟨user, key, Store.choiceTarget comment, status⟩ ∈ s.choices ∧
          d.settles user key comment = false)) : d.Alters s t where
  choices := by
    intro user key comment status hzero
    rw [h hzero]
    cases d.settles user key comment with
    | true => rw [if_pos rfl, hwish]; exact ⟨fun hboth => (nomatch hboth.2), nofun⟩
    | false => exact and_iff_left rfl
  zero := fun _ => hwish

theorem Deed.alters_forgot (s : Store) (user : UserId) :
    (Deed.forgot user).Alters s (s.forgetChoices user).2 := by
  refine .of_wish rfl fun {u _ _ _} _ => ?_
  change _ ∈ s.choices.filter _ ↔ _
  rw [List.mem_filter, Bool.not_eq_true']
  refine and_congr_right fun _ => ?_
  change (u == user) = false ↔ (user == u) = false
  rw [beq_eq_false_iff_ne, beq_eq_false_iff_ne, ne_comm]

theorem Deed.alters_cleared (s : Store) {p sections : SectionKey → Bool} (h : p = sections) :
    (Deed.cleared sections).Alters s (s.removeSections p).2 := by
  subst h
  refine .of_wish rfl fun _ => ?_
  change _ ∈ s.choices.filter _ ↔ _
  rw [List.mem_filter, Bool.not_eq_true']
  rfl

theorem Deed.alters_selected (s : Store) {f : Selection} {sections : SectionKey → Bool}
    (hwhole : f.isWholeSections) (h : f.coversSection = sections) :
    (Deed.cleared sections).Alters s (s.removeSelected f).2 := by
  rw [Store.removeSelected_whole hwhole]
  exact alters_cleared s h

theorem Deed.alters_chose (s : Store) (user : UserId) (key : SectionKey)
    (hcomment : comment ≠ some 0) (status : Delivery) :
    (Deed.chose user key comment status).Alters s (s.choose user key comment status) where
  choices := by
    intro u k c st hc
    have hsame : Store.isChoice user key comment ⟨u, k, Store.choiceTarget c, st⟩ ↔
        (Deed.chose user key comment status).settles u k c := by
      rw [Store.isChoice_iff, Store.choiceTarget_inj hc hcomment, settles, Bool.and_eq_true,
        Bool.and_eq_true, beq_iff_eq, beq_iff_eq, beq_iff_eq, and_assoc, eq_comm (a := u),
        eq_comm (a := k), eq_comm (a := c)]
    rw [Store.mem_choices_choose]
    simp only [hsame]
    split
    · rw [wish]
      split
      next hdefault => exact ⟨fun h => (h.1 hdefault).elim, nofun⟩
      next hset => rw [and_iff_right hset, Option.some.injEq, eq_comm]
    · rfl
  zero := by
    intro u k h
    simp only [settles, Bool.and_eq_true, beq_iff_eq] at h
    exact (hcomment h.2).elim

theorem World.mem_lost {w w' : World} {id : CommentId} : id ∈ w.lost w' ↔
    (∃ c ∈ w.store.comments, c.id = id) ∧ ¬∃ c ∈ w'.store.comments, c.id = id := by
  rw [lost, List.mem_filter, List.mem_map, Bool.not_eq_true', ← Bool.not_eq_true, List.any_eq_true]
  simp only [beq_iff_eq]

theorem Store.Numbered.goes_iff (h : s.Numbered) (ids : List CommentId) (id : CommentId) :
    s.anyWithId (·.goesWith ids) id ↔
      (∃ c ∈ s.comments, c.id = id) ∧ ¬∃ c ∈ (s.without ids).comments, c.id = id := by
  rw [Store.comments_without]
  constructor
  · intro hgone
    obtain ⟨c, hc, hboth⟩ := List.any_eq_true.1 hgone
    obtain ⟨hgoes, hid⟩ := Bool.and_eq_true_iff.1 hboth
    refine ⟨⟨c, hc, beq_iff_eq.1 hid⟩, ?_⟩
    rintro ⟨_, hleft, heq⟩
    obtain ⟨d, hd, rfl⟩ := List.mem_map.1 hleft
    obtain ⟨hd, hkept⟩ := List.mem_filter.1 hd
    rw [h.eq_of_id hd hc (heq.trans (beq_iff_eq.1 hid).symm), Bool.not_eq_true'] at hkept
    exact absurd hgoes (Bool.eq_false_iff.1 hkept)
  · rintro ⟨⟨c, hc, rfl⟩, hgone⟩
    rw [h.anyWithId _ hc]
    by_contra hkept
    refine hgone ⟨_, List.mem_map_of_mem (List.mem_filter.2 ⟨hc, ?_⟩), rfl⟩
    rwa [Bool.not_eq_true', Bool.eq_false_iff]

theorem Deed.alters_lost {w w' : World} (h : w.store.Numbered) {ids : List CommentId}
    (hw' : w'.store = w.store.without ids) :
    (Deed.lost (w.lost w')).Alters w.store w'.store := by
  refine .of_wish rfl fun {user key comment status} hzero => ?_
  rw [hw']
  change _ ∈ w.store.choices.filter _ ↔ _
  rw [List.mem_filter, Bool.not_eq_true']
  refine and_congr_right fun ht => ?_
  cases comment with
  | none =>
    have hkept := (List.mem_filter.1 (h.choices_without ids ht rfl)).2
    rw [Bool.not_eq_true'] at hkept
    exact iff_of_true hkept rfl
  | some id =>
    have hlost : w.store.anyWithId (·.goesWith ids) id = (w.lost w').contains id := by
      rw [Bool.eq_iff_iff, h.goes_iff, List.contains_iff_mem, World.mem_lost, hw']
    change w.store.anyWithId _ id = false ↔ _
    rw [hlost]
    rfl

theorem Store.Numbered.target_ne_zero (h : s.Numbered) {x : Option StoredComment}
    (hx : ∀ c ∈ x, s.comment? c.id = some c) : x.map (·.id) ≠ some 0 := by
  intro hzero
  obtain ⟨c, hc, hid⟩ := Option.map_eq_some_iff.1 hzero
  have hpos := (h.issued _ (mem_identities (mem_of_comment? (hx c hc)).1)).1
  exact absurd hid (Int.ne_of_gt hpos)

theorem Recorded.of_choices (h : Recorded history s) (hsame : t.choices = s.choices) :
    Recorded history t := by
  intro user key comment status
  rw [hsame]
  exact h user key comment status

namespace Operation

/-- Whatever the operation comes to, the history and its deed tell of what is stored then. -/
def IsRecorded (op : Operation) (f : Forum) (w : World) : Prop :=
  ∀ history, Recorded history w.store → (op.action f).run.Ends (fun _ => True) w fun _ calls w' =>
    Recorded (op.deeds calls w w' ++ history) w'.store

variable {f : Forum} {w : World} {op : Operation}

theorem isRecorded_quiet (hdeed : ∀ w', op.deed? w w' = none)
    (hkept : (op.action f).Keeps fun w' => w'.store.choices = w.store.choices) :
    op.IsRecorded f w := by
  intro history h
  apply (hkept w rfl).mono
  intro _ calls w' hsame
  have hnone : op.deeds calls w w' = [] := by
    rw [deeds, hdeed]
    split <;> rfl
  rw [hnone]
  exact h.of_choices hsame

theorem isRecorded_bulk {c : StoreCall} (hc : c.isQuestion = false)
    (haction : op.action f = discard (Action.store c)) (hdeed : ∀ w', op.deed? w w' = some d)
    (hd : d.Alters w.store (w.store.answer c).2) : op.IsRecorded f w := by
  intro history h
  rw [haction]
  refine Action.ends_map (Action.ends_store (fun _ _ => h) ?_)
  have hone (w' : World) : op.deeds [.store c] w w' = [d] := by
    rw [deeds, hdeed, writesOf, List.filter_cons]
    simp only [Call.isQuestion, hc]
    rfl
  rw [hone]
  exact h.cons hd

theorem isRecorded_choose (hn : w.store.Numbered) (user : Option UserId) (req : ChoiceRequest) :
    (choose user req).IsRecorded f w := by
  intro history h
  refine Action.ends_map (f.choose_ends user req ?_ (fun _ => h) ?_)
  · intro asked hasked r calls w' hr
    rw [deeds, writesOf_append hasked]
    exact hr
  · rintro u status sec x rfl hstatus hsec - hid hx
    have hzero : req.comment ≠ some 0 := hid ▸ hn.target_ne_zero fun c hc => (hx c hc).1
    rw [Action.ends_bind]
    refine sec.setStatus_ends u _ status (fun _ => h) ?_
    apply Program.Ends.mono (sec.status_reads u _).observes
    rintro r calls w' ⟨-, rfl, -⟩
    have hone (c : StoreCall) (hc : c.isQuestion = false) (w' : World) :
        (choose (some u) req).deeds ([.store c] ++ calls) w w' =
          [.chose u req.key req.comment status] := by
      rw [deeds, deed?, hstatus, writesOf, List.singleton_append, List.filter_cons]
      simp only [Call.isQuestion, hc]
      rfl
    rw [hone _ rfl, hsec, Comment.bind_ofStored, hid]
    exact h.cons (Deed.alters_chose w.store u req.key hzero status)

theorem isRecorded_remove (hw : w.store.Forest) (user : Option UserId) (ids : List CommentId) :
    (remove user ids).IsRecorded f w := by
  intro history h
  apply Action.ends_map
  apply (Forum.remove_ends hw f user ids).mono
  rintro r calls w' ⟨done, left, hremoved, -⟩
  rw [deeds, hremoved.calls]
  cases done with
  | nil => exact hremoved.nothing ▸ h
  | cons x done => exact h.cons (Deed.alters_lost hw.toNumbered hremoved.store)

theorem isRecorded (hw : w.store.Forest) (f : Forum) (op : Operation) : op.IsRecorded f w := by
  have hsave (s : Section) (comment : Comment) :
      (s.save comment).Keeps fun w' => w'.store.choices = w.store.choices :=
    s.save_keeps comment (fun _ w' hw' _ => (w'.store.choices_add _).trans hw')
      (fun _ _ hw' => hw') fun _ _ hw' => hw'
  cases op with
  | list user req => exact isRecorded_quiet (fun _ => rfl) (.map (f.list_reads user req).keeps)
  | sectionViews user req =>
    exact isRecorded_quiet (fun _ => rfl) (.map (f.sectionViews_reads user req).keeps)
  | post user batch => exact isRecorded_quiet (fun _ => rfl) (.map (f.post_keeps hsave user batch))
  | edit user batch => exact isRecorded_quiet (fun _ => rfl) (.map (f.edit_keeps hsave user batch))
  | remove user ids => exact isRecorded_remove hw user ids
  | vote user req =>
    refine isRecorded_quiet (fun _ => rfl) (.map fun w' hw' => ?_)
    refine f.vote_ends user req (fun _ _ _ _ _ h => h) (fun _ => hw') fun u sec x _ _ _ => ?_
    exact sec.vote_stores (P := fun s => s.choices = w.store.choices) (.ofStored x) u req.upvote
      hw' fun id _ => (w'.store.choices_castVote id u req.upvote).trans hw'
  | choose user req => exact isRecorded_choose hw.toNumbered user req
  | clearSection sec =>
    exact isRecorded_bulk (c := .removeSelected sec.selection) rfl rfl (fun _ => rfl)
      (Deed.alters_selected _ rfl sec.coversSection_selection)
  | clearArea area =>
    exact isRecorded_bulk (c := .removeSelected area.selection) rfl rfl (fun _ => rfl)
      (Deed.alters_selected _ rfl area.coversSection_selection)
  | purgeComponent component =>
    exact isRecorded_bulk (c := .removeComponent component) rfl rfl (fun _ => rfl)
      (Deed.alters_cleared _ rfl)
  | purgeContexts contexts =>
    exact isRecorded_bulk (c := .removeContexts contexts) rfl rfl (fun _ => rfl)
      (Deed.alters_cleared _ rfl)
  | purgeVotes user =>
    exact isRecorded_quiet (fun _ => rfl) (.map (.store fun _ hw' => hw'))
  | purgeChoices user =>
    exact isRecorded_bulk (c := .forgetChoices user) rfl rfl (fun _ => rfl)
      (Deed.alters_forgot _ user)
  | introduce person => exact isRecorded_quiet (fun _ => rfl) (.store fun _ hw' => hw')

end Operation

theorem recorded_of_recounted {w : World} (hw : Recounted w history) : Recorded history w.store := by
  induction hw with
  | start => exact recorded_empty
  | @operate w history _ f op faults state hw ih =>
    have hforest := Store.forest_of_reached hw.reached
    exact (op.isRecorded hforest f history ih).run_any faults state

theorem Recorded.lastWish_zero (h : Recorded history s) :
    lastWish history user key (some 0) = none := by
  rw [Option.eq_none_iff_forall_ne_some]
  exact fun status hstatus => ((h user key (some 0) status).1 hstatus).1 rfl

theorem Recorded.lastWish_eq (h : Recorded history s) (hd : s.Decided) (hcomment : comment ≠ some 0) :
    lastWish history user key comment = s.choice? user key comment := by
  apply Option.ext
  intro status
  rw [h user key comment status, and_iff_right hcomment, hd.choice?_eq_some]

/-- What the history tells of a wish is what the stored choices tell. -/
theorem Recorded.standingWish_eq (h : Recorded history s) (hd : s.Decided) :
    standingWish history user key comment = s.chosen? user key comment := by
  have hsection : lastWish history user key none = s.choice? user key none :=
    h.lastWish_eq hd nofun
  rw [standingWish, Store.chosen?, hsection]
  cases comment with
  | none => rfl
  | some id =>
    rw [Option.bind_some, Option.bind_some]
    by_cases hzero : id = 0
    · have hsame : s.choice? user key (some 0) = s.choice? user key none := rfl
      rw [hzero, h.lastWish_zero, hsame, Option.or_self, Option.none_or]
    · rw [h.lastWish_eq hd fun hid => hzero (Option.some.inj hid)]

namespace Store

theorem Decided.chosen?_ne_default (h : s.Decided) : s.chosen? user key comment ≠ some .default := by
  have hone (comment : Option CommentId) : s.choice? user key comment ≠ some .default :=
    fun hdefault => h.made _ (h.choice?_eq_some.1 hdefault) rfl
  rw [chosen?, Ne, Option.or_eq_some_iff]
  rintro (hcomment | ⟨-, hsection⟩)
  · obtain ⟨id, -, hid⟩ := Option.bind_eq_some_iff.1 hcomment
    exact hone _ hid
  · exact hone _ hsection

theorem Decided.choice?_choose (h : s.Decided) {u : UserId} {k : SectionKey}
    {c : Option CommentId} (status : Delivery)
    (hother : (user, key, choiceTarget comment) ≠ (u, k, choiceTarget c)) :
    (s.choose u k c status).choice? user key comment = s.choice? user key comment := by
  apply Option.ext
  intro found
  have hnot : ¬isChoice u k c ⟨user, key, choiceTarget comment, found⟩ :=
    fun hsame => hother (isChoice_iff_matter.1 hsame)
  rw [(h.choose u k c status).choice?_eq_some, h.choice?_eq_some, mem_choices_choose, if_neg hnot]

end Store

namespace Section

variable (sec : Section)

theorem usualStatus_eq (user : UserId) : sec.usualStatus user =
    if sec.handler.usualStatus sec.key user = .default then .off
    else sec.handler.usualStatus sec.key user := by
  unfold usualStatus
  cases sec.handler.usualStatus sec.key user <;> rfl

theorem usualStatus_ne_default (user : UserId) : sec.usualStatus user ≠ .default := by
  rw [usualStatus_eq]
  split
  · exact nofun
  next h => exact h

theorem statusIn_ne_default (h : s.Decided) (user : UserId) (comment : Option CommentId) :
    sec.statusIn s user comment ≠ .default := by
  rw [statusIn_eq]
  cases hchosen : s.chosen? user sec.key comment with
  | none => exact sec.usualStatus_ne_default user
  | some status =>
    rintro rfl
    exact h.chosen?_ne_default hchosen

end Section

theorem Forum.Declares.statusIn_eq {f : Forum} {sec other : Section} (h : f.Declares sec)
    (hother : f.Declares other) (hkey : sec.key = other.key) (user : UserId)
    (comment : Option CommentId) : sec.statusIn s user comment = other.statusIn s user comment := by
  rw [Section.statusIn_eq, Section.statusIn_eq, Section.usualStatus, Section.usualStatus, hkey,
    h.handler_eq hother hkey]

theorem Forum.choose_accepted {w : World} (hn : w.store.Numbered) (f : Forum)
    (user : Option UserId) (req : ChoiceRequest) {faulty : Call → Prop} :
    (f.choose user req).run.Ends faulty w fun r _ w' => ∀ answer, r = .ok answer →
      ∃ u status sec, user = some u ∧ sec.key = req.key ∧ f.Declares sec ∧ req.comment ≠ some 0 ∧
        w'.store = w.store.choose u req.key req.comment status ∧
        answer = sec.statusIn w'.store u req.comment := by
  refine f.choose_ends user req (fun _ _ _ _ _ h => h) (fun _ => nofun) ?_
  rintro u status sec x rfl - hsec hdeclares hid hx
  rw [Action.ends_bind]
  refine sec.setStatus_ends u _ status (fun _ => nofun) ?_
  apply Program.Ends.mono (sec.status_observes u _)
  rintro r _ w' ⟨hr, rfl, -⟩ answer hanswer
  have hstatus := hr answer hanswer
  have hzero : req.comment ≠ some 0 := hid ▸ hn.target_ne_zero fun c hc => (hx c hc).1
  rw [Comment.bind_ofStored, hid] at hstatus ⊢
  exact ⟨u, status, sec, rfl, hsec, hdeclares, hzero, hsec ▸ rfl, hstatus⟩

/-- What a choice may change: for a comment nothing but the comment, for a section also those of its
comments for which the user has no wish of their own. -/
def ChoiceRequest.Reaches (req : ChoiceRequest) (history : List Deed) (user : UserId)
    (key : SectionKey) (comment : Option CommentId) : Prop :=
  key = req.key ∧ match req.comment with
    | some id => comment = some id
    | none => ∀ id ∈ comment, lastWish history user key (some id) = none

theorem Recorded.chosen?_choose (h : Recorded history s) (hd : s.Decided) {u : UserId}
    {req : ChoiceRequest} (hreq : req.comment ≠ some 0) (status : Delivery)
    (hother : ¬(user = u ∧ req.Reaches history u key comment)) :
    (s.choose u req.key req.comment status).chosen? user key comment =
      s.chosen? user key comment := by
  have hkept {c : Option CommentId}
      (hne : ¬(user = u ∧ key = req.key ∧ Store.choiceTarget c = Store.choiceTarget req.comment)) :
      (s.choose u req.key req.comment status).choice? user key c = s.choice? user key c :=
    hd.choice?_choose status fun hsame => hne (by simpa only [Prod.mk.injEq] using hsame)
  unfold Store.chosen?
  by_cases hsame : user = u ∧ key = req.key
  · obtain ⟨rfl, rfl⟩ := hsame
    have hreaches : ¬req.Reaches history user req.key comment := fun hr => hother ⟨rfl, hr⟩
    rw [ChoiceRequest.Reaches, and_iff_right rfl] at hreaches
    cases hcase : req.comment with
    | some id =>
      simp only [hcase] at hreaches hreq hkept
      have hsection := hkept (c := none) fun hsame => hreq (congrArg some hsame.2.2.symm)
      cases comment with
      | none => rw [Option.bind_none, Option.bind_none, hsection]
      | some i =>
        have hcomment := hkept (c := some i) fun hsame => hreaches (congrArg some hsame.2.2)
        rw [Option.bind_some, Option.bind_some, hcomment, hsection]
    | none =>
      simp only [hcase, not_forall] at hreaches hkept
      obtain ⟨id, rfl, hown⟩ := hreaches
      have hzero : some id ≠ some 0 := fun hzero => hown (hzero ▸ h.lastWish_zero)
      rw [h.lastWish_eq hd hzero] at hown
      obtain ⟨own, hown⟩ := Option.ne_none_iff_exists'.1 hown
      have hcomment := hkept (c := some id) fun hsame => hzero (congrArg some hsame.2.2)
      rw [Option.bind_some, Option.bind_some, hcomment, hown]
      rfl
  · have hanother (c : Option CommentId) := hkept (c := c) fun h => hsame ⟨h.1, h.2.1⟩
    simp only [hanother]

/-- Over every run: what a user hears is the last wish for the comment that is still standing, else
the last one for its section, else what the component lets users hear, and the default status is
never heard. A choice that is accepted answers what its user hears from then on, and nothing else
changes of what is heard. -/
theorem standing_of_recounted {w : World} (hw : Recounted w history) :
    (∀ (sec : Section) (user : UserId) (comment : Option Comment), ∃ status,
      (sec.status user comment).Answers w status ∧ status ≠ .default ∧
        status = (standingWish history user sec.key (comment.bind (·.id))).getD
          (if sec.handler.usualStatus sec.key user = .default then .off
            else sec.handler.usualStatus sec.key user)) ∧
    ∀ {σ : Type} (faults : Faults σ) (state : σ) (f : Forum) (user : Option UserId)
      (req : ChoiceRequest) (answer : Delivery),
      let run := (f.choose user req).run.run faults state w
      run.1 = .ok answer → ∃ u, user = some u ∧
        (∀ (sec : Section) (comment : Option Comment), f.Declares sec → sec.key = req.key →
          comment.bind (·.id) = req.comment → (sec.status u comment).Answers run.2.2 answer) ∧
        ∀ (sec : Section) (v : UserId) (comment : Option Comment),
          ¬(v = u ∧ req.Reaches history u sec.key (comment.bind (·.id))) → ∃ kept,
            (sec.status v comment).Answers w kept ∧
              (sec.status v comment).Answers run.2.2 kept := by
  have hrecorded := recorded_of_recounted hw
  have hd := Store.decided_of_reached hw.reached
  have hn := (Store.tied_of_reached hw.reached).toNumbered
  have hanswers (sec : Section) (user : UserId) (comment : Option Comment) (w : World) :
      (sec.status user comment).Answers w (sec.statusIn w.store user (comment.bind (·.id))) :=
    (sec.status_reads user comment).answers (sec.look_status user comment)
  refine ⟨fun sec user comment => ⟨_, hanswers sec user comment w,
    sec.statusIn_ne_default hd _ _, ?_⟩, ?_⟩
  · rw [Section.statusIn_eq, sec.usualStatus_eq, hrecorded.standingWish_eq hd]
  · intro σ faults state f user req answer run hok
    obtain ⟨u, status, sec, huser, hsec, hdeclares, hzero, hstore, hanswer⟩ :=
      (f.choose_accepted hn user req).run_any faults state answer hok
    refine ⟨u, huser, fun other comment hother hkey hcomment => ?_, fun other v comment hreach => ?_⟩
    · rw [hanswer, ← hother.statusIn_eq hdeclares (hkey.trans hsec.symm), ← hcomment]
      exact hanswers other u comment run.2.2
    · refine ⟨_, hanswers other v comment w, ?_⟩
      have hkept : other.statusIn run.2.2.store v (comment.bind (·.id)) =
          other.statusIn w.store v (comment.bind (·.id)) := by
        rw [show run.2.2.store = _ from hstore, Section.statusIn_eq, Section.statusIn_eq,
          hrecorded.chosen?_choose hd hzero status hreach]
      rw [← hkept]
      exact hanswers other v comment run.2.2

theorem Recounted.after {w : World} (hw : Recounted w history) (f : Forum) (op : Operation) :
    Recounted (w.after f op)
      (op.deeds ((op.action f).run.carried Faults.never () w) w (w.after f op) ++ history) :=
  .operate f op Faults.never () hw

/-- A page of the wiki. -/
def wikiPage : Section :=
  ⟨⟨"wiki", "talk", 1, { allowReplies := true }, .wiki⟩, ⟨"wiki", "talk", 1, 1⟩,
    .plain "Page" "/page"⟩

/-- A user follows a page but not its comments, of which one is removed. -/
def following : World :=
  World.afterAll {} (.wiki .wiki) [
    .postToWiki 4 [none, none],
    .choose (some 8) ⟨wikiPage.key, some 1, "off"⟩,
    .choose (some 8) ⟨wikiPage.key, some 2, "off"⟩,
    .choose (some 8) ⟨wikiPage.key, none, "immediate"⟩,
    .remove (some 7) [1]]

theorem standing_of_recounted_following :
    let history : List Deed := [.lost [1], .chose 8 wikiPage.key none .immediate,
      .chose 8 wikiPage.key (some 2) .off, .chose 8 wikiPage.key (some 1) .off]
    let comment := (following.store.comment? 2).map Comment.ofStored
    let run := ((Forum.wiki .wiki).choose (some 8) ⟨wikiPage.key, none, "digests"⟩).run.run
      Faults.never () following
    Recounted following history ∧ (wikiPage.status 8 none).Answers following .immediate ∧
      (wikiPage.status 8 comment).Answers following .off ∧ run.1 = .ok .dailyDigest ∧
      (wikiPage.status 8 none).Answers run.2.2 .dailyDigest ∧
      (wikiPage.status 8 comment).Answers run.2.2 .off := by
  intro history comment run
  have hw : Recounted following history :=
    ((((Recounted.start.after _ _).after _ _).after _ _).after _ _).after _ _
  obtain ⟨hheard, hchoose⟩ := standing_of_recounted hw
  have hrun : run.1 = .ok .dailyDigest := rfl
  obtain ⟨u, hu, hanswer, hothers⟩ :=
    hchoose Faults.never () (.wiki .wiki) (some 8) ⟨wikiPage.key, none, "digests"⟩ _ hrun
  obtain rfl := Option.some.inj hu
  obtain ⟨whole, hsection, -, rfl⟩ := hheard wikiPage 8 none
  obtain ⟨own, hcomment, -, rfl⟩ := hheard wikiPage 8 comment
  obtain ⟨kept, hbefore, hafter⟩ := hothers wikiPage 8 comment fun h => nomatch h.2.2 2 rfl
  obtain rfl := hbefore.unique hcomment
  exact ⟨hw, hsection, hcomment, hrun, hanswer wikiPage none ⟨_, rfl, rfl, rfl⟩ rfl rfl, hafter⟩

end Discussion
