import Discussion.Proofs.HiddenAuthors.Rows
import Discussion.Proofs.NoOrphans

namespace Discussion

namespace Section

namespace Recipients

variable {r : Recipients} {user : UserId} {status : Delivery}

/-- The users increase, so that each is listed once. -/
def Ordered (r : Recipients) : Prop :=
  r.Pairwise fun a b => a.1 < b.1

theorem lookup_cons (user u : UserId) (t : Delivery) (r : Recipients) :
    List.lookup user ((u, t) :: r) = if user = u then some t else List.lookup user r := by
  rw [List.lookup_cons]
  by_cases h : user = u
  · rw [h, BEq.rfl, if_pos rfl]
  · rw [beq_eq_false_iff_ne.2 h, if_neg h]

theorem lookup_insert (r : Recipients) (u : UserId) (t : Delivery) (user : UserId) :
    List.lookup user (r.insert u t) = if user = u then some t else List.lookup user r := by
  induction r with
  | nil => exact lookup_cons user u t []
  | cons e rest ih =>
    obtain ⟨v, _⟩ := e
    unfold insert
    split
    · exact lookup_cons user u t _
    · split
      next heq =>
        rw [lookup_cons, lookup_cons, ← heq]
        split <;> rfl
      next hne =>
        rw [lookup_cons, lookup_cons, ih]
        by_cases huser : user = v
        · rw [if_pos huser, if_pos huser, if_neg (huser ▸ Ne.symm hne)]
        · rw [if_neg huser, if_neg huser]

theorem mem_insert {e : UserId × Delivery} (h : e ∈ r.insert user status) :
    e = (user, status) ∨ e ∈ r := by
  induction r with
  | nil => exact .inl (List.mem_singleton.1 h)
  | cons d rest ih =>
    unfold insert at h
    split at h
    · exact List.mem_cons.1 h
    · split at h
      · exact (List.mem_cons.1 h).imp_right (List.mem_cons_of_mem d)
      · rcases List.mem_cons.1 h with rfl | h
        · exact .inr List.mem_cons_self
        · exact (ih h).imp_right (List.mem_cons_of_mem d)

theorem Ordered.insert (h : r.Ordered) (user : UserId) (status : Delivery) :
    (r.insert user status).Ordered := by
  induction r with
  | nil => exact List.pairwise_singleton _ _
  | cons d rest ih =>
    obtain ⟨hfirst, hrest⟩ := List.pairwise_cons.1 h
    unfold Recipients.insert
    split
    next hlt =>
      refine List.pairwise_cons.2 ⟨List.forall_mem_cons.2 ⟨hlt, fun e he => ?_⟩, h⟩
      exact Int.lt_trans hlt (hfirst e he)
    next hle =>
      split
      next heq => exact List.pairwise_cons.2 ⟨fun e he => heq ▸ hfirst e he, hrest⟩
      next hne =>
        refine List.pairwise_cons.2 ⟨fun e he => ?_, ih hrest⟩
        rcases mem_insert he with rfl | he
        · change d.1 < user
          lia
        · exact hfirst e he

theorem Ordered.extend (h : r.Ordered) (more : List (UserId × Delivery)) :
    (r.extend more).Ordered := by
  induction more generalizing r with
  | nil => exact h
  | cons e more ih => exact ih (h.insert e.1 e.2)

theorem Ordered.mem_iff (h : r.Ordered) : (user, status) ∈ r ↔ List.lookup user r = some status := by
  induction r with
  | nil => exact ⟨nofun, nofun⟩
  | cons e rest ih =>
    obtain ⟨u, t⟩ := e
    obtain ⟨hfirst, hrest⟩ := List.pairwise_cons.1 h
    rw [lookup_cons, List.mem_cons, Prod.mk.injEq, ih hrest]
    split
    next heq =>
      have hnone : List.lookup user rest ≠ some status := fun hlater =>
        Int.lt_irrefl u (heq ▸ hfirst _ ((ih hrest).2 hlater))
      rw [or_iff_left hnone, and_iff_right heq, Option.some.injEq, eq_comm]
    next hne => exact or_iff_right fun hsame => hne hsame.1

theorem lookup_eq {l : List (UserId × Delivery)} {found : Option Delivery}
    (h : ∀ t, (user, t) ∈ l ↔ found = some t) : List.lookup user l = found := by
  cases hlookup : List.lookup user l with
  | none =>
    cases found with
    | none => rfl
    | some t =>
      have hlisted := List.lookup_eq_none_iff.1 hlookup _ ((h t).2 rfl)
      exact absurd rfl (bne_iff_ne.1 hlisted)
  | some t =>
    obtain ⟨before, after, rfl, -⟩ := List.lookup_eq_some_iff.1 hlookup
    exact ((h t).1 (List.mem_append_right _ List.mem_cons_self)).symm

theorem lookup_extend {more : List (UserId × Delivery)} {found : Option Delivery}
    (h : ∀ t, (user, t) ∈ more ↔ found = some t) (r : Recipients) :
    List.lookup user (r.extend more) = found.or (List.lookup user r) := by
  have hlast (more : List (UserId × Delivery)) (r : Recipients) :
      List.lookup user (r.extend more) =
        (List.lookup user more.reverse).or (List.lookup user r) := by
    induction more generalizing r with
    | nil => rfl
    | cons e more ih =>
      refine (ih (r.insert e.1 e.2)).trans ?_
      rw [List.reverse_cons, List.lookup_append, Option.or_assoc, lookup_insert, lookup_cons]
      split <;> rfl
  rw [hlast, lookup_eq fun t => List.mem_reverse.trans (h t)]

end Recipients

end Section

namespace Store

variable {s : Store} {user : UserId} {key : SectionKey} {comment : Option CommentId}

theorem mem_choicesFor {status : Delivery} : (user, status) ∈ s.choicesFor key comment ↔
    ⟨user, key, choiceTarget comment, status⟩ ∈ s.choices := by
  rw [choicesFor, List.mem_mergeSort, List.mem_map]
  simp only [List.mem_filter, Bool.and_eq_true, beq_iff_eq, Prod.mk.injEq]
  constructor
  · rintro ⟨t, ⟨ht, rfl, hcomment⟩, rfl, rfl⟩
    rw [← hcomment]
    exact ht
  · intro ht
    exact ⟨_, ⟨ht, rfl, rfl⟩, rfl, rfl⟩

theorem Decided.mem_choicesFor (h : s.Decided) {status : Delivery} :
    (user, status) ∈ s.choicesFor key comment ↔ s.choice? user key comment = some status :=
  Store.mem_choicesFor.trans h.choice?_eq_some.symm

/-- The user has chosen something for the section or for the comment. -/
def HasChosen (s : Store) (user : UserId) (key : SectionKey) (comment : Option CommentId) : Prop :=
  ∃ t ∈ s.choices, t.user = user ∧ t.key = key ∧ (t.comment = 0 ∨ some t.comment = comment)

/-- The choice that counts: the one for the comment, or else the one for the section. -/
def chosen? (s : Store) (user : UserId) (key : SectionKey) (comment : Option CommentId) :
    Option Delivery :=
  (comment.bind fun id => s.choice? user key (some id)).or (s.choice? user key none)

theorem choice?_isSome : (s.choice? user key comment).isSome ↔
    ∃ t ∈ s.choices, t.user = user ∧ t.key = key ∧ t.comment = choiceTarget comment := by
  rw [choice?, Option.isSome_map, List.find?_isSome]
  simp only [isChoice_iff]

theorem chosen?_isSome : (s.chosen? user key comment).isSome ↔ s.HasChosen user key comment := by
  rw [chosen?, Option.isSome_or, Bool.or_eq_true, choice?_isSome, HasChosen]
  cases comment with
  | none =>
    simp only [Option.bind_none, Option.isSome_none, Bool.false_eq_true, false_or, reduceCtorEq,
      or_false]
    rfl
  | some id =>
    rw [Option.bind_some, choice?_isSome]
    simp only [choiceTarget, Option.getD_some, Option.getD_none, Option.some.injEq]
    grind

end Store

namespace Section

variable {s : Store} (sec : Section)

theorem statusIn_eq (user : UserId) (comment : Option CommentId) :
    sec.statusIn s user comment = (s.chosen? user sec.key comment).getD (sec.usualStatus user) :=
  rfl

/-- What is known of those who may be sent messages, before those who want none are left out. -/
def listeners (s : Store) (auto : List UserId) (comment : Option CommentId) : Recipients :=
  let all := Recipients.extend [] (auto.map fun user => (user, sec.usualStatus user))
  let all := Recipients.extend all (s.choicesFor sec.key none)
  match comment with
  | none => all
  | some id => Recipients.extend all (s.choicesFor sec.key (some id))

theorem listeners_ordered (auto : List UserId) (comment : Option CommentId) :
    (sec.listeners s auto comment).Ordered := by
  have hempty : Recipients.Ordered [] := List.Pairwise.nil
  cases comment with
  | none => exact (hempty.extend _).extend _
  | some id => exact ((hempty.extend _).extend _).extend _

theorem lookup_listeners (h : s.Decided) (auto : List UserId) (comment : Option CommentId)
    (user : UserId) : List.lookup user (sec.listeners s auto comment) =
      (s.chosen? user sec.key comment).or
        (if user ∈ auto then some (sec.usualStatus user) else none) := by
  have hauto (t : Delivery) : (user, t) ∈ auto.map (fun user => (user, sec.usualStatus user)) ↔
      (if user ∈ auto then some (sec.usualStatus user) else none) = some t := by
    simp only [List.mem_map, Prod.mk.injEq]
    grind
  have hsection : List.lookup user (sec.listeners s auto none) =
      (s.choice? user sec.key none).or
        (if user ∈ auto then some (sec.usualStatus user) else none) := by
    refine (Recipients.lookup_extend (fun _ => h.mem_choicesFor) _).trans ?_
    rw [Recipients.lookup_extend hauto]
    exact congrArg _ (Option.or_none ..)
  cases comment with
  | none => exact hsection
  | some id =>
    refine (Recipients.lookup_extend (fun _ => h.mem_choicesFor) _).trans ?_
    refine (congrArg _ hsection).trans ?_
    exact (Option.or_assoc ..).symm

theorem recipients_reads (comment : Option Comment) :
    (sec.recipients comment).Reads fun _ => True := by
  apply Action.Reads.bind (Action.Reads.host _ _)
  intro auto _
  apply Action.Reads.bind (Action.Reads.store rfl)
  intro chosen _
  dsimp only
  split
  · exact Action.Reads.pure trivial
  · apply Action.Reads.bind (Action.Reads.store rfl)
    intro _ _
    exact Action.Reads.pure trivial

theorem look_recipients {auto : List UserId} (hauto : sec.handler.autoSubscribers sec.key = .ok auto)
    (comment : Option Comment) : (sec.recipients comment).look s =
      .ok ((sec.listeners s auto (comment.bind (·.id))).filter (·.2.notifies)) := by
  have hasked : (Action.host sec.handler (.autoSubscribers sec.key)).look s = .ok auto := by
    rw [Action.look_host, Handler.answer, hauto]
    rfl
  refine (Action.look_bind_of hasked).trans ?_
  dsimp only
  cases comment.bind (·.id) <;> rfl

/-- The users who are sent messages are those whose status asks for them, among those whom the
component tells of everything and those who have made a choice. Each is listed once, with the
status. -/
theorem recipients_agree {allowed : Forum → Operation → Prop} {w : World} (hw : Reached allowed w)
    {auto : List UserId} (hauto : sec.handler.autoSubscribers sec.key = .ok auto)
    (comment : Option Comment) :
    ∃ told : Recipients, (sec.recipients comment).Answers w told ∧ told.Ordered ∧
      ∀ user, ∃ status, (sec.status user comment).Answers w status ∧
        ∀ t, (user, t) ∈ told ↔ t = status ∧ status.notifies ∧
          (user ∈ auto ∨ w.store.HasChosen user sec.key (comment.bind (·.id))) := by
  have h := Store.decided_of_reached hw
  have hordered := sec.listeners_ordered (s := w.store) auto (comment.bind (·.id))
  refine ⟨_, (sec.recipients_reads comment).answers (sec.look_recipients hauto comment),
    hordered.sublist List.filter_sublist, fun user => ⟨_,
      (sec.status_reads user comment).answers (sec.look_status user comment), fun t => ?_⟩⟩
  have hsame {a : Delivery} : a = t ∧ t.notifies ↔ t = a ∧ a.notifies := by
    rw [eq_comm]
    exact and_congr_right fun heq => by rw [heq]
  rw [List.mem_filter, hordered.mem_iff, sec.lookup_listeners h, statusIn_eq,
    ← Store.chosen?_isSome]
  cases w.store.chosen? user sec.key (comment.bind (·.id)) with
  | some status =>
    simp only [Option.some_or, Option.some.injEq, Option.getD_some, Option.isSome_some, or_true,
      and_true]
    exact hsame
  | none =>
    simp only [Option.none_or, Option.getD_none, Option.isSome_none, Bool.false_eq_true, or_false]
    by_cases hlisted : user ∈ auto
    · rw [if_pos hlisted, Option.some.injEq, and_iff_left hlisted]
      exact hsame
    · rw [if_neg hlisted]
      exact ⟨fun ⟨heq, _⟩ => (nomatch heq), fun ⟨_, _, hmem⟩ => (hlisted hmem).elim⟩

/-- The wiki component, where it tells some users of every page. -/
def newsletter : Handler where
  item := Handler.wiki.item
  usualStatus _ user := if user = 9 then .default else .dailyDigest
  autoSubscribers _ := pure [9, 8, 4, 8]

/-- A comment counts more than its section, in both directions. -/
def listened : World :=
  let talk : SectionKey := ⟨"wiki", "talk", 1, 1⟩
  Forum.twoThreads.afterAll (.wiki newsletter) [
    .choose (some 4) ⟨talk, none, "off"⟩,
    .choose (some 5) ⟨talk, none, "off"⟩,
    .choose (some 5) ⟨talk, some 3, "immediate"⟩,
    .choose (some 6) ⟨talk, some 3, "off"⟩,
    .choose (some 6) ⟨talk, none, "immediate"⟩]

theorem recipients_agree_listened :
    let sec : Section := ⟨⟨"wiki", "talk", 1, {}, newsletter⟩, ⟨"wiki", "talk", 1, 1⟩,
      .plain "Page" "/page"⟩
    let comment := (listened.store.comment? 3).map Comment.ofStored
    let told : Recipients := [(5, .immediate), (8, .dailyDigest)]
    Reached (fun _ _ => True) listened ∧
      sec.handler.autoSubscribers sec.key = .ok [9, 8, 4, 8] ∧
      (sec.recipients comment).Answers listened told ∧
      ∀ user, ∃ status, (sec.status user comment).Answers listened status ∧
        ∀ t, (user, t) ∈ told ↔ t = status ∧ status.notifies ∧
          (user ∈ [9, 8, 4, 8] ∨ listened.store.HasChosen user sec.key (some 3)) := by
  intro sec comment told
  have hw : Reached (fun _ _ => True) listened :=
    Forum.reached_twoThreads.afterAll fun _ _ => trivial
  have hauto : sec.handler.autoSubscribers sec.key = .ok [9, 8, 4, 8] := rfl
  have hsection : listened.store.choicesFor sec.key none =
      [(4, .off), (5, .off), (6, .immediate)] := List.mergeSort_of_pairwise (by decide)
  have hcomment : listened.store.choicesFor sec.key (some 3) =
      [(5, .immediate), (6, .off)] := List.mergeSort_of_pairwise (by decide)
  have hid : comment.bind (·.id) = some 3 := rfl
  have htold : (sec.recipients comment).Answers listened told := by
    refine (sec.recipients_reads comment).answers ((sec.look_recipients hauto comment).trans ?_)
    rw [hid, listeners, hsection, hcomment]
    rfl
  obtain ⟨found, hfound, -, hagree⟩ := sec.recipients_agree hw hauto comment
  obtain rfl := hfound.unique htold
  exact ⟨hw, hauto, htold, hagree⟩

end Section

end Discussion
