import Discussion.Proofs.Forest
import Discussion.Proofs.Interleaving
import Mathlib.Data.List.DropRight

namespace Discussion

namespace Text

theorem trimChars_trimChars (cs : List Char) : trimChars (trimChars cs) = trimChars cs := by
  have hright (l : List Char) : (l.reverse.dropWhile isBlank).reverse = l.rdropWhile isBlank := rfl
  have hleft : (trimChars cs).dropWhile isBlank = trimChars cs := by
    rw [List.dropWhile_eq_self_iff]
    intro hl hblank
    -- What is left is a prefix of the text without blanks in front.
    have hprefix : trimChars cs <+: cs.dropWhile isBlank := List.rdropWhile_prefix isBlank _
    have hfront := List.dropWhile_eq_self_iff.1 (List.dropWhile_idempotent isBlank (l := cs))
      (Nat.lt_of_lt_of_le hl hprefix.length_le)
    rw [← hprefix.getElem hl] at hfront
    exact hfront hblank
  rw [trimChars, hleft, hright]
  exact List.rdropWhile_idempotent isBlank _

theorem trim_trim (s : String) : trim (trim s) = trim s := by
  rw [trim, trim, String.toList_ofList, trimChars_trimChars]

theorem all_of_trimChars_eq_nil {cs : List Char} (h : trimChars cs = []) : cs.all isBlank := by
  rw [trimChars, List.reverse_eq_nil_iff, List.dropWhile_eq_nil_iff] at h
  rw [List.all_eq_true]
  intro c hc
  rw [← List.takeWhile_append_dropWhile (p := isBlank) (l := cs), List.mem_append] at hc
  rcases hc with hfront | hrest
  · exact List.mem_takeWhile_imp hfront
  · exact h c (List.mem_reverse.2 hrest)

end Text

theorem normalPseudonym_of_eq_some {pseudonym : Option String} {q : String}
    (h : normalPseudonym pseudonym = some q) : normalPseudonym (some q) = some q := by
  obtain ⟨hq, hne⟩ := Option.filter_eq_some_iff.1 h
  obtain ⟨p, -, rfl⟩ := Option.map_eq_some_iff.1 hq
  rw [normalPseudonym, Option.map_some, Text.trim_trim]
  exact Option.filter_some_pos hne

theorem normalPseudonym_normalPseudonym (pseudonym : Option String) :
    normalPseudonym (normalPseudonym pseudonym) = normalPseudonym pseudonym := by
  cases h : normalPseudonym pseudonym with
  | none => rfl
  | some q => exact normalPseudonym_of_eq_some h

theorem not_isBlankText_of_normalPseudonym {p q : String}
    (h : normalPseudonym (some p) = some q) : Text.isBlankText p = false := by
  rw [Bool.eq_false_iff]
  intro hblank
  have hempty : Text.trim p = "" := by
    rw [Text.trim, Text.trimChars_eq_nil_of_all hblank, String.ofList_nil]
  rw [normalPseudonym, Option.map_some, hempty] at h
  cases h

theorem isBlankText_of_normalPseudonym {p : String} (h : normalPseudonym (some p) = none) :
    Text.isBlankText p := by
  rw [normalPseudonym, Option.map_some, Option.filter_eq_none_iff] at h
  have hempty : Text.trim p = "" := by
    by_contra hne
    exact h _ rfl (bne_iff_ne.2 hne)
  rw [Text.trim, String.ofList_eq_empty_iff] at hempty
  exact Text.all_of_trimChars_eq_nil hempty

theorem Signature.ofPseudonym_normalPseudonym (p : String) :
    Signature.ofPseudonym (normalPseudonym (some p)) =
      if Text.isBlankText p then .realName else .pseudonym := by
  rw [ofPseudonym, Discussion.normalPseudonym_normalPseudonym]
  cases h : normalPseudonym (some p) with
  | none => rw [isBlankText_of_normalPseudonym h]; rfl
  | some q => rw [not_isBlankText_of_normalPseudonym h]; rfl

theorem Comment.withPseudonym_cases {c d : Comment} {p : String} (h : c.withPseudonym p = .ok d) :
    (∃ q, normalPseudonym (some p) = some q ∧ d = { c with pseudonym := some q }) ∨
      c.pseudonym = none ∧ d = c := by
  unfold withPseudonym at h
  split at h
  next q hq => exact .inl ⟨q, hq, (Except.ok.inj h).symm⟩
  · split at h
    · cases h
    next hnone =>
      rw [isPseudonymous, Option.not_isSome_iff_eq_none] at hnone
      exact .inr ⟨hnone, (Except.ok.inj h).symm⟩

/-- Where no pseudonym is given there is none afterwards: one that is there cannot be given up. -/
theorem Comment.pseudonym_withPseudonym {c d : Comment} {p : String}
    (h : c.withPseudonym p = .ok d) : d.pseudonym = normalPseudonym (some p) := by
  unfold withPseudonym at h
  split at h
  next q hq =>
    obtain rfl := Except.ok.inj h
    exact hq.symm
  next hblank =>
    split at h
    · cases h
    next hnone =>
      obtain rfl := Except.ok.inj h
      rw [hblank]
      exact Option.not_isSome_iff_eq_none.1 hnone

/-- The component leaves a comment as it is before it is saved. -/
def Handler.SavesAsIs (h : Handler) : Prop :=
  h.beforeSave = fun _ comment _ => comment

theorem Handler.SavesAsIs.keepsId {h : Handler} (hh : h.SavesAsIs) : h.KeepsId := by
  intro key comment cap
  rw [hh]

/-- The component keeps the usual capability and leaves comments as they are. -/
structure Handler.IsPlain (h : Handler) : Prop where
  capability : h.capability = fun _ c => c.toCapability
  asIs : h.SavesAsIs

theorem Prepared.check_asIs {sec : Section} {cap : Capability} {comment : Comment}
    {id : Option CommentId} {p : Prepared} (h : check sec cap comment id = .ok p)
    (hsec : sec.handler.SavesAsIs) : ∃ fields, comment.customData.toFields = .ok fields ∧
      sec.validate comment cap = ([], { comment with customData := .fields fields }) ∧
      p.comment = { comment with customData := .fields fields } := by
  obtain ⟨fields, hread, hvalid, rfl⟩ := check_inv h
  refine ⟨fields, hread, hvalid, ?_⟩
  rw [Section.beforeSave, hsec]

theorem Forum.Edits.pseudonym_cases {f : Forum} {user : UserId} {req : EditRequest}
    {x : StoredComment} {p : Prepared} (h : f.Edits user req x p)
    (hsec : p.sec.handler.SavesAsIs) :
    (∃ q, normalPseudonym (some req.pseudonym) = some q ∧ p.comment.pseudonym = some q) ∨
      normalPseudonym x.pseudonym = none ∧ p.comment.pseudonym = none := by
  obtain ⟨edited, hset, hchecked⟩ := h.checked
  obtain ⟨fields, -, -, hp⟩ := Prepared.check_asIs hchecked hsec
  rw [hp]
  rcases Comment.withPseudonym_cases hset with ⟨q, hq, rfl⟩ | ⟨hnone, rfl⟩
  · exact .inl ⟨q, hq, rfl⟩
  · exact .inr ⟨hnone, hnone⟩

/-- The comment has a pseudonym that is not blank. -/
def StoredComment.hasPseudonym (c : StoredComment) : Bool :=
  (normalPseudonym c.pseudonym).isSome

/-- The comment that the operation is about to save again. -/
def Process.revised? (p : Process) : Option StoredComment :=
  match p.rest with
  | .call (.store (.revise r)) _ => some r
  | _ => none

/-- The operation was given a copy of the comment from before it had a pseudonym, and it is about to
save the comment without one. -/
def Process.clears (id : CommentId) (p : Process) : Bool :=
  (p.revised?.any fun r => r.id == id && !r.hasPseudonym) &&
    p.heard.any fun x => x.id == id && !x.hasPseudonym

theorem Process.revised?_eq_some {p : Process} {r : StoredComment} :
    p.revised? = some r ↔ ∃ next, p.rest = .call (.store (.revise r)) next := by
  unfold revised?
  constructor
  · intro h
    split at h
    next r' next hrest =>
      obtain rfl := Option.some.inj h
      exact ⟨next, hrest⟩
    · cases h
  · rintro ⟨next, hrest⟩
    rw [hrest]

theorem Process.clears_iff {p : Process} {id : CommentId} : p.clears id ↔
    (∃ r next, p.rest = .call (.store (.revise r)) next ∧ r.id = id ∧ r.hasPseudonym = false) ∧
      ∃ x ∈ p.heard, x.id = id ∧ x.hasPseudonym = false := by
  simp only [clears, Bool.and_eq_true, Option.any_eq_true, List.any_eq_true, beq_iff_eq,
    Bool.not_eq_true', revised?_eq_some, ← exists_and_right]

namespace Policy

/-- Where the copy of a comment has a pseudonym, so has what is saved. -/
def keepsPseudonyms : Policy where
  trusts _ := True
  adds _ := True
  revises x r := x.hasPseudonym → r.hasPseudonym
  votes _ _ := True
  chooses _ := True

theorem keepsPseudonyms_admits {f : Forum} (hf : ∀ d ∈ f.areas, d.handler.SavesAsIs)
    (op : Operation) : keepsPseudonyms.Admits f op where
  adds := fun _ _ _ => trivial
  revises := by
    intro user req x p _ _ hp hx
    rcases hp.pseudonym_cases (hp.serves.handler hf) with ⟨q, hq, hset⟩ | ⟨hnone, -⟩
    · have hrow : p.comment.packed.toStored.pseudonym = some q := hset
      rw [StoredComment.hasPseudonym, hrow, normalPseudonym_of_eq_some hq]
      rfl
    · rw [StoredComment.hasPseudonym, hnone] at hx
      cases hx
  votes := fun _ _ _ _ => trivial
  chooses := fun _ _ => trivial

end Policy

/-- No comment but one with a pseudonym has the number, now or later. -/
structure Store.Pseudonymous (id : CommentId) (s : Store) : Prop where
  issued : id ≤ s.lastId
  shown : ∀ c ∈ s.comments, c.id = id → c.hasPseudonym

theorem Store.Pseudonymous.answer {s : Store} {id : CommentId} (h : s.Pseudonymous id)
    {c : StoreCall} (hc : ∀ r, c = .revise r → r.id = id → r.hasPseudonym) :
    (s.answer c).2.Pseudonymous id where
  issued := by
    have := s.lastId_answer c
    have := h.issued
    lia
  shown := by
    intro x hx hid
    have hissued := h.issued
    rcases mem_entries_answer (mem_entries hx) with hkept | hwritten
    · obtain ⟨y, hy, hxy⟩ := List.mem_map.1 hkept
      have hyid : y.id = x.id := congrArg (fun e : Entry => e.identity.id) hxy
      have hpseudonym : y.pseudonym = x.pseudonym :=
        congrArg (fun e : Entry => e.wording.pseudonym) hxy
      rw [StoredComment.hasPseudonym, ← hpseudonym]
      exact h.shown y hy (hyid.trans hid)
    · generalize hentry : x.entry = e at hwritten
      cases hwritten with
      | add r =>
        have hnew : x.id = s.lastId + 1 := congrArg (fun e : Entry => e.identity.id) hentry
        lia
      | @revise r old hold hrow =>
        have hold' : x.id = old.identity.id := congrArg (fun e : Entry => e.identity.id) hentry
        have hpseudonym : x.pseudonym = r.pseudonym :=
          congrArg (fun e : Entry => e.wording.pseudonym) hentry
        rw [StoredComment.hasPseudonym, hpseudonym]
        exact hc r rfl (by rw [← hrow, ← hold', hid])

theorem Policy.keepsPseudonyms_guards (id : CommentId) :
    keepsPseudonyms.Guards (fun p => !p.clears id) (Store.Pseudonymous id) where
  trusts := fun _ _ => trivial
  answer := by
    intro s p c next h _ hp hcarried hrest
    apply h.answer
    rintro r rfl hid
    by_contra hcleared
    rw [Bool.not_eq_true] at hcleared
    obtain ⟨x, hx, hxid, hkept⟩ := hp.allows hrest
    have hblank : x.hasPseudonym = false := by
      rw [Bool.eq_false_iff]
      intro hshown
      rw [hkept hshown] at hcleared
      cases hcleared
    have hclears := Process.clears_iff.2
      ⟨⟨r, next, hrest, hid, hcleared⟩, x, hx, hxid.trans hid, hblank⟩
    rw [hclears] at hcarried
    cases hcarried

/-- The wiki, where pseudonyms are allowed. -/
def Forum.masquerade : Forum where
  site := (Forum.wiki .wiki).site
  areas := [⟨"wiki", "talk", { allowPseudonym := true }, .wiki⟩]

/-- Edits the first comment once for each pseudonym, all in one batch. -/
def Operation.signAs (pseudonyms : List String) : Operation :=
  .edit (some 4) (pseudonyms.map fun pseudonym =>
    { id := 1, key := ⟨"wiki", "talk", 1, 1⟩, content := "Text", pseudonym })

namespace Traffic

variable {allowed : Forum → Operation → Prop} {w : World} {t : Traffic} {id : CommentId}

/-- The comment has a pseudonym, and so have the copies that operations under way were given. -/
structure Settled (id : CommentId) (t : Traffic) : Prop where
  pseudonymous : t.world.store.Pseudonymous id
  heard : ∀ p ∈ t.processes, p.isOver = false → ∀ x ∈ p.heard, x.id = id → x.hasPseudonym

theorem Settled.clears (h : t.Settled id) {p : Process} (hp : p ∈ t.processes) :
    p.clears id = false := by
  rw [Bool.eq_false_iff, ne_eq, Process.clears_iff]
  rintro ⟨⟨r, next, hrest, -⟩, x, hx, hid, hblank⟩
  have hunder : p.isOver = false := by rw [Process.isOver, hrest]
  rw [h.heard p hp hunder x hx hid] at hblank
  cases hblank

theorem Step.settled {u : Traffic} (h : Step allowed (fun _ => True) t u) (ht : t.Settled id) :
    Step allowed (fun p => !p.clears id) t u ∧
      ∀ p ∈ u.processes, p.isOver = false → ∀ x ∈ p.heard, x.id = id → x.hasPseudonym := by
  have hheard := ht.heard
  cases h with
  | start w ps f op hop =>
    have hstart : ∀ x ∈ (Process.start f op).heard, x.id = id → x.hasPseudonym :=
      fun _ hx => nomatch hx
    refine ⟨.start w ps f op hop, List.forall_mem_append.2 ⟨hheard, ?_⟩⟩
    exact List.forall_mem_singleton.2 fun _ => hstart
  | proceed w ps p qs =>
    have hp : p ∈ ps ++ p :: qs := List.mem_append_cons_self
    refine ⟨.proceed w ps p qs (by rw [ht.clears hp]; rfl),
      forall_mem_changed hheard ?_ fun _ hq => hq⟩
    intro hunder x hx hid
    rcases Process.mem_heard_proceed hx with hx | hx
    · exact hheard p hp (Process.isOver_of_proceed hunder) x hx hid
    · exact ht.pseudonymous.shown x hx hid
  | refuse w ps p qs failure =>
    refine ⟨.refuse w ps p qs failure, forall_mem_changed hheard ?_ fun _ hq => hq⟩
    rw [Process.heard_refuse]
    exact fun hunder => hheard p List.mem_append_cons_self (Process.isOver_of_refuse hunder)

theorem Runs.settled
    (hops : ∀ f op, allowed f op → (op.action f).Obeys .keepsPseudonyms [] fun _ _ => True)
    {u : Traffic} (h : Runs allowed (fun _ => True) t u) (horderly : t.Orderly .keepsPseudonyms)
    (ht : t.Settled id) : u.Orderly .keepsPseudonyms ∧ u.Settled id := by
  induction h with
  | refl => exact ⟨horderly, ht⟩
  | tail _ hstep ih =>
    obtain ⟨hcarried, hheard⟩ := hstep.settled ih.2
    obtain ⟨horderly, hpseudonymous⟩ :=
      hcarried.orderly (Policy.keepsPseudonyms_guards id) hops ih.1 ih.2.pseudonymous
    exact ⟨horderly, hpseudonymous, hheard⟩

/-- A pseudonym that a comment has got stays, or another takes its place, as long as no operation
saves the comment that has read it before. That is so for good once no such operation is under way.
One that saves the comment and gives no pseudonym takes it away. -/
theorem pseudonym_kept (hallowed : ∀ f op, allowed f op → ∀ d ∈ f.areas, d.handler.SavesAsIs)
    (hw : w.store.Numbered) (ht : Runs allowed (fun _ => True) ⟨w, []⟩ t)
    (hset : ∃ c ∈ t.world.store.comments, c.id = id ∧ c.hasPseudonym) :
    (∀ u, Runs allowed (fun p => !p.clears id) t u →
        ∀ c ∈ u.world.store.comments, c.id = id → c.hasPseudonym) ∧
      ((∀ p ∈ t.processes, p.isOver = false → ∀ x ∈ p.heard, x.id = id → x.hasPseudonym) →
        ∀ u, Runs allowed (fun _ => True) t u →
          ∀ c ∈ u.world.store.comments, c.id = id → c.hasPseudonym) ∧
      ∀ (p : Process) (v : World), p.clears id →
        ∀ c ∈ (p.proceed v).2.store.comments, c.id = id → ¬c.hasPseudonym := by
  have hops : ∀ f op, allowed f op →
      (op.action f).Obeys .keepsPseudonyms [] fun _ _ => True := by
    intro f op hop
    have hf := hallowed f op hop
    exact Forum.operation_obeys (fun d hd => (hf d hd).keepsId)
      (Policy.keepsPseudonyms_admits hf op)
  have hany : Policy.keepsPseudonyms.Guards (fun _ => True) fun _ => True :=
    ⟨fun _ _ => trivial, fun _ _ _ _ _ => trivial⟩
  have horderly := (ht.orderly hany hops (orderly_start hw) trivial).1
  have hcomment : t.world.store.Pseudonymous id := by
    obtain ⟨c, hc, rfl, hshown⟩ := hset
    refine ⟨(horderly.numbered.issued _ (Store.mem_identities hc)).2, fun d hd hid => ?_⟩
    rw [horderly.numbered.eq_of_id hd hc hid]
    exact hshown
  refine ⟨fun u hu => ?_, fun hheard u hu => ?_, ?_⟩
  · exact (hu.orderly (Policy.keepsPseudonyms_guards id) hops horderly hcomment).2.shown
  · exact (hu.settled hops horderly ⟨hcomment, hheard⟩).2.pseudonymous.shown
  · rintro ⟨heard, rest⟩ v hclears c hc hid
    obtain ⟨⟨r, next, hrest, rfl, hblank⟩, -⟩ := Process.clears_iff.1 hclears
    obtain rfl : rest = _ := hrest
    obtain ⟨old, hold, rfl⟩ := List.mem_map.1 hc
    split at hid
    next heq =>
      rw [if_pos heq]
      exact Bool.eq_false_iff.1 hblank
    next hne => exact (hne hid).elim

def Plain (f : Forum) (_ : Operation) : Prop :=
  ∀ d ∈ f.areas, d.handler.IsPlain

theorem plain_masquerade (op : Operation) : Plain .masquerade op := by
  intro d hd
  rw [List.mem_singleton.1 hd]
  exact ⟨rfl, rfl⟩

def signed : World := World.after {} .masquerade (.postToWiki 4 [none])

theorem reached_signed : Reached Plain signed := Reached.start.after (plain_masquerade _)

theorem pseudonym_kept_signAs :
    let owl := (Process.start .masquerade (.signAs ["Owl"])).proceeds signed 9
    let lark := (Process.start .masquerade (.signAs ["Lark"])).proceeds owl.2 9
    let cleared := (Process.start .masquerade (.signAs ["Owl", ""])).proceeds signed 10
    (∃ c ∈ owl.2.store.comments, c.id = 1 ∧ c.hasPseudonym) ∧
      Runs Plain (fun p => !p.clears 1) ⟨owl.2, [owl.1]⟩ ⟨lark.2, [owl.1, lark.1]⟩ ∧
      (∀ c ∈ lark.2.store.comments, c.id = 1 → c.hasPseudonym) ∧
      (lark.2.store.comment? 1).map (·.pseudonym) = some (some "Lark") ∧
      (∀ u, Runs Plain (fun _ => True) ⟨owl.2, [owl.1]⟩ u →
        ∀ c ∈ u.world.store.comments, c.id = 1 → c.hasPseudonym) ∧
      ∀ c ∈ (cleared.1.proceed cleared.2).2.store.comments, c.id = 1 → ¬c.hasPseudonym := by
  intro owl lark cleared
  have hnumbered : signed.store.Numbered := (Store.forest_of_reached reached_signed).toNumbered
  have hruns : Runs Plain (fun _ => True) ⟨signed, []⟩ ⟨owl.2, [owl.1]⟩ :=
    (Relation.ReflTransGen.single (.start signed [] _ _ (plain_masquerade _))).trans
      (runs_proceeds [] fun _ _ => trivial)
  have hset : ∃ c ∈ owl.2.store.comments, c.id = 1 ∧ c.hasPseudonym := by
    decide
  have hspared : ∀ k < 9,
      !((Process.start .masquerade (.signAs ["Lark"])).proceeds owl.2 k).1.clears 1 := by
    decide
  have hbegun : Traffic.Step Plain (fun p => !p.clears 1) ⟨owl.2, [owl.1]⟩
      ⟨owl.2, [owl.1] ++ [.start .masquerade (.signAs ["Lark"])]⟩ :=
    .start owl.2 [owl.1] _ _ (plain_masquerade _)
  have hlater : Runs Plain (fun p => !p.clears 1) ⟨owl.2, [owl.1]⟩ ⟨lark.2, [owl.1, lark.1]⟩ :=
    .head hbegun (runs_proceeds [owl.1] hspared)
  have hkept := pseudonym_kept (fun f op hop d hd => (hop d hd).asIs) hnumbered hruns hset
  have hshown : ∀ c ∈ lark.2.store.comments, c.id = 1 → c.hasPseudonym := hkept.1 _ hlater
  have hover : ∀ p ∈ [owl.1], p.isOver = false →
      ∀ x ∈ p.heard, x.id = 1 → x.hasPseudonym := by
    decide
  have hclears : cleared.1.clears 1 := by
    decide
  exact ⟨hset, hlater, hshown, rfl, hkept.2.1 hover, hkept.2.2 cleared.1 cleared.2 hclears⟩

theorem pseudonym_lost_signAs :
    let owl := (Process.start .masquerade (.signAs ["Owl", ""])).proceeds signed 6
    let gone := owl.1.proceeds owl.2 5
    Reached Plain signed ∧ Runs Plain (fun _ => True) ⟨signed, []⟩ ⟨owl.2, [owl.1]⟩ ∧
      (owl.2.store.comment? 1).map (·.pseudonym) = some (some "Owl") ∧
      Runs Plain (fun _ => True) ⟨owl.2, [owl.1]⟩ ⟨gone.2, [gone.1]⟩ ∧
      (gone.2.store.comment? 1).map (·.pseudonym) = some none := by
  intro owl gone
  have hbegun : Traffic.Step Plain (fun _ => True) ⟨signed, []⟩
      ⟨signed, [] ++ [.start .masquerade (.signAs ["Owl", ""])]⟩ :=
    .start signed [] _ _ (plain_masquerade _)
  have hset : Runs Plain (fun _ => True) ⟨signed, []⟩ ⟨owl.2, [owl.1]⟩ :=
    .head hbegun (runs_proceeds [] fun _ _ => trivial)
  have hlost : Runs Plain (fun _ => True) ⟨owl.2, [owl.1]⟩ ⟨gone.2, [gone.1]⟩ :=
    runs_proceeds [] fun _ _ => trivial
  exact ⟨reached_signed, hset, rfl, hlost, rfl⟩

end Traffic

end Discussion
