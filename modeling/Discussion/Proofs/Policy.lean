import Discussion.Proofs.Operation

namespace Discussion

/-- The stored comments that an answer gives a copy of. -/
def StoreCall.told : (c : StoreCall) → c.Answer → List StoredComment
  | .comment _, found => found.toList
  | .commentsByIds _, rows => rows
  | .select .., rows => rows
  | _, _ => []

def Call.told : (c : Call) → Except String c.Answer → List StoredComment
  | .store call, .ok answer => call.told answer
  | _, _ => []

theorem StoreCall.mem_told {s : Store} {c : StoreCall} {x : StoredComment}
    (h : x ∈ c.told (s.answer c).1) : x ∈ s.comments := by
  cases c with
  | comment id => exact List.mem_of_find?_eq_some (Option.mem_toList.1 h)
  | commentsByIds ids => exact List.mem_of_mem_filter h
  | select f sort page =>
    have hsorted {rows : List StoredComment} : x ∈ Store.sorted rows sort ↔ x ∈ rows := by
      cases sort <;> exact List.mem_mergeSort
    cases page with
    | none => exact List.mem_of_mem_filter (hsorted.1 h)
    | some slice =>
      exact List.mem_of_mem_filter (hsorted.1 (List.mem_of_mem_drop (List.mem_of_mem_take h)))
  | _ => cases h

/-- What a program may write. It may trust the copies of comments that it is given. Of what it
stores again, votes for and gives a status, it must hold a copy. -/
structure Policy where
  trusts : StoredComment → Prop
  adds : StoredComment → Prop
  revises : StoredComment → StoredComment → Prop
  votes : StoredComment → UserId → Prop
  chooses : SectionKey → Prop

namespace Policy

/-- What may be asked for after copies of some comments were given. To ask questions and to remove
comments is free. -/
def Allows (policy : Policy) (heard : List StoredComment) : Call → Prop
  | .store (.add r) => policy.adds r
  | .store (.revise r) => ∃ x ∈ heard, x.id = r.id ∧ policy.revises x r
  | .store (.castVote id user _) => ∃ x ∈ heard, x.id = id ∧ policy.votes x user
  | .store (.choose _ key _ _) => policy.chooses key
  | _ => True

variable {policy : Policy} {heard more : List StoredComment} {c : Call}

theorem allows_question (h : c.isQuestion) : policy.Allows heard c := by
  cases c with
  | host handler question => trivial
  | store c =>
    cases c with
    | add | revise | castVote | choose => cases h
    | _ => trivial

end Policy

/-- Where every copy of a comment that it is given can be trusted, the program asks for nothing that
is not allowed, and it ends so that its result and all copies satisfy a condition. Calls may fail,
and their answers may be any. -/
def Program.Obeys {α : Type} (policy : Policy) :
    Program α → List StoredComment → (α → List StoredComment → Prop) → Prop
  | .done result, heard, Q => Q result heard
  | .tell _ next, heard, Q => next.Obeys policy heard Q
  | .call request next, heard, Q => policy.Allows heard request ∧
      ∀ answer, (∀ x ∈ request.told answer, policy.trusts x) →
        (next answer).Obeys policy (request.told answer ++ heard) Q

namespace Program.Obeys

variable {α β : Type} {policy : Policy} {p : Program α} {f : α → Program β}
variable {heard : List StoredComment} {Q R : α → List StoredComment → Prop}

theorem imp (h : p.Obeys policy heard Q) (hQ : ∀ a more, heard ⊆ more → Q a more → R a more) :
    p.Obeys policy heard R := by
  induction p generalizing heard with
  | done a => exact hQ a heard (List.Subset.refl heard) h
  | tell event next ih => exact ih h hQ
  | call c next ih =>
    refine ⟨h.1, fun answer htold => ih answer (h.2 answer htold) fun a more hmore => hQ a more ?_⟩
    exact List.Subset.trans (List.subset_append_right (c.told answer) heard) hmore

theorem bind {Q : β → List StoredComment → Prop}
    (h : p.Obeys policy heard fun a more => (f a).Obeys policy more Q) :
    (p >>= f).Obeys policy heard Q := by
  induction p generalizing heard with
  | done a => exact h
  | tell event next ih => exact ih h
  | call c next ih => exact ⟨h.1, fun answer htold => ih answer (h.2 answer htold)⟩

theorem of_reads {Q : α → Prop} (h : p.Reads Q) : p.Obeys policy heard fun a _ => Q a := by
  induction p generalizing heard with
  | done a => exact h
  | tell event next ih => exact h.elim
  | call c next ih =>
    exact ⟨Policy.allows_question h.1, fun answer _ => ih answer (h.2 answer)⟩

end Program.Obeys

/-- The action asks for nothing that is not allowed. Its result, unless it is an error, and all
copies satisfy a condition. -/
def Action.Obeys {α : Type} (policy : Policy) (m : Action α) (heard : List StoredComment)
    (Q : α → List StoredComment → Prop) : Prop :=
  m.run.Obeys policy heard fun r more => ∀ a, r = .ok a → Q a more

namespace Action.Obeys

variable {α β : Type} {policy : Policy} {m : Action α} {g : α → Action β}
variable {heard : List StoredComment} {Q : α → List StoredComment → Prop}
variable {R : β → List StoredComment → Prop}

theorem imp {R : α → List StoredComment → Prop} (h : m.Obeys policy heard Q)
    (hQ : ∀ a more, heard ⊆ more → Q a more → R a more) : m.Obeys policy heard R :=
  Program.Obeys.imp h fun _ more hmore hr a ha => hQ a more hmore (hr a ha)

theorem pure {a : α} (h : Q a heard) : Action.Obeys policy (Pure.pure a) heard Q := by
  rintro _ ⟨⟩
  exact h

theorem throw (e : Error) : Action.Obeys policy (MonadExcept.throw e : Action α) heard Q := nofun

theorem of_reads {Q : α → Prop} (h : m.Reads Q) : m.Obeys policy heard fun a _ => Q a :=
  Program.Obeys.of_reads h

theorem bind (hm : m.Obeys policy heard Q)
    (hg : ∀ a more, heard ⊆ more → Q a more → (g a).Obeys policy more R) :
    (m >>= g).Obeys policy heard R := by
  apply Program.Obeys.bind
  apply Program.Obeys.imp hm
  intro r more hmore hr
  cases r with
  | ok a => exact hg a more hmore (hr a rfl)
  | error e => exact nofun

theorem map {f : α → β} (hm : m.Obeys policy heard fun _ _ => True) :
    (f <$> m).Obeys policy heard fun _ _ => True :=
  bind hm fun _ _ _ _ => pure trivial

theorem store {c : StoreCall} (h : policy.Allows heard (.store c)) :
    (Action.store c).Obeys policy heard fun _ _ => True :=
  ⟨h, fun _ _ _ _ => trivial⟩

theorem comment (id : CommentId) : (Action.store (.comment id)).Obeys policy heard fun found more =>
    ∀ x ∈ found, x ∈ more ∧ policy.trusts x := by
  refine ⟨trivial, fun answer htold found hfound x hx => ?_⟩
  cases answer with
  | error failure => cases hfound
  | ok stored =>
    obtain rfl := Except.ok.inj hfound
    have hmem : x ∈ stored.toList := Option.mem_toList.2 hx
    exact ⟨List.mem_append_left heard hmem, htold x hmem⟩

theorem tell (event : Event) : (Action.tell event).Obeys policy heard fun _ _ => True :=
  fun _ _ => trivial

/-- What holds of one result after more copies are given holds of all of them in the end. -/
theorem mapM {f : α → Action β} {l : List α}
    (hR : ∀ b {heard more}, heard ⊆ more → R b heard → R b more)
    (hf : ∀ a ∈ l, ∀ more, heard ⊆ more → (f a).Obeys policy more R) :
    Action.Obeys policy (l.mapM f) heard fun bs more => ∀ b ∈ bs, R b more := by
  induction l generalizing heard with
  | nil => exact pure fun _ hb => nomatch hb
  | cons a l ih =>
    obtain ⟨ha, hl⟩ := List.forall_mem_cons.1 hf
    rw [List.mapM_cons]
    apply bind (ha heard (List.Subset.refl heard))
    intro b heard' hheard' hb
    apply bind (ih fun a ha more hmore => hl a ha more (List.Subset.trans hheard' hmore))
    intro bs more hmore hbs
    exact pure (List.forall_mem_cons.2 ⟨hR b hmore hb, hbs⟩)

end Action.Obeys

end Discussion
