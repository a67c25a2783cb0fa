import Discussion.Proofs.Operation
import Discussion.Proofs.People
import Discussion.Proofs.Thread

namespace Discussion

variable {s : Store} {w : World}

namespace Store

theorem people_add (s : Store) (r : StoredComment) : (s.add r).2.people = s.people := by
  unfold add
  cases r.replyTo <;> rfl

theorem people_answer (s : Store) (c : StoreCall) :
    (s.answer c).2.people = s.people ∨ ∃ person, c = .setPerson person := by
  cases c with
  | add r => exact .inl (s.people_add r)
  | removeThread id replyTo => exact .inl (s.people_removeThread id replyTo)
  | castVote id user upvote =>
    left
    change (s.castVote id user upvote).2.people = s.people
    unfold castVote
    dsimp only
    split
    · rfl
    · split <;> rfl
  | choose user key comment status =>
    left
    change (s.choose user key comment status).people = s.people
    unfold choose
    dsimp only
    split <;> rfl
  | setPerson person => exact .inr ⟨person, rfl⟩
  | _ => exact .inl rfl

theorem mem_placePerson {p q : Person} {l : List Person} (h : q ∈ placePerson p l) :
    q = p ∨ q ∈ l := by
  induction l with
  | nil => exact .inl (List.mem_singleton.1 h)
  | cons r rest ih =>
    unfold placePerson at h
    split at h
    · exact List.mem_cons.1 h
    split at h
    · exact (List.mem_cons.1 h).imp_right (List.mem_cons_of_mem r)
    · rcases List.mem_cons.1 h with rfl | h
      · exact .inr List.mem_cons_self
      · exact (ih h).imp_right (List.mem_cons_of_mem r)

theorem pairwise_placePerson (p : Person) {l : List Person}
    (h : l.Pairwise fun a b => a.id < b.id) :
    (placePerson p l).Pairwise fun a b => a.id < b.id := by
  induction l with
  | nil => exact List.pairwise_singleton _ _
  | cons q rest ih =>
    obtain ⟨hq, hrest⟩ := List.pairwise_cons.1 h
    unfold placePerson
    split
    next hlt =>
      refine List.pairwise_cons.2 ⟨List.forall_mem_cons.2 ⟨hlt, fun r hr => ?_⟩, h⟩
      exact Int.lt_trans hlt (hq r hr)
    next hge =>
      split
      next heq =>
        refine List.pairwise_cons.2 ⟨fun r hr => ?_, hrest⟩
        rw [heq]
        exact hq r hr
      next hne =>
        refine List.pairwise_cons.2 ⟨fun r hr => ?_, ih hrest⟩
        rcases mem_placePerson hr with rfl | hr
        · lia
        · exact hq r hr

/-- People stand in the order of their ids, each under an id of their own. -/
def PeopleOrdered (s : Store) : Prop :=
  s.people.Pairwise fun p q => p.id < q.id

theorem PeopleOrdered.answer (h : s.PeopleOrdered) (c : StoreCall) :
    (s.answer c).2.PeopleOrdered := by
  unfold PeopleOrdered
  rcases s.people_answer c with hsame | ⟨person, rfl⟩
  · rw [hsame]
    exact h
  · exact pairwise_placePerson person h

theorem peopleOrdered_of_reached {allowed : Forum → Operation → Prop} (hw : Reached allowed w) :
    w.store.PeopleOrdered :=
  Writes.reached (.of_store fun _ c _ h => h.answer c) List.Pairwise.nil hw

theorem PeopleOrdered.person?_eq (h : s.PeopleOrdered) (id : UserId) :
    s.person? id = s.people.find? (·.id == id) := by
  rw [person?, ← List.head?_filter]
  have hfound : (s.people.filter (·.id == id)).Pairwise fun p q => p.id < q.id :=
    h.sublist List.filter_sublist
  have hids : ∀ p ∈ s.people.filter (·.id == id), p.id = id := fun p hp =>
    beq_iff_eq.1 (List.mem_filter.1 hp).2
  generalize s.people.filter (·.id == id) = found at hfound hids ⊢
  match found with
  | [] | [p] => rfl
  | p :: q :: rest =>
    have hlt := (List.pairwise_cons.1 hfound).1 q List.mem_cons_self
    rw [hids p List.mem_cons_self, hids q (List.mem_cons_of_mem p List.mem_cons_self)] at hlt
    exact (Int.lt_irrefl id hlt).elim

theorem personOf_peopleByIds {ids : List UserId} {id : UserId} (hid : id ∈ ids) :
    Forum.personOf (s.peopleByIds ids) id = s.people.find? (·.id == id) := by
  rw [Forum.personOf, peopleByIds, List.find?_filter]
  congr 1
  funext p
  rw [Bool.decide_and, Bool.decide_eq_true, Bool.decide_eq_true, Bool.and_eq_right_iff_imp]
  intro hp
  rw [beq_iff_eq.1 hp]
  exact List.contains_iff_mem.2 hid

end Store

/-- Who is looked up together with others is who is found alone. -/
theorem Forum.personOf_eq (hs : s.PeopleOrdered) {ids : List UserId} {id : UserId} (hid : id ∈ ids) :
    personOf (s.peopleByIds ids) id = s.person? id :=
  (Store.personOf_peopleByIds hid).trans (hs.person?_eq id).symm

end Discussion
