import Discussion.Proofs.Identity
import Discussion.Proofs.Operation

namespace Discussion

theorem Store.Fits.removes_reply {s : Store} {c : StoreCall} {k t : Identity} (hc : s.Fits c)
    (hreply : k.replyTo = some t.id)
    (hkey : t.key = k.key) (htop : t.replyTo = none) (ht : c.removes t) : c.removes k := by
  cases c with
  | removeThread id replyTo =>
    simp only [StoreCall.removes, htop, Bool.or_eq_true, beq_iff_eq, reduceCtorEq, or_false] at ht
    simp only [StoreCall.removes, hreply, ht, BEq.rfl, Bool.or_true]
  | removeSelected f =>
    simp only [Fits, Selection.isWholeSections, Bool.and_eq_true, beq_iff_eq,
      Option.isNone_iff_eq_none] at hc
    simp only [StoreCall.removes, Selection.coversSecond, hc, ThreadLevel.covers, hkey] at ht ⊢
    exact ht
  | removeComponent component =>
    rw [StoreCall.removes, hkey] at ht
    exact ht
  | removeContexts contexts =>
    rw [StoreCall.removes, hkey] at ht
    exact ht
  | _ => cases ht

namespace Store

variable {s : Store} {c : StoreCall}

/-- Every reply has an earlier comment of its section as its target, which is no reply itself. -/
def Rooted (s : Store) : Prop :=
  ∀ c ∈ s.comments, ∀ p, c.replyTo = some p →
    ∃ t ∈ s.comments, t.id = p ∧ t.key = c.key ∧ t.replyTo = none ∧ p < c.id

/-- The comments form a forest that is two levels deep. -/
structure Forest (s : Store) : Prop extends s.Numbered where
  rooted : s.Rooted

theorem rooted_iff_identities : s.Rooted ↔ ∀ k ∈ s.identities, ∀ p, k.replyTo = some p →
    ∃ t ∈ s.identities, t.id = p ∧ t.key = k.key ∧ t.replyTo = none ∧ p < k.id := by
  simp only [Rooted, identities, List.mem_map, forall_exists_index, and_imp,
    forall_apply_eq_imp_iff₂, exists_exists_and_eq_and]
  rfl

theorem forest_empty : Forest {} where
  toNumbered := numbered_empty
  rooted := fun _ h => nomatch h

/-- The forest stays one as long as replies are added to comments of the top level only and no
selection cuts through a section. -/
theorem Forest.answer (h : s.Forest) (hc : s.Fits c) : (s.answer c).2.Forest where
  toNumbered := h.toNumbered.answer c
  rooted := by
    rw [rooted_iff_identities, identities_answer]
    intro k hk p hp
    rcases List.mem_append.1 hk with hold | hnew
    · obtain ⟨hold, hkept⟩ := List.mem_filter.1 hold
      obtain ⟨t, ht, rfl, hkey, htop, hlt⟩ := rooted_iff_identities.1 h.rooted k hold p hp
      refine ⟨t, List.mem_append_left _ (List.mem_filter.2 ⟨ht, ?_⟩), rfl, hkey, htop, hlt⟩
      rw [Bool.not_eq_true', Bool.eq_false_iff] at hkept ⊢
      exact fun hgone => hkept (hc.removes_reply hp hkey htop hgone)
    · cases c with
      | add r =>
        have hid := adds_fresh hnew
        rw [List.mem_singleton.1 hnew] at hp hid ⊢
        obtain ⟨t, ht, rfl, hkey, htop⟩ := hc p hp
        refine ⟨t.identity, List.mem_append_left _ (List.mem_filter.2 ⟨mem_identities ht, rfl⟩),
          rfl, hkey, htop, ?_⟩
        rw [hid]
        exact Int.lt_add_one_of_le (h.issued _ (mem_identities ht)).2
      | _ => cases hnew

theorem forest_of_reached {allowed : Forum → Operation → Prop} {w : World}
    (hw : Reached allowed w) : w.store.Forest :=
  Writes.reached (.of_store fun _ _ hc h => h.answer hc) forest_empty hw

/-- Whatever components contribute, whichever calls fail and in whatever order operations come,
every reply has an earlier comment of its own section as its target, which is no reply. -/
theorem rooted_of_reached {allowed : Forum → Operation → Prop} {w : World}
    (hw : Reached allowed w) : w.store.Rooted :=
  (forest_of_reached hw).rooted

/-- The component turns the second comment into a reply to the first. -/
def redirected : World :=
  let redirecting := { Handler.wiki with beforeSave := fun _ c _ => { c with replyTo := some 1 } }
  (World.after {} (.wiki .wiki) (.postToWiki 4 [none])).after (.wiki redirecting)
    (.postToWiki 5 [none])

theorem rooted_redirected : Reached (fun _ _ => True) redirected ∧ redirected.store.Rooted ∧
    redirected.store.comments.map (fun c => (c.id, c.replyTo)) = [(1, none), (2, some 1)] := by
  have hw : Reached (fun _ _ => True) redirected := (Reached.start.after trivial).after trivial
  exact ⟨hw, rooted_of_reached hw, by decide⟩

end Store

end Discussion
