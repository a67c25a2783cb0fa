import Discussion.Proofs.Attachment
import Discussion.Proofs.Removal

namespace Discussion

/-- What a choice decides: what a user hears of a section or a comment. -/
def Choice.matter (t : Choice) : UserId × SectionKey × CommentId :=
  (t.user, t.key, t.comment)

namespace Store

variable {s : Store} {c : StoreCall}

/-- A comment is known by its id, and no vote or choice is for a comment that is not stored. -/
structure Tied (s : Store) : Prop extends s.Numbered, s.Attached

theorem tied_empty : Tied {} := { numbered_empty, attached_empty with }

theorem Tied.answer (h : s.Tied) (hfits : s.Fits c) (hfinds : s.Finds c) :
    (s.answer c).2.Tied := by
  have hattached : (s.answer c).2.Attached := by
    cases c with
    | add r => exact h.toAttached.add r
    | revise r => exact h.toAttached.revise r
    | removeThread id replyTo => exact h.toAttached.removeThread h.toNumbered id replyTo
    | removeSelected f =>
      change (s.removeSelected f).2.Attached
      rw [removeSelected_whole hfits]
      exact h.toAttached.removeSections h.toNumbered _
    | removeComponent component => exact h.toAttached.removeSections h.toNumbered _
    | removeContexts contexts => exact h.toAttached.removeSections h.toNumbered _
    | castVote id user upvote =>
      obtain ⟨x, hx, rfl⟩ := hfinds
      exact h.toAttached.castVote (mem_identities hx) user upvote
    | withdrawVotes user =>
      exact h.toAttached.of_subset (s.identities_withdrawVotes user) List.filter_sublist.subset
        (List.Subset.refl _)
    | choose user key comment status =>
      refine h.toAttached.choose user key (fun id hid => ?_) status
      obtain ⟨x, hx, hcomment⟩ := hfinds id hid
      exact ⟨x.identity, mem_identities hx, hcomment⟩
    | forgetChoices user =>
      exact h.toAttached.of_subset rfl (List.Subset.refl _) List.filter_sublist.subset
    | _ => exact h.toAttached.of_subset rfl (List.Subset.refl _) (List.Subset.refl _)
  exact { h.toNumbered.answer c, hattached with }

theorem tied_commits : Commits fun w => w.store.Tied :=
  .of_store fun _ _ hfits hfinds h => h.answer hfits hfinds

theorem tied_of_reached {allowed : Forum → Operation → Prop} {w : World}
    (hw : Reached allowed w) : w.store.Tied :=
  tied_commits.reached_all (fun hc _ h => h.answer hc.fits hc.finds) tied_empty hw

/-- Whatever is asked of a forum, and whichever calls fail: every vote is for a stored comment, and
every choice is for a section or for a comment that is stored in its section. -/
theorem attached_of_reached {allowed : Forum → Operation → Prop} {w : World}
    (hw : Reached allowed w) :
    (∀ v ∈ w.store.votes, ∃ c ∈ w.store.comments, c.id = v.comment) ∧
      ∀ t ∈ w.store.choices, t.comment ≠ 0 →
        ∃ c ∈ w.store.comments, c.id = t.comment ∧ c.key = t.key := by
  have h := tied_of_reached hw
  constructor
  · intro v hv
    obtain ⟨_, hk, hid⟩ := h.votes v hv
    obtain ⟨c, hc, rfl⟩ := List.mem_map.1 hk
    exact ⟨c, hc, hid⟩
  · intro t ht hcomment
    obtain ⟨_, hk, hid, hkey⟩ := h.choices t ht hcomment
    obtain ⟨c, hc, rfl⟩ := List.mem_map.1 hk
    exact ⟨c, hc, hid, hkey⟩

/-- Two threads, of which a user follows a comment each, and then the second of them is removed. -/
def unfollowed : World :=
  let talk : SectionKey := ⟨"wiki", "talk", 1, 1⟩
  Forum.twoThreads.afterAll (.wiki .wiki) [
    .vote (some 8) ⟨talk, 3, true⟩,
    .vote (some 8) ⟨talk, 5, true⟩,
    .choose (some 8) ⟨talk, some 3, "immediate"⟩,
    .choose (some 8) ⟨talk, some 5, "immediate"⟩,
    .choose (some 8) ⟨talk, none, "digests"⟩,
    .remove (some 7) [2]]

theorem attached_unfollowed :
    let s := unfollowed.store
    Reached (fun _ _ => True) unfollowed ∧
      (∀ v ∈ s.votes, ∃ c ∈ s.comments, c.id = v.comment) ∧
      (∀ t ∈ s.choices, t.comment ≠ 0 → ∃ c ∈ s.comments, c.id = t.comment ∧ c.key = t.key) ∧
      s.comments.map (·.id) = [1, 3] ∧ s.votes = [⟨3, 8⟩] ∧
      s.choices.map (fun t => (t.comment, t.status)) = [(3, .immediate), (0, .dailyDigest)] := by
  intro s
  have hw : Reached (fun _ _ => True) unfollowed :=
    Forum.reached_twoThreads.afterAll fun _ _ => trivial
  obtain ⟨hvotes, hchoices⟩ := attached_of_reached hw
  exact ⟨hw, hvotes, hchoices, by decide⟩

/-- A user decides the same matter once, and no stored choice is the absence of one. -/
structure Decided (s : Store) : Prop where
  made : ∀ t ∈ s.choices, t.status ≠ .default
  single : (s.choices.map (·.matter)).Nodup

theorem decided_empty : Decided {} where
  made := fun _ h => nomatch h
  single := List.nodup_nil

variable {user : UserId} {key : SectionKey} {comment : Option CommentId} {status : Delivery}

theorem isChoice_iff_matter {t : Choice} :
    isChoice user key comment t ↔ t.matter = (user, key, choiceTarget comment) := by
  rw [isChoice_iff, Choice.matter, Prod.mk.injEq, Prod.mk.injEq]

theorem Decided.choose (h : s.Decided) (user : UserId) (key : SectionKey)
    (comment : Option CommentId) (status : Delivery) :
    (s.choose user key comment status).Decided where
  made := by
    intro t ht
    rw [mem_choices_choose] at ht
    split at ht
    · rw [ht.2]
      exact ht.1
    · exact h.made t ht
  single := by
    have hrest := h.single.sublist
      ((List.filter_sublist (p := fun t => !isChoice user key comment t)).map (·.matter))
    unfold Store.choose
    split
    · exact hrest
    · dsimp only
      rw [List.map_append]
      refine List.nodup_append.2 ⟨hrest, List.nodup_singleton _, ?_⟩
      intro _ hother _ hnew
      obtain ⟨t, ht, rfl⟩ := List.mem_map.1 hother
      rw [List.mem_singleton.1 hnew]
      intro hsame
      have hkept := (List.mem_filter.1 ht).2
      rw [isChoice_iff_matter.2 hsame] at hkept
      cases hkept

theorem Decided.answer (h : s.Decided) (c : StoreCall) : (s.answer c).2.Decided := by
  rcases s.choices_answer c with hsub | ⟨user, key, comment, status, rfl⟩
  · exact ⟨fun t ht => h.made t (hsub.subset ht), h.single.sublist (hsub.map _)⟩
  · exact h.choose user key comment status

theorem decided_of_reached {allowed : Forum → Operation → Prop} {w : World}
    (hw : Reached allowed w) : w.store.Decided :=
  Writes.reached (.of_store fun _ c _ h => h.answer c) decided_empty hw

theorem Decided.choice?_eq_some (h : s.Decided) : s.choice? user key comment = some status ↔
    ⟨user, key, choiceTarget comment, status⟩ ∈ s.choices := by
  rw [choice?, Option.map_eq_some_iff]
  constructor
  · rintro ⟨t, ht, rfl⟩
    obtain ⟨rfl, rfl, hcomment⟩ := isChoice_iff.1 (List.find?_some ht)
    rw [← hcomment]
    exact List.mem_of_find?_eq_some ht
  · intro ht
    have hfound : (s.choices.find? (isChoice user key comment)).isSome :=
      List.find?_isSome.2 ⟨_, ht, isChoice_iff.2 ⟨rfl, rfl, rfl⟩⟩
    obtain ⟨t, hfind⟩ := Option.isSome_iff_exists.1 hfound
    have hsame := List.inj_on_of_nodup_map h.single (List.mem_of_find?_eq_some hfind) ht
      (isChoice_iff_matter.1 (List.find?_some hfind))
    exact ⟨t, hfind, congrArg _ hsame⟩

end Store

end Discussion
