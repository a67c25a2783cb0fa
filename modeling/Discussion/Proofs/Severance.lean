import Discussion.Proofs.Forest
import Discussion.Proofs.Heeding
import Discussion.Proofs.Interleaving

namespace Discussion

namespace Store

variable {s : Store} {c : StoreCall}

/-- The comment was stored and is gone. -/
def hasLost (s : Store) (id : CommentId) : Bool :=
  id ≤ s.lastId && !s.comments.any (·.id == id)

theorem hasLost_iff {id : CommentId} :
    s.hasLost id ↔ id ≤ s.lastId ∧ ∀ x ∈ s.comments, x.id ≠ id := by
  rw [hasLost, Bool.and_eq_true, decide_eq_true_iff, Bool.not_eq_true', List.any_eq_false]
  simp only [beq_iff_eq, ne_eq]

theorem Fits.mono {t : Store} (h : s.Fits c) (hst : s.comments ⊆ t.comments) : t.Fits c := by
  cases c with
  | add r =>
    intro p hp
    obtain ⟨x, hx, hid⟩ := h p hp
    exact ⟨x, hst hx, hid⟩
  | removeSelected f => exact h
  | _ => trivial

theorem hasLost_answer {id : CommentId} (h : s.hasLost id) (c : StoreCall) :
    (s.answer c).2.hasLost id := by
  obtain ⟨hissued, hgone⟩ := hasLost_iff.1 h
  have hlast := s.lastId_answer c
  refine hasLost_iff.2 ⟨by lia, fun x hx hid => ?_⟩
  have hx := mem_identities hx
  rw [identities_answer] at hx
  rcases List.mem_append.1 hx with hold | hnew
  · obtain ⟨y, hy, heq⟩ := List.mem_map.1 (List.mem_of_mem_filter hold)
    exact hgone y hy ((congrArg Identity.id heq).trans hid)
  · have hfresh : x.id = s.lastId + 1 := adds_fresh hnew
    lia

/-- A call that fits a store fits it after another call, as long as it does not come too late. -/
theorem Fits.answer (h : s.Fits c) (hs : s.Numbered) (other : StoreCall)
    (hkept : ∀ r, c = .add r → ∀ id, r.replyTo = some id →
      (s.answer other).2.hasLost id = false) : (s.answer other).2.Fits c := by
  cases c with
  | add r =>
    intro id hid
    obtain ⟨x, hx, rfl, hkey, htop⟩ := h id hid
    have hlost := hkept r rfl x.id hid
    have hissued := hs.keyed.issued x hx
    have hlast := s.lastId_answer other
    rw [hasLost, Bool.and_eq_false_iff, decide_eq_false_iff_not, Bool.not_eq_false',
      List.any_eq_true] at hlost
    obtain ⟨y, hy, hyid⟩ := hlost.resolve_left fun hle => hle (by lia)
    have hsame := ((hs.keyed.knows hx).answer other).only _ (mem_identities hy) (beq_iff_eq.1 hyid)
    refine ⟨y, hy, beq_iff_eq.1 hyid, ?_, ?_⟩
    · exact (congrArg Identity.key hsame).trans hkey
    · exact (congrArg Identity.replyTo hsame).trans htop
  | removeSelected f => exact h
  | _ => trivial

/-- The target of some reply is not stored. -/
def Orphaned (s : Store) : Prop :=
  ∃ c ∈ s.comments, ∃ id, c.replyTo = some id ∧ ∀ x ∈ s.comments, x.id ≠ id

theorem Rooted.not_orphaned (h : s.Rooted) : ¬s.Orphaned := by
  rintro ⟨c, hc, id, hreply, hgone⟩
  obtain ⟨t, ht, hid, -⟩ := h c hc id hreply
  exact hgone t ht hid

theorem orphaned_add {r : StoredComment} {id : CommentId} (hreply : r.replyTo = some id)
    (hlost : s.hasLost id) : (s.add r).2.Orphaned := by
  have hnew : ∃ k ∈ (s.add r).2.identities, k.replyTo = some id := by
    rw [identities_add]
    exact ⟨_, List.mem_append_right _ (List.mem_singleton_self _), hreply⟩
  obtain ⟨k, hk, hkid⟩ := hnew
  obtain ⟨x, hx, rfl⟩ := List.mem_map.1 hk
  exact ⟨x, hx, id, hkid, (hasLost_iff.1 (hasLost_answer hlost (.add r))).2⟩

end Store

theorem StoreCall.told_subset (s : Store) (c : StoreCall) :
    c.told (s.answer c).1 ⊆ (s.answer c).2.comments := by
  intro x hx
  have hmem := StoreCall.mem_told hx
  cases c with
  | comment | commentsByIds | select => exact hmem
  | _ => cases hx

namespace Process

/-- The comment to which the next call adds a reply. -/
def awaits (p : Process) : Option CommentId :=
  match p.rest with
  | .call (.store (.add r)) _ => r.replyTo
  | _ => none

/-- The next call adds a reply to a comment that is gone. -/
def isLate (s : Store) (p : Process) : Bool :=
  p.awaits.any s.hasLost

/-- The calls of the operation fit what was told right before, and the next one fits the store if it
does not come too late. -/
structure Poised (s : Store) (p : Process) : Prop where
  heeds : ∃ told, p.rest.Heeds told fun _ _ => True
  fits : p.isLate s = false → ∀ {c next}, p.rest = .call (.store c) next → s.Fits c

variable {s : Store} {p : Process}

theorem isLate_iff : p.isLate s ↔ ∃ r next id, p.rest = .call (.store (.add r)) next ∧
    r.replyTo = some id ∧ s.hasLost id := by
  obtain ⟨heard, rest⟩ := p
  constructor
  · intro h
    unfold isLate awaits at h
    dsimp only at h
    split at h
    next r next =>
      cases hreply : r.replyTo with
      | none =>
        rw [hreply] at h
        cases h
      | some id =>
        rw [hreply] at h
        exact ⟨r, next, id, rfl, hreply, h⟩
    · cases h
  · rintro ⟨r, next, id, rfl, hreply, hlost⟩
    unfold isLate awaits
    dsimp only
    rw [hreply]
    exact hlost

theorem Poised.answer (h : p.Poised s) (hs : s.Numbered) (c : StoreCall) :
    p.Poised (s.answer c).2 where
  heeds := h.heeds
  fits := by
    intro hlate d next hrest
    have hearly : p.isLate s = false := by
      rw [Bool.eq_false_iff] at hlate ⊢
      intro hlost
      obtain ⟨r, next, id, hrest, hreply, hlost⟩ := isLate_iff.1 hlost
      exact hlate (isLate_iff.2 ⟨r, next, id, hrest, hreply, Store.hasLost_answer hlost c⟩)
    refine (h.fits hearly hrest).answer hs c ?_
    rintro r rfl id hid
    rw [Bool.eq_false_iff] at hlate ⊢
    exact fun hlost => hlate (isLate_iff.2 ⟨r, next, id, hrest, hid, hlost⟩)

theorem poised_of_heeds {told : List StoredComment} (h : p.rest.Heeds told fun _ _ => True)
    (htold : told ⊆ s.comments) : p.Poised s where
  heeds := ⟨told, h⟩
  fits := by
    intro _ c next hrest
    rw [hrest] at h
    exact Store.Fits.mono (s := { comments := told }) h.1 htold

end Process

variable {allowed : Forum → Operation → Prop} {carries : Process → Prop} {w : World}

theorem Process.proceed_store (p : Process) (w : World) : (p.proceed w).2.store = w.store ∨
    ∃ c next, p.rest = .call (.store c) next ∧
      (p.proceed w).2.store = (w.store.answer c).2 := by
  obtain ⟨heard, rest⟩ := p
  cases rest with
  | done | tell => exact .inl rfl
  | call c next =>
    cases c with
    | host handler question => exact .inl rfl
    | store c => exact .inr ⟨c, next, rfl, rfl⟩

theorem Process.Poised.proceed {p : Process} (h : p.Poised w.store) :
    (p.proceed w).1.Poised (p.proceed w).2.store := by
  obtain ⟨heard, rest⟩ := p
  obtain ⟨told, hheeds⟩ := h.heeds
  cases rest with
  | done r => exact h
  | tell event next => exact poised_of_heeds hheeds (List.nil_subset _)
  | call c next =>
    refine poised_of_heeds (hheeds.2.2 w) ?_
    cases c with
    | store c => exact StoreCall.told_subset w.store c
    | host handler question =>
      have htold : (Call.host handler question).told (handler.answer question) = [] := by
        cases handler.answer question <;> rfl
      change (Call.host handler question).told (handler.answer question) ⊆ _
      rw [htold]
      exact List.nil_subset _

theorem Process.Poised.refuse {s : Store} {p : Process} (h : p.Poised s) (failure : String) :
    (p.refuse failure).Poised s := by
  obtain ⟨heard, rest⟩ := p
  obtain ⟨told, hheeds⟩ := h.heeds
  cases rest with
  | done | tell => exact h
  | call c next => exact poised_of_heeds (hheeds.2.1 failure) (List.nil_subset _)

theorem Process.poised_start (f : Forum) (op : Operation) (s : Store) :
    (Process.start f op).Poised s :=
  poised_of_heeds (Program.Heeds.mono (f.operation_heedful op []) fun _ _ _ => trivial)
    (List.nil_subset _)

namespace Traffic

/-- Comments are in the order of their ids, and no operation under way can come too late unless the
target of its reply goes. -/
structure Poised (t : Traffic) : Prop where
  numbered : t.world.store.Numbered
  processes : ∀ p ∈ t.processes, p.Poised t.world.store

/-- In the step an operation adds a reply to a comment that is gone. -/
inductive Severs : Traffic → Traffic → Prop
  | proceed (w : World) (ps : List Process) (p : Process) (qs : List Process) :
    p.isLate w.store → Severs ⟨w, ps ++ p :: qs⟩ ⟨(p.proceed w).2, ps ++ (p.proceed w).1 :: qs⟩

/-- Any number of steps, in none of which a reply is added to a comment that is gone. -/
def RunsIntact (allowed : Forum → Operation → Prop) : Traffic → Traffic → Prop :=
  Relation.ReflTransGen fun t u => Step allowed (fun _ => True) t u ∧ ¬t.Severs u

variable {t u : Traffic}

theorem Step.poised (h : Step allowed carries t u) (ht : t.Poised) : u.Poised := by
  obtain ⟨hn, hps⟩ := ht
  cases h with
  | start w ps f op hop =>
    have hstart := Process.poised_start f op w.store
    exact ⟨hn, List.forall_mem_append.2 ⟨hps, List.forall_mem_singleton.2 hstart⟩⟩
  | proceed w ps p qs =>
    have hothers : (p.proceed w).2.store.Numbered ∧
        ∀ q : Process, q.Poised w.store → q.Poised (p.proceed w).2.store := by
      rcases p.proceed_store w with hsame | ⟨c, next, -, hnext⟩
      · rw [hsame]
        exact ⟨hn, fun _ hq => hq⟩
      · rw [hnext]
        exact ⟨hn.answer c, fun _ hq => hq.answer hn c⟩
    have hp := (hps p List.mem_append_cons_self).proceed
    exact ⟨hothers.1, forall_mem_changed hps hp hothers.2⟩
  | refuse w ps p qs failure =>
    have hp := (hps p List.mem_append_cons_self).refuse failure
    exact ⟨hn, forall_mem_changed hps hp fun _ hq => hq⟩

/-- Only a reply to a comment that is gone breaks the forest. -/
theorem Step.forest (h : Step allowed carries t u) (ht : t.Poised) (hf : t.world.store.Forest)
    (hintact : ¬t.Severs u) : u.world.store.Forest := by
  cases h with
  | start | refuse => exact hf
  | proceed w ps p qs =>
    rcases p.proceed_store w with hsame | ⟨c, next, hrest, hnext⟩
    · exact hsame ▸ hf
    · have hearly : p.isLate w.store = false := by
        rw [Bool.eq_false_iff]
        exact fun hlate => hintact (.proceed w ps p qs hlate)
      change (p.proceed w).2.store.Forest
      rw [hnext]
      exact hf.answer ((ht.processes p List.mem_append_cons_self).fits hearly hrest)

theorem Severs.orphaned (h : t.Severs u) : u.world.store.Orphaned := by
  cases h with
  | proceed w ps p qs hlate =>
    obtain ⟨r, next, id, hrest, hreply, hlost⟩ := Process.isLate_iff.1 hlate
    have hadded : (p.proceed w).2.store = (w.store.add r).2 := by
      unfold Process.proceed
      rw [hrest]
      rfl
    change (p.proceed w).2.store.Orphaned
    rw [hadded]
    exact Store.orphaned_add hreply hlost

theorem RunsIntact.forest (h : RunsIntact allowed t u) (ht : t.Poised)
    (hf : t.world.store.Forest) : u.Poised ∧ u.world.store.Forest := by
  induction h with
  | refl => exact ⟨ht, hf⟩
  | tail _ hstep ih => exact ⟨hstep.1.poised ih.1, hstep.1.forest ih.1 ih.2 hstep.2⟩

/-- Whatever operations come at one time and whichever of their calls fail, every reply keeps its
target until a reply is added to a comment that has gone since it was checked. That reply, and no
other, is left without one. -/
theorem rooted_until_severed {allowed' : Forum → Operation → Prop} (hw : Reached allowed' w)
    (h : RunsIntact allowed ⟨w, []⟩ t) (hstep : Step allowed (fun _ => True) t u) :
    t.world.store.Rooted ∧ (¬t.Severs u → u.world.store.Rooted) ∧
      (u.world.store.Orphaned ↔ t.Severs u) := by
  have hforest := Store.forest_of_reached hw
  obtain ⟨hpoised, ht⟩ := h.forest ⟨hforest.toNumbered, fun _ hp => nomatch hp⟩ hforest
  have hrooted (hintact : ¬t.Severs u) : u.world.store.Rooted :=
    (hstep.forest hpoised ht hintact).rooted
  refine ⟨ht.rooted, hrooted, fun horphaned => ?_, Severs.orphaned⟩
  by_contra hintact
  exact (hrooted hintact).not_orphaned horphaned

theorem not_severs_of_early (h : t.processes.any (·.isLate t.world.store) = false) :
    ¬t.Severs u := by
  rintro ⟨w, ps, p, qs, hlate⟩
  rw [List.any_eq_false] at h
  exact h p List.mem_append_cons_self hlate

theorem runsIntact_between (ps qs : List Process) {p : Process} {w : World} {n : Nat}
    (h : ∀ k < n, (ps ++ (p.proceeds w k).1 :: qs).any (·.isLate (p.proceeds w k).2.store) = false) :
    RunsIntact allowed ⟨w, ps ++ p :: qs⟩
      ⟨(p.proceeds w n).2, ps ++ (p.proceeds w n).1 :: qs⟩ := by
  induction n generalizing p w with
  | zero => exact .refl
  | succ n ih =>
    apply Relation.ReflTransGen.head
      ⟨.proceed w ps p qs trivial, not_severs_of_early (h 0 (Nat.succ_pos n))⟩
    exact ih fun k hk => h (k + 1) (Nat.succ_lt_succ hk)

end Traffic

/-- The wiki with one comment. -/
def Traffic.commented : World :=
  World.after {} (.wiki .wiki) (.postToWiki 4 [none])

/-- Somebody replies to the comment. -/
def Process.replier : Process :=
  .start (.wiki .wiki) (.postToWiki 5 [some 1])

/-- Somebody else removes it. -/
def Process.remover : Process :=
  .start (.wiki .wiki) (.remove (some 7) [1])

namespace Traffic

open Process (replier remover)

theorem reached_commented : Reached (fun _ _ => True) commented :=
  Reached.start.after trivial

/-- The reply has been checked, and then the removal has been carried on for some steps. -/
def contested (m : Nat) : Traffic :=
  let (reply, w) := replier.proceeds commented 4
  let (removal, w) := remover.proceeds w m
  ⟨w, [reply, removal]⟩

/-- The first of the operations does what comes next. -/
def carryFirst (t : Traffic) : Traffic :=
  match t.processes with
  | [] => t
  | p :: ps => ⟨(p.proceed t.world).2, (p.proceed t.world).1 :: ps⟩

theorem runsIntact_contested {m : Nat} (hm : m ≤ 3) :
    RunsIntact (fun _ _ => True) ⟨commented, []⟩ (contested m) := by
  have hchecking : ∀ k < 4, ([] ++ (replier.proceeds commented k).1 :: [remover]).any
      (·.isLate (replier.proceeds commented k).2.store) = false := by
    decide
  have hremoving : ∀ k < 3, (contested k).processes.any (·.isLate (contested k).world.store) =
      false := by
    decide
  have hreply : RunsIntact (fun _ _ => True) ⟨commented, []⟩ ⟨commented, [replier]⟩ :=
    .single ⟨.start _ [] (.wiki .wiki) (.postToWiki 5 [some 1]) trivial, not_severs_of_early rfl⟩
  have hboth : RunsIntact (fun _ _ => True) ⟨commented, []⟩ ⟨commented, [replier, remover]⟩ :=
    hreply.tail ⟨.start _ [replier] (.wiki .wiki) (.remove (some 7) [1]) trivial,
      not_severs_of_early (by decide)⟩
  refine (hboth.trans (runsIntact_between [] [remover] hchecking)).trans ?_
  exact runsIntact_between [_] [] fun k hk => hremoving k (Nat.lt_of_lt_of_le hk hm)

theorem step_carryFirst (m : Nat) :
    Step allowed (fun _ => True) (contested m) (contested m).carryFirst :=
  .proceed _ [] _ _ trivial

/-- The reply comes in time as long as its target is there, and too late afterwards. -/
theorem rooted_until_severed_contested :
    RunsIntact (fun _ _ => True) ⟨commented, []⟩ (contested 3) ∧
    (contested 2).carryFirst.world.store.Rooted ∧
      (contested 2).carryFirst.world.store.comments.map (·.replyTo) = [none, some 1] ∧
    (contested 3).carryFirst.world.store.Orphaned ∧
      (contested 3).carryFirst.world.store.comments.map (·.replyTo) = [some 1] := by
  have hrun := runsIntact_contested (Nat.le_refl 3)
  refine ⟨hrun, ?_, by decide, ?_, by decide⟩
  · exact (rooted_until_severed reached_commented (runsIntact_contested (Nat.le_succ 2))
      (step_carryFirst 2)).2.1 (not_severs_of_early (by decide))
  · refine (rooted_until_severed reached_commented hrun (step_carryFirst 3)).2.2.2 ?_
    exact .proceed _ [] _ _ (by decide)

/-- The comment goes between the check of the reply and the reply itself. Both operations come to
their end, and the reply has no target. -/
theorem orphaned_contested : Reached (fun _ _ => True) commented ∧ ∃ t : Traffic,
    Runs (fun _ _ => False) (fun _ => True) ⟨commented, [replier, remover]⟩ t ∧
      (∀ p ∈ t.processes, p.isOver) ∧ t.world.store.Orphaned := by
  let reply := replier.proceeds commented 4
  let removal := remover.proceeds reply.2 4
  let late := reply.1.proceeds removal.2 5
  refine ⟨reached_commented, ⟨late.2, [late.1, removal.1]⟩, ?_, by decide, ?_⟩
  · have hcheck : Runs (fun _ _ => False) (fun _ => True) ⟨commented, [replier, remover]⟩
        ⟨reply.2, [reply.1, remover]⟩ :=
      runs_between [] [remover] fun _ _ => trivial
    have hremove : Runs (fun _ _ => False) (fun _ => True) ⟨reply.2, [reply.1, remover]⟩
        ⟨removal.2, [reply.1, removal.1]⟩ :=
      runs_between [reply.1] [] fun _ _ => trivial
    exact (hcheck.trans hremove).trans (runs_between [] [removal.1] fun _ _ => trivial)
  · unfold Store.Orphaned
    decide

end Traffic

end Discussion
