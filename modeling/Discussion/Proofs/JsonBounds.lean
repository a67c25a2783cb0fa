import Discussion.Proofs.JsonRoundTrip
import Mathlib.Data.String.Basic

namespace Discussion

theorem Dictionary.Ordered.insert {α : Type} {d : Dictionary α} (h : d.Ordered) (key : String)
    (value : α) : (Dictionary.insert d key value).Ordered := by
  induction d with
  | nil => exact List.pairwise_singleton _ _
  | cons e rest ih =>
    obtain ⟨k, v⟩ := e
    obtain ⟨hfirst, hrest⟩ := List.pairwise_cons.1 h
    unfold Dictionary.insert
    split
    next hlt =>
      refine List.pairwise_cons.2 ⟨fun x hx => ?_, h⟩
      rcases List.mem_cons.1 hx with rfl | hx
      · exact hlt
      · exact hlt.trans (hfirst x hx)
    next hge =>
      split
      next heq =>
        subst heq
        exact List.pairwise_cons.2 ⟨hfirst, hrest⟩
      next hne =>
        refine List.pairwise_cons.2 ⟨fun x hx => ?_, ih hrest⟩
        rcases Dictionary.mem_of_mem_insert hx with rfl | hx
        · exact lt_of_le_of_ne (not_lt.1 hge) (Ne.symm hne)
        · exact hfirst x hx

namespace Json

/-- A value whose integers are read as integers, and which does not nest too many containers. -/
structure Fits (room : Nat) (j : Json) : Prop where
  bounded : j.Bounded
  depth : j.depth ≤ room

theorem boundedItems_iff (items : List Json) : BoundedItems items ↔ ∀ j ∈ items, j.Bounded := by
  induction items with
  | nil => exact ⟨fun _ _ h => (nomatch h), fun _ => trivial⟩
  | cons j items ih => rw [BoundedItems, List.forall_mem_cons, ih]

theorem boundedFields_iff (fields : List (String × Json)) :
    BoundedFields fields ↔ ∀ e ∈ fields, e.2.Bounded := by
  induction fields with
  | nil => exact ⟨fun _ _ h => (nomatch h), fun _ => trivial⟩
  | cons e fields ih => rw [BoundedFields, List.forall_mem_cons, ih]

theorem depthItems_le_iff {room : Nat} (items : List Json) :
    depthItems items ≤ room ↔ ∀ j ∈ items, j.depth ≤ room := by
  induction items with
  | nil => exact ⟨fun _ _ h => (nomatch h), fun _ => Nat.zero_le room⟩
  | cons j items ih => rw [depthItems, List.forall_mem_cons, ← ih, Nat.max_le]

theorem depthFields_le_iff {room : Nat} (fields : List (String × Json)) :
    depthFields fields ≤ room ↔ ∀ e ∈ fields, e.2.depth ≤ room := by
  induction fields with
  | nil => exact ⟨fun _ _ h => (nomatch h), fun _ => Nat.zero_le room⟩
  | cons e fields ih => rw [depthFields, List.forall_mem_cons, ← ih, Nat.max_le]

theorem fits_list {room : Nat} {items : List Json} (h : ∀ j ∈ items, j.Fits room) :
    (Json.list items).Fits (room + 1) where
  bounded := (boundedItems_iff items).2 fun j hj => (h j hj).bounded
  depth := Nat.succ_le_succ ((depthItems_le_iff items).2 fun j hj => (h j hj).depth)

theorem fits_object {room : Nat} {fields : Fields} (h : ∀ e ∈ fields, e.2.Fits room) :
    (Json.object fields).Fits (room + 1) where
  bounded := (boundedFields_iff fields).2 fun e he => (h e he).bounded
  depth := Nat.succ_le_succ ((depthFields_le_iff fields).2 fun e he => (h e he).depth)

theorem fits_ofNumberChars {cs : List Char} {j : Json} (h : ofNumberChars cs = some j) :
    j.Fits 0 := by
  obtain ⟨t, -, ht⟩ := Option.bind_eq_some_iff.1 h
  dsimp only at ht
  generalize (if t.negative = true then -(Text.naturalOf t.whole : Int)
    else (Text.naturalOf t.whole : Int)) = value at ht
  split at ht
  next hinteger =>
    simp only [Bool.and_eq_true, decide_eq_true_eq] at hinteger
    obtain rfl := Option.some.inj ht
    exact ⟨⟨hinteger.1.1.2, hinteger.1.2⟩, Nat.le_refl 0⟩
  · obtain ⟨x, -, rfl⟩ := Option.map_eq_some_iff.1 ht
    exact ⟨trivial, Nat.le_refl 0⟩

def Token.Fits : Token → Prop
  | .scalar j => j.Fits 0
  | _ => True

theorem fits_tokens {cs : List Char} {ts : List Token} (h : tokens cs = some ts) :
    ∀ t ∈ ts, t.Fits := by
  have hcons {t : Token} {cs : List Char} {ts : List Token}
      (h : (tokens cs).map (t :: ·) = some ts)
      (ih : ∀ {ts}, tokens cs = some ts → ∀ t ∈ ts, t.Fits) (ht : t.Fits) : ∀ t ∈ ts, t.Fits := by
    obtain ⟨rest, hrest, rfl⟩ := Option.map_eq_some_iff.1 h
    exact List.forall_mem_cons.2 ⟨ht, ih hrest⟩
  have hscalar {j : Json} (hj : j.Bounded) (hdepth : j.depth = 0) : (Token.scalar j).Fits :=
    ⟨hj, Nat.le_of_eq hdepth⟩
  fun_induction tokens cs generalizing ts with
  | case1 =>
    obtain rfl := Option.some.inj h
    exact fun _ ht => nomatch ht
  | case2 c rest _ ih => exact ih h
  | case10 rest chars after _ _ _ _ _ _ _ _ _ ih => exact hcons h ih (hscalar trivial rfl)
  | case12 c rest _ _ _ _ _ _ _ _ _ value hvalue _ ih =>
    exact hcons h ih (fits_ofNumberChars hvalue)
  | case13 rest _ _ _ _ _ _ _ _ _ ih | case14 rest _ _ _ _ _ _ _ _ _ ih
  | case15 rest _ _ _ _ _ _ _ _ _ ih => exact hcons h ih (hscalar trivial rfl)
  | case9 | case11 | case16 => cases h
  | _ => exact hcons h (by assumption) trivial

/-- A property of values that every value has when it is read, whose containers nest no deeper than
there is room: single values have it, and containers have it where their values do. -/
structure Hereditary (P : Nat → Json → Prop) : Prop where
  scalar : ∀ {room j}, j.Fits 0 → P room j
  list : ∀ {room items}, (∀ j ∈ items, P room j) → P (room + 1) (.list items)
  object : ∀ {room} {fields : Fields}, fields.Ordered → (∀ e ∈ fields, P room e.2) →
    P (room + 1) (.object fields)

theorem fits_hereditary : Hereditary Fits where
  scalar := fun h => ⟨h.bounded, h.depth.trans (Nat.zero_le _)⟩
  list := fits_list
  object := fun _ => fits_object

variable {P : Nat → Json → Prop}

/-- The values of an open container leave room for the containers around it. -/
def Frame.Holds (P : Nat → Json → Prop) (room : Nat) : Frame → Prop
  | .list items => ∀ j ∈ items, P room j
  | .field fields _ => fields.Ordered ∧ ∀ e ∈ fields, P room e.2

def FramesHold (P : Nat → Json → Prop) : List Frame → Prop
  | [] => True
  | frame :: outer => (∃ room, room + (outer.length + 1) = maxDepth ∧ frame.Holds P room) ∧
      FramesHold P outer

def Expected.Holds (P : Nat → Json → Prop) : Expected → Prop
  | .value outer => FramesHold P outer
  | .firstItem outer | .firstKey outer => FramesHold P outer ∧ mayOpen outer
  | .nextKey fields outer | .afterField fields outer => FramesHold P (.field fields "" :: outer)
  | .colon fields key outer => FramesHold P (.field fields key :: outer)
  | .afterItem items outer => FramesHold P (.list items :: outer)
  | .nothing j => P maxDepth j

theorem holds_complete {outer : List Frame} {j : Json} {room : Nat} (houter : FramesHold P outer)
    (hroom : room + outer.length = maxDepth) (hj : P room j) : (complete j outer).Holds P := by
  cases outer with
  | nil =>
    obtain rfl : room = maxDepth := hroom
    exact hj
  | cons frame outer =>
    obtain ⟨⟨room', hroom', hframe⟩, houter⟩ := houter
    obtain rfl : room = room' := by
      rw [List.length_cons] at hroom
      omega
    cases frame with
    | list items => exact ⟨⟨room, hroom', List.forall_mem_cons.2 ⟨hj, hframe⟩⟩, houter⟩
    | field fields key =>
      refine ⟨⟨room, hroom', hframe.1.insert key j, fun e he => ?_⟩, houter⟩
      rcases Dictionary.mem_of_mem_insert he with rfl | hmem
      · exact hj
      · exact hframe.2 e hmem

theorem FramesHold.room {outer : List Frame} (h : FramesHold P outer) :
    ∃ room, room + outer.length = maxDepth := by
  cases outer with
  | nil => exact ⟨maxDepth, rfl⟩
  | cons frame outer =>
    obtain ⟨⟨room, hroom, -⟩, -⟩ := h
    exact ⟨room, hroom⟩

theorem room_of_mayOpen {outer : List Frame} (h : mayOpen outer) :
    ∃ room, room + (outer.length + 1) = maxDepth :=
  ⟨maxDepth - (outer.length + 1), Nat.sub_add_cancel (of_decide_eq_true h)⟩

theorem holds_startValue (hP : Hereditary P) {outer : List Frame} {t : Token} {next : Expected}
    (h : FramesHold P outer) (ht : t.Fits) (hnext : startValue outer t = some next) :
    next.Holds P := by
  cases t with
  | scalar j =>
    obtain rfl := Option.some.inj hnext
    obtain ⟨room, hroom⟩ := h.room
    exact holds_complete h hroom (hP.scalar ht)
  | listOpen | objectOpen =>
    obtain ⟨hopen, hnext⟩ := Option.ite_none_right_eq_some.1 hnext
    obtain rfl := Option.some.inj hnext
    exact ⟨h, hopen⟩
  | _ => cases hnext

theorem holds_startKey {fields : Fields} {outer : List Frame} {t : Token} {next : Expected}
    (h : FramesHold P (.field fields "" :: outer)) (hnext : startKey fields outer t = some next) :
    next.Holds P := by
  unfold startKey at hnext
  split at hnext
  · obtain rfl := Option.some.inj hnext
    exact h
  · cases hnext

theorem holds_step (hP : Hereditary P) {e next : Expected} {t : Token} (h : e.Holds P)
    (ht : t.Fits) (hnext : e.step t = some next) : next.Holds P := by
  unfold Expected.step at hnext
  split at hnext
  next outer t => exact holds_startValue hP h ht hnext
  next outer =>
    obtain rfl := Option.some.inj hnext
    obtain ⟨room, hroom⟩ := room_of_mayOpen h.2
    have hempty : P (room + 1) (.list []) := hP.list fun _ hj => nomatch hj
    exact holds_complete h.1 (by omega) hempty
  next t outer _ =>
    obtain ⟨room, hroom⟩ := room_of_mayOpen h.2
    have hframes : FramesHold P (.list [] :: outer) :=
      ⟨⟨room, hroom, fun _ hj => nomatch hj⟩, h.1⟩
    exact holds_startValue hP hframes ht hnext
  next outer =>
    obtain rfl := Option.some.inj hnext
    obtain ⟨room, hroom⟩ := room_of_mayOpen h.2
    have hempty : P (room + 1) (.object []) :=
      hP.object List.Pairwise.nil fun _ he => nomatch he
    exact holds_complete h.1 (by omega) hempty
  next t outer _ =>
    obtain ⟨room, hroom⟩ := room_of_mayOpen h.2
    have hframes : FramesHold P (.field [] "" :: outer) :=
      ⟨⟨room, hroom, List.Pairwise.nil, fun _ he => nomatch he⟩, h.1⟩
    exact holds_startKey hframes hnext
  next fields outer t => exact holds_startKey h hnext
  next fields key outer =>
    obtain rfl := Option.some.inj hnext
    exact h
  next items outer =>
    obtain rfl := Option.some.inj hnext
    exact h
  next items outer =>
    obtain rfl := Option.some.inj hnext
    obtain ⟨⟨room, hroom, hitems⟩, houter⟩ := h
    have hlist : P (room + 1) (.list items.reverse) :=
      hP.list fun j hj => hitems j (List.mem_reverse.1 hj)
    exact holds_complete houter (by omega) hlist
  next fields outer =>
    obtain rfl := Option.some.inj hnext
    exact h
  next fields outer =>
    obtain rfl := Option.some.inj hnext
    obtain ⟨⟨room, hroom, hordered, hfields⟩, houter⟩ := h
    exact holds_complete houter (by omega) (hP.object hordered hfields)
  · cases hnext

theorem holds_run (hP : Hereditary P) {ts : List Token} {e last : Expected} (h : e.Holds P)
    (hts : ∀ t ∈ ts, t.Fits) (hlast : e.run ts = some last) : last.Holds P := by
  induction ts generalizing e with
  | nil =>
    obtain rfl := Option.some.inj hlast
    exact h
  | cons t ts ih =>
    obtain ⟨ht, hts⟩ := List.forall_mem_cons.1 hts
    obtain ⟨next, hnext, hlast⟩ := Option.bind_eq_some_iff.1 hlast
    exact ih (holds_step hP h ht hnext) hts hlast

theorem holds_parse (hP : Hereditary P) {text : String} {j : Json} (h : parse text = some j) :
    P maxDepth j := by
  obtain ⟨ts, hts, hj⟩ := Option.bind_eq_some_iff.1 h
  unfold ofTokens at hj
  split at hj
  next value hvalue =>
    obtain rfl := Option.some.inj hj
    exact holds_run hP (e := .value []) trivial (fits_tokens hts) hvalue
  · cases hj

/-- What has been read can be written and read again. -/
theorem parseObject_write {text : String} {fields : Fields} (h : parseObject text = some fields) :
    parseObject (write (.object fields)) = some (rereadFields fields []) := by
  unfold parseObject at h
  split at h
  next read hread =>
    obtain rfl := Option.some.inj h
    have hfits := holds_parse fits_hereditary hread
    rw [parseObject, parse_write hfits.bounded hfits.depth]
    rfl
  · cases h

end Json

end Discussion
