import Discussion.Store.Selected
import Mathlib.Data.List.Forall2
import Mathlib.Data.List.Nodup

namespace Discussion

namespace Slice

theorem mem_of_mem_cut {α : Type} {rows : List α} {page : Option Slice} {a : α}
    (h : a ∈ Slice.cut rows page) : a ∈ rows := by
  cases page with
  | none => exact h
  | some p => exact List.mem_of_mem_drop (List.mem_of_mem_take h)

/-- No list is so long that the cut of an offset beyond every number shows. -/
theorem cut_ofPage? {α : Type} {rows : List α} (hfew : rows.length ≤ maxNumber) (k : Nat)
    {size : Nat} (hsize : 0 < size) :
    cut rows (ofPage? k size) = (rows.drop (k * size)).take size := by
  have hbefore : rowsBefore k size = (k * size : Nat) := by
    rw [rowsBefore, Int.max_eq_left (Int.natCast_nonneg k),
      Int.max_eq_left (Int.natCast_nonneg size), Int.natCast_mul]
  rw [ofPage?, if_pos (Int.natCast_pos.2 hsize), hbefore]
  change (rows.drop (min ((k * size : Nat) : Int) maxNumber).toNat).take (size : Int).toNat = _
  rw [Int.toNat_natCast]
  by_cases hfar : ((k * size : Nat) : Int) ≤ maxNumber
  · rw [Int.min_eq_left hfar, Int.toNat_natCast]
  · have hend : rows.length ≤ maxNumber.toNat := Int.le_toNat (by decide) |>.2 hfew
    rw [Int.min_eq_right (Int.le_of_lt (Int.not_le.1 hfar)), List.drop_eq_nil_of_le hend,
      List.drop_eq_nil_of_le (by lia)]

theorem rowsBefore_nonneg (k size : Int) : 0 ≤ rowsBefore k size :=
  Int.mul_nonneg (Int.le_max_right k 0) (Int.le_max_right size 0)

theorem toNat_zero_sub_rowsBefore (k size : Int) :
    ((0 : Nat) - min (rowsBefore k size) maxNumber).toNat = 0 := by
  have hbefore := rowsBefore_nonneg k size
  have hlargest : 0 ≤ maxNumber := by decide
  omega

theorem length_cut {α : Type} {rows : List α} (hfew : rows.length ≤ maxNumber) (k size : Int) :
    ((cut rows (ofPage? k size)).length : Int) =
      if 0 < size then min size (max 0 (rows.length - rowsBefore k size)) else rows.length := by
  unfold ofPage?
  split
  next hsize =>
    have hbefore := rowsBefore_nonneg k size
    change (((rows.drop (min (rowsBefore k size) maxNumber).toNat).take size.toNat).length : Int) = _
    rw [List.length_take, List.length_drop]
    omega
  next => rfl

theorem flatMap_pages {α : Type} (rows : List α) (size n : Nat) :
    (List.range n).flatMap (fun i => (rows.drop (i * size)).take size) = rows.take (n * size) := by
  induction n with
  | zero => rw [Nat.zero_mul, List.take_zero]; rfl
  | succ n ih =>
    rw [List.range_succ, List.flatMap_append, ih, List.flatMap_singleton, Nat.succ_mul,
      List.take_add]

end Slice

theorem forall₂_mergeSort {α : Type} {R : α → α → Prop} {le : α → α → Bool}
    (hle : ∀ a a' b b', R a a' → R b b' → le a b = le a' b') {l k : List α}
    (h : List.Forall₂ R l k) : List.Forall₂ R (l.mergeSort le) (k.mergeSort le) := by
  obtain ⟨hlength, hzip⟩ := List.forall₂_iff_zip.1 h
  have hfirst : (l.zip k).map (·.1) = l := List.map_fst_zip (Nat.le_of_eq hlength)
  have hsecond : (l.zip k).map (·.2) = k := List.map_snd_zip (Nat.le_of_eq hlength.symm)
  have hsorted := List.map_mergeSort (l := l.zip k) (r := fun x y => le x.1 y.1)
    (f := (·.1)) fun _ _ _ _ => rfl
  have hsorted' := List.map_mergeSort (l := l.zip k) (r := fun x y => le x.1 y.1) (s := le)
    (f := (·.2)) fun x hx y hy => hle _ _ _ _ (hzip hx) (hzip hy)
  rw [hfirst] at hsorted
  rw [hsecond] at hsorted'
  rw [← hsorted, ← hsorted', List.forall₂_map_left_iff, List.forall₂_map_right_iff,
    List.forall₂_same]
  intro z hz
  exact hzip ((List.mergeSort_perm _ _).mem_iff.1 hz)

theorem filter_append_split {α : Type} {p : α → Bool} {l k : List α} (hl : ∀ a ∈ l, p a)
    (hk : ∀ a ∈ k, p a = false) : (l ++ k).filter p = l := by
  rw [List.filter_append, List.filter_eq_self.2 hl,
    List.filter_eq_nil_iff.2 fun a ha => Bool.eq_false_iff.1 (hk a ha), List.append_nil]

section Stable

variable {α : Type} {le : α → α → Bool}
variable (htrans : ∀ a b c, le a b → le b c → le a c) (htotal : ∀ a b, le a b || le b a)

include htrans htotal

theorem mergeSort_cons_split (a : α) (l : List α) : ∃ l₁ l₂,
    (a :: l).mergeSort le = l₁ ++ a :: l₂ ∧ l.mergeSort le = l₁ ++ l₂ ∧
      (∀ b ∈ l₁, (!le a b) = true) ∧ ∀ b ∈ l₂, (!le a b) = false := by
  obtain ⟨l₁, l₂, hcons, hrest, hbefore⟩ := List.mergeSort_cons htrans htotal a l
  refine ⟨l₁, l₂, hcons, hrest, hbefore, fun b hb => ?_⟩
  have hsorted := List.pairwise_mergeSort htrans htotal (a :: l)
  rw [hcons] at hsorted
  rw [(List.pairwise_cons.1 (List.pairwise_append.1 hsorted).2.1).1 b hb]
  rfl

/-- The sort keeps elements that compare alike in their order, so that some may as well be taken out
before it. -/
theorem filter_mergeSort (p : α → Bool) (l : List α) :
    (l.mergeSort le).filter p = (l.filter p).mergeSort le := by
  induction l with
  | nil => rw [List.filter_nil, List.mergeSort_nil, List.filter_nil]
  | cons a l ih =>
    obtain ⟨l₁, l₂, hcons, hrest, hbefore, hafter⟩ := mergeSort_cons_split htrans htotal a l
    rw [hrest, List.filter_append] at ih
    rw [hcons, List.filter_append]
    cases ha : p a with
    | false =>
      rw [List.filter_cons_of_neg (Bool.eq_false_iff.1 ha), ih,
        List.filter_cons_of_neg (Bool.eq_false_iff.1 ha)]
    | true =>
      obtain ⟨k₁, k₂, hcons', hrest', hbefore', hafter'⟩ :=
        mergeSort_cons_split htrans htotal a (l.filter p)
      rw [hrest'] at ih
      -- Both lists are split where the elements begin that the new one stands before.
      have hfirst := congrArg (List.filter fun b => !le a b) ih
      rw [filter_append_split (fun b hb => hbefore b (List.mem_of_mem_filter hb))
          fun b hb => hafter b (List.mem_of_mem_filter hb),
        filter_append_split hbefore' hafter'] at hfirst
      rw [hfirst, List.append_cancel_left_eq] at ih
      rw [List.filter_cons_of_pos ha, List.filter_cons_of_pos ha, hcons', hfirst, ih]

end Stable

/-- Of two comments that were made in the same second the one with the smaller id is earlier. -/
def StoredComment.EarlierThan (a b : StoredComment) : Prop :=
  a.timeCreated.seconds < b.timeCreated.seconds ∨
    a.timeCreated.seconds = b.timeCreated.seconds ∧ a.id < b.id

def SortOrder.arrange (order : SortOrder) (rows : List StoredComment) : List StoredComment :=
  match order with
  | .ascending => rows
  | .descending => rows.reverse

namespace Store

theorem perm_sorted (rows : List StoredComment) (order : SortOrder) :
    (sorted rows order).Perm rows := by
  cases order with
  | ascending => exact List.mergeSort_perm _ _
  | descending => exact List.mergeSort_perm _ _

theorem select_perm (s : Store) (f : Selection) (order : SortOrder) :
    (s.select f order none).Perm (s.comments.filter f.covers) :=
  perm_sorted _ order

theorem length_select (s : Store) (f : Selection) (order : SortOrder) :
    (s.select f order none).length = s.countSelected f := by
  rw [(s.select_perm f order).length_eq, countSelected, List.countP_eq_length_filter]

theorem precedes_iff {a b : StoredComment} : precedes a b ↔
    a.timeCreated.seconds < b.timeCreated.seconds ∨
      a.timeCreated.seconds = b.timeCreated.seconds ∧ a.id ≤ b.id := by
  simp only [precedes, Bool.or_eq_true, Bool.and_eq_true, decide_eq_true_eq, beq_iff_eq]

theorem precedes_trans (a b c : StoredComment) (hab : precedes a b) (hbc : precedes b c) :
    precedes a c := by
  rw [precedes_iff] at hab hbc ⊢
  lia

theorem precedes_total (a b : StoredComment) : precedes a b || precedes b a := by
  rw [Bool.or_eq_true, precedes_iff, precedes_iff]
  lia

theorem filter_sorted (p : StoredComment → Bool) (rows : List StoredComment) (order : SortOrder) :
    (sorted rows order).filter p = sorted (rows.filter p) order := by
  cases order with
  | ascending => exact filter_mergeSort precedes_trans precedes_total p rows
  | descending =>
    exact filter_mergeSort (fun a b c hab hbc => precedes_trans c b a hbc hab)
      (fun a b => precedes_total b a) p rows

theorem pairwise_sorted (rows : List StoredComment) :
    (sorted rows .ascending).Pairwise fun a b => precedes a b :=
  List.pairwise_mergeSort precedes_trans precedes_total rows

/-- The order is strict where no id stands twice, so that it can be read from either end. -/
theorem sorted_descending {rows : List StoredComment} (hids : (rows.map (·.id)).Nodup) :
    sorted rows .descending = (sorted rows .ascending).reverse := by
  have hflip (a b : StoredComment) : precedes b a || precedes a b := precedes_total b a
  refine @List.Perm.eq_of_pairwise _ (fun a b => precedes b a) _ _ ?_
    (List.pairwise_mergeSort (fun a b c hab hbc => precedes_trans c b a hbc hab) hflip rows)
    (List.pairwise_reverse.2 (pairwise_sorted rows))
    ((perm_sorted rows .descending).trans
      ((List.reverse_perm _).trans (perm_sorted rows .ascending)).symm)
  intro a b ha hb hba hab
  rw [precedes_iff] at hab hba
  refine List.inj_on_of_nodup_map hids ((perm_sorted rows .descending).mem_iff.1 ha) ?_ (by lia)
  exact (perm_sorted rows .ascending).mem_iff.1 (List.mem_reverse.1 hb)

theorem pairwise_earlier {rows : List StoredComment} (hids : (rows.map (·.id)).Nodup) :
    (sorted rows .ascending).Pairwise StoredComment.EarlierThan := by
  have hsorted : ((sorted rows .ascending).map (·.id)).Nodup :=
    ((perm_sorted rows .ascending).map _).nodup_iff.2 hids
  refine ((pairwise_sorted rows).and (List.pairwise_map.1 hsorted)).imp ?_
  rintro a b ⟨hle, hne⟩
  rw [precedes_iff] at hle
  rcases hle with hlt | ⟨heq, hle⟩
  · exact .inl hlt
  · exact .inr ⟨heq, Int.lt_iff_le_and_ne.2 ⟨hle, hne⟩⟩

theorem covers_of_mem_select {s : Store} {f : Selection} {order : SortOrder}
    {page : Option Slice} {r : StoredComment} (h : r ∈ s.select f order page) :
    r ∈ s.comments ∧ f.covers r :=
  List.mem_filter.1 ((perm_sorted _ order).mem_iff.1 (Slice.mem_of_mem_cut h))

end Store

end Discussion
