import Discussion.CustomData
import Discussion.Proofs.JsonBounds

namespace Discussion

theorem Dictionary.insert_last {α : Type} {d : Dictionary α} {key : String}
    (h : ∀ e ∈ d, e.1 < key) (value : α) : Dictionary.insert d key value = d ++ [(key, value)] := by
  induction d with
  | nil => rfl
  | cons e rest ih =>
    obtain ⟨k, v⟩ := e
    obtain ⟨hk, hrest⟩ := List.forall_mem_cons.1 h
    rw [insert, if_neg (lt_asymm hk), if_neg hk.ne', ih hrest]
    rfl

namespace Json

mutual

/-- The fields of all objects stand in the order of their keys. -/
def Sorted : Json → Prop
  | .list items => SortedItems items
  | .object fields => Dictionary.Ordered fields ∧ SortedFields fields
  | _ => True
termination_by structural j => j

def SortedItems : List Json → Prop
  | [] => True
  | j :: rest => Sorted j ∧ SortedItems rest
termination_by structural items => items

def SortedFields : List (String × Json) → Prop
  | [] => True
  | (_, j) :: rest => Sorted j ∧ SortedFields rest
termination_by structural fields => fields

end

mutual

/-- All numbers are integers. -/
def isWhole : Json → Bool
  | .float _ => false
  | .list items => areWhole items
  | .object fields => haveWhole fields
  | _ => true
termination_by structural j => j

def areWhole : List Json → Bool
  | [] => true
  | j :: rest => isWhole j && areWhole rest
termination_by structural items => items

def haveWhole : List (String × Json) → Bool
  | [] => true
  | (_, j) :: rest => isWhole j && haveWhole rest
termination_by structural fields => fields

end

theorem sortedItems_iff (items : List Json) : SortedItems items ↔ ∀ j ∈ items, j.Sorted := by
  induction items with
  | nil => exact ⟨fun _ _ h => (nomatch h), fun _ => trivial⟩
  | cons j items ih => rw [SortedItems, List.forall_mem_cons, ih]

theorem sortedFields_iff (fields : List (String × Json)) :
    SortedFields fields ↔ ∀ e ∈ fields, e.2.Sorted := by
  induction fields with
  | nil => exact ⟨fun _ _ h => (nomatch h), fun _ => trivial⟩
  | cons e fields ih => rw [SortedFields, List.forall_mem_cons, ih]

theorem sorted_hereditary : Hereditary fun _ j => j.Sorted where
  scalar := by
    intro _ j h
    cases j with
    | list | object => exact absurd h.depth (Nat.not_succ_le_zero _)
    | _ => trivial
  list := (sortedItems_iff _).2
  object := fun hordered hfields => ⟨hordered, (sortedFields_iff _).2 hfields⟩

mutual

theorem reread_eq : ∀ j : Json, j.Sorted → j.isWhole → j.reread = j
  | .null, _, _ | .bool _, _, _ | .int _, _, _ | .text _, _, _ => rfl
  | .float _, _, hwhole => nomatch hwhole
  | .list items, hsorted, hwhole => congrArg list (rereadItems_eq items hsorted hwhole)
  | .object fields, hsorted, hwhole =>
    congrArg object (rereadFields_eq fields [] hsorted.1 hsorted.2 hwhole)

theorem rereadItems_eq : ∀ items : List Json, SortedItems items → areWhole items →
    rereadItems items = items
  | [], _, _ => rfl
  | j :: items, hsorted, hwhole => by
    obtain ⟨hj, hitems⟩ := Bool.and_eq_true_iff.1 hwhole
    rw [rereadItems, reread_eq j hsorted.1 hj, rereadItems_eq items hsorted.2 hitems]

theorem rereadFields_eq : ∀ (fields : List (String × Json)) (read : Fields),
    Dictionary.Ordered (read ++ fields) → SortedFields fields → haveWhole fields →
      rereadFields fields read = read ++ fields
  | [], read, _, _, _ => (List.append_nil read).symm
  | (k, j) :: fields, read, hordered, hsorted, hwhole => by
    obtain ⟨hj, hfields⟩ := Bool.and_eq_true_iff.1 hwhole
    have hlast : ∀ e ∈ read, e.1 < k := fun e he =>
      (List.pairwise_append.1 hordered).2.2 e he (k, j) List.mem_cons_self
    rw [List.append_cons] at hordered
    rw [rereadFields, reread_eq j hsorted.1 hj, Dictionary.insert_last hlast,
      rereadFields_eq fields _ hordered hsorted.2 hfields, ← List.append_cons]

end

/-- Ordered fields without floats are written so that they are read as they were. -/
theorem parseObject_write_of_sorted {fields : Fields} (hfits : (object fields).Fits maxDepth)
    (hsorted : (object fields).Sorted) (hwhole : haveWhole fields) :
    parseObject (write (.object fields)) = some fields := by
  rw [parseObject, parse_write hfits.bounded hfits.depth, reread_eq _ hsorted hwhole]

theorem parseObject_write_eq {text : String} {fields : Fields}
    (h : parseObject text = some fields) (hwhole : haveWhole fields) :
    parseObject (write (.object fields)) = some fields := by
  unfold parseObject at h
  split at h
  next read hread =>
    obtain rfl := Option.some.inj h
    exact parseObject_write_of_sorted (holds_parse fits_hereditary hread)
      (holds_parse sorted_hereditary hread) hwhole
  · cases h

end Json

theorem Json.not_isBlankText_write (fields : Fields) :
    Text.isBlankText (write (.object fields)) = false := by
  rw [Text.isBlankText, write, String.toList_ofList]
  rfl

namespace CustomData

theorem fieldsOf_textOf_of_parse {entries : Json.Fields}
    (h : Json.parseObject (Json.write (.object entries)) = some entries) :
    fieldsOf (textOf entries) = .ok entries := by
  cases entries with
  | nil => rfl
  | cons entry rest =>
    rw [show textOf (entry :: rest) = Json.write (.object (entry :: rest)) from rfl, fieldsOf,
      Json.not_isBlankText_write, h]
    rfl

theorem fieldsOf_textOf_eq {json : String} {entries : Json.Fields}
    (h : fieldsOf json = .ok entries) (hwhole : Json.haveWhole entries) :
    fieldsOf (textOf entries) = .ok entries := by
  unfold fieldsOf at h
  split at h
  · cases h
    rfl
  · split at h
    next fields hread =>
      obtain rfl := Except.ok.inj h
      exact fieldsOf_textOf_of_parse (Json.parseObject_write_eq hread hwhole)
    · cases h

end CustomData

end Discussion
