namespace Discussion

/-- Values under distinct text keys, in increasing order of the keys. -/
abbrev Dictionary (α : Type) := List (String × α)

namespace Dictionary

variable {α β : Type}

def find? (d : Dictionary α) (key : String) : Option α :=
  (List.find? (fun e => e.1 == key) d).map (·.2)

/-- Sets the value under a key; an earlier value under the key is replaced. -/
def insert (d : Dictionary α) (key : String) (value : α) : Dictionary α :=
  match d with
  | [] => [(key, value)]
  | (k, v) :: rest =>
    if key < k then (key, value) :: (k, v) :: rest
    else if key = k then (key, value) :: rest
    else (k, v) :: insert rest key value

def erase (d : Dictionary α) (key : String) : Dictionary α :=
  List.filter (fun e => e.1 != key) d

/-- Of several values under one key the last one stays. -/
def ofList (entries : List (String × α)) : Dictionary α :=
  entries.foldl (fun d e => d.insert e.1 e.2) []

/-- Adds the entries of `e`; where both have a key, the value of `e` stays. -/
def extend (d e : Dictionary α) : Dictionary α :=
  List.foldl (fun d x => insert d x.1 x.2) d e

/-- The keys increase strictly, so that no key stands twice. -/
def Ordered (d : Dictionary α) : Prop :=
  List.Pairwise (fun a b => a.1 < b.1) d

theorem find?_cons (k : String) (v : α) (d : Dictionary α) (key : String) :
    find? ((k, v) :: d) key = if k = key then some v else d.find? key := by
  rw [find?, List.find?_cons]
  by_cases h : k = key
  · rw [if_pos h, beq_iff_eq.2 h]
    rfl
  · rw [if_neg h, beq_false_of_ne h]
    rfl

theorem find?_insert (d : Dictionary α) (key : String) (value : α) (k : String) :
    (d.insert key value).find? k = if key = k then some value else d.find? k := by
  induction d with
  | nil => exact find?_cons key value [] k
  | cons e rest ih =>
    obtain ⟨k₁, v⟩ := e
    unfold insert
    split
    · exact find?_cons key value _ k
    · split
      next heq =>
        rw [find?_cons, find?_cons, heq]
        split
        · rfl
        · rfl
      next hne =>
        rw [find?_cons, find?_cons, ih]
        split
        next hk => rw [if_neg fun h => hne (h.trans hk.symm)]
        · rfl

theorem insert_ne_nil (d : Dictionary α) (key : String) (value : α) :
    d.insert key value ≠ [] := by
  unfold insert
  split
  · exact List.cons_ne_nil _ _
  · split
    · exact List.cons_ne_nil _ _
    · split <;> exact List.cons_ne_nil _ _

theorem mem_of_mem_insert {d : Dictionary α} {key : String} {value : α} {e : String × α}
    (h : e ∈ d.insert key value) : e = (key, value) ∨ e ∈ d := by
  induction d with
  | nil => exact .inl (List.mem_singleton.1 h)
  | cons first rest ih =>
    unfold insert at h
    split at h
    · exact List.mem_cons.1 h
    · split at h
      · exact (List.mem_cons.1 h).imp id (List.mem_cons_of_mem first)
      · rcases List.mem_cons.1 h with rfl | hmem
        · exact .inr List.mem_cons_self
        · exact (ih hmem).imp id (List.mem_cons_of_mem first)

end Dictionary

end Discussion
