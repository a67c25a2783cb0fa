import Discussion.Error

namespace Discussion

/-- Comments are ordered by the time of their creation. -/
inductive SortOrder where
  | ascending
  | descending
deriving DecidableEq, Repr, Inhabited

namespace SortOrder

def name : SortOrder → String
  | .ascending => "ASC"
  | .descending => "DESC"

def ofName (s : String) : Except Error SortOrder :=
  if s = "ASC" then pure .ascending
  else if s = "DESC" then pure .descending
  else throw (.sortDirection s)

end SortOrder

/-- So many rows after skipping so many. -/
structure Slice where
  offset : Int
  limit : Int
deriving DecidableEq, Repr

namespace Slice

/-- The rows before a page, counted exactly; a negative page is the first. -/
def rowsBefore (page size : Int) : Int :=
  max page 0 * max size 0

/-- The rows of a page. A size that is not positive sets no limit, and an offset beyond every number
is cut to the largest one. -/
def ofPage? (page size : Int) : Option Slice :=
  if 0 < size then some ⟨min (rowsBefore page size) maxNumber, size⟩ else none

/-- The rows before a page, if their count is a number. -/
def rowsBefore? (page size : Int) : Option Int :=
  if rowsBefore page size ≤ maxNumber then some (rowsBefore page size) else none

/-- The rows of a list that a page holds. -/
def cut {α : Type} (rows : List α) : Option Slice → List α
  | none => rows
  | some p => (rows.drop p.offset.toNat).take p.limit.toNat

end Slice

end Discussion
