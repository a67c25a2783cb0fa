namespace Discussion

/-- What a component allows in one of its comment areas. -/
structure AreaOptions where
  allowReplies : Bool := false
  allowUpvotes : Bool := true
  allowRealname : Bool := true
  allowPseudonym : Bool := false
  allowSubscriptions : Bool := true
deriving DecidableEq, Repr, Inhabited

end Discussion
