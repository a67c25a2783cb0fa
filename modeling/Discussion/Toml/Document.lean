import Discussion.Toml.Value

namespace Discussion.Toml

/-- A header: of a table, or of a further table in a list. -/
structure Header where
  isRow : Bool
  path : List String
  key : String

/-- A header with the fields after it. -/
structure Part where
  header : Header
  body : Node.Fields

/-- Adds a part to the tables of the parts before it. -/
def Part.addTo (p : Part) (fields : Node.Fields) : Option Node.Fields :=
  let opened := if p.header.isRow then Node.openRow p.body else Node.openTable p.body
  Node.change opened fields p.header.path p.header.key

/-- What has been read of a document: the fields before the first header, and the parts after them,
the last one first. -/
structure Draft where
  fields : Node.Fields := []
  parts : List Part := []

namespace Draft

def start (d : Draft) (h : Header) : Draft :=
  { d with parts := ⟨h, []⟩ :: d.parts }

/-- Adds a field after the last header. -/
def add (d : Draft) (path : List String) (key : String) (node : Node) : Option Draft :=
  match d.parts with
  | [] => (Node.assign d.fields path key node).map fun fields => { d with fields }
  | p :: earlier =>
    (Node.assign p.body path key node).map fun body =>
      { d with parts := { p with body } :: earlier }

/-- The value of the document. Where its first field makes it a moment, no header counts. -/
def toSetting? (d : Draft) : Option Setting := do
  let fields ←
    if Node.isMomentTable d.fields then some d.fields
    else d.parts.reverse.foldlM (fun fields p => p.addTo fields) d.fields
  (Node.table true fields).toSetting?

end Draft

/-- The end of a line. -/
def lineEnd (ts : List Token) : Option (List Token) :=
  match skipBlank ts with
  | [] => some []
  | .newline :: rest => some rest
  | _ => none

/-- A header after its first bracket. The brackets of a list of tables stand close together. -/
def readHeader (ts : List Token) : Option (Header × List Token) := do
  let (isRow, ts) := match ts with
    | .listOpen :: rest => (true, rest)
    | ts => (false, ts)
  let ((path, key), ts) ← dottedKey (skipBlank ts)
  let rest ← match isRow, ts with
    | false, .listClose :: rest => some rest
    | true, .listClose :: .listClose :: rest => some rest
    | _, _ => none
  return (⟨isRow, path, key⟩, ← lineEnd rest)

/-- A line with a key and its value. -/
def readPair (ts : List Token) : Option (((List String × String) × Node) × List Token) := do
  match ← dottedKey ts with
  | (key, .equals :: rest) =>
    let (v, rest) ← value (2 * rest.length + 2) (skipBlank rest)
    return ((key, v), ← lineEnd rest)
  | _ => none

/-- Reads lines. The fuel bounds their number. -/
def readLines (fuel : Nat) (d : Draft) (ts : List Token) : Option Draft :=
  match fuel with
  | 0 => none
  | fuel + 1 =>
    match skipLines ts with
    | [] => some d
    | .listOpen :: rest => do
      let (h, rest) ← readHeader rest
      readLines fuel (d.start h) rest
    | ts => do
      let (((path, key), v), rest) ← readPair ts
      readLines fuel (← d.add path key v) rest

/-- The fields of a document. One that stands for a moment has none. -/
def read (text : String) : Option (Dictionary Setting) := do
  let ts ← tokens text
  let draft ← readLines (ts.length + 1) {} ts
  return (← draft.toSetting?).fields

end Discussion.Toml
