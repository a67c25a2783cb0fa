import Discussion.Settings.Tree
import Discussion.Toml.Moment

namespace Discussion.Toml

/-- What stands under a key while a document is read: a finished value, the characters of a moment,
a list, a table within a line, a table made by dotted keys, a table that a header has opened or only
passed through, or a list of tables whose last table is still growing. Fields stand in the order of
the document. -/
inductive Node where
  | value (v : Setting)
  | moment (chars : List Char)
  | list (items : List Node)
  | inlined (fields : List (String × Node))
  | dotted (fields : List (String × Node))
  | table (opened : Bool) (fields : List (String × Node))
  | rows (earlier : List Setting) (last : List (String × Node))

namespace Node

abbrev Fields := List (String × Node)

/-- The key of the only field that counts in a table where it stands first. The table stands for the
moment in that field. -/
def momentKey : String := "$__toml_private_datetime"

def isMomentTable (fields : Fields) : Bool :=
  fields.head?.any fun e => e.1 == momentKey

def momentSetting (chars : List Char) : Option Setting :=
  (momentText chars).map fun text => .text (String.ofList text)

/-- The value of a table whose fields have the given values, if they have any. No key of a table
stands twice. -/
def tableSetting (fields : Fields) (values : Option (List (String × Setting))) : Option Setting :=
  if isMomentTable fields then
    match fields with
    | (_, .value (.text text)) :: _ => momentSetting text.toList
    | _ => none
  else
    values.bind fun values =>
      let d := Dictionary.ofList values
      if d.length = values.length then some (.table d) else none

mutual

/-- The value of a node, unless something in it has none. -/
def toSetting? : Node → Option Setting
  | .value v => some v
  | .moment chars => momentSetting chars
  | .list items => (settings? items).map .list
  | .inlined fields => tableSetting fields (fieldSettings? fields)
  | .dotted fields => tableSetting fields (fieldSettings? fields)
  | .table _ fields => tableSetting fields (fieldSettings? fields)
  | .rows earlier last =>
    (tableSetting last (fieldSettings? last)).map fun row => .list (earlier ++ [row])
termination_by structural node => node

def settings? : List Node → Option (List Setting)
  | [] => some []
  | node :: rest =>
    match node.toSetting?, settings? rest with
    | some v, some vs => some (v :: vs)
    | _, _ => none
termination_by structural nodes => nodes

def fieldSettings? : List (String × Node) → Option (List (String × Setting))
  | [] => some []
  | (key, node) :: rest =>
    match node.toSetting?, fieldSettings? rest with
    | some v, some vs => some ((key, v) :: vs)
    | _, _ => none
termination_by structural fields => fields

end

def find? (fields : Fields) (key : String) : Option Node :=
  (List.find? (fun e => e.1 == key) fields).map (·.2)

/-- Changes the first field of a key, or adds one at the end. -/
def set (fields : Fields) (key : String) (node : Node) : Fields :=
  match fields with
  | [] => [(key, node)]
  | (k, n) :: rest => if k = key then (k, node) :: rest else (k, n) :: set rest key node

/-- Adds a value under a dotted key. Only tables made by dotted keys grow by further ones. -/
def assign (fields : Fields) (path : List String) (key : String) (node : Node) : Option Fields :=
  match path with
  | [] => some (fields ++ [(key, node)])
  | k :: rest =>
    match find? fields k with
    | none => (assign [] rest key node).map fun inner => set fields k (.dotted inner)
    | some (.dotted inner) =>
      (assign inner rest key node).map fun inner => set fields k (.dotted inner)
    | some _ => none

/-- A header opens a table once. The table may be there already because other headers have passed
through it. -/
def openTable (body : Fields) : Option Node → Option Node
  | none => some (.table true body)
  | some (.table false fields) => some (.table true (fields ++ body))
  | some _ => none

/-- A header of a list of tables starts the list, or a further table of it. -/
def openRow (body : Fields) : Option Node → Option Node
  | none => some (.rows [] body)
  | some (.rows earlier last) =>
    (tableSetting last (fieldSettings? last)).map fun row => .rows (earlier ++ [row]) body
  | some _ => none

/-- Changes the node at the end of a header's path. The path passes through tables, and through the
last table of a list, but not through a table that stands for a moment. -/
def change (f : Option Node → Option Node) (fields : Fields) (path : List String) (key : String) :
    Option Fields :=
  if isMomentTable fields then none
  else
    match path with
    | [] => (f (find? fields key)).map fun node => set fields key node
    | k :: rest =>
      match find? fields k with
      | none => (change f [] rest key).map fun inner => set fields k (.table false inner)
      | some (.table opened inner) =>
        (change f inner rest key).map fun inner => set fields k (.table opened inner)
      | some (.rows earlier last) =>
        (change f last rest key).map fun inner => set fields k (.rows earlier inner)
      | some _ => none

end Node

end Discussion.Toml
