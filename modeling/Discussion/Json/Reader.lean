import Discussion.Json.Token

namespace Discussion.Json

/-- A container that is still open around the value being read: a list with its items so far, the
last one first, or an object with its fields so far and the key whose value comes next. -/
inductive Frame where
  | list (items : List Json)
  | field (fields : Fields) (key : String)

/-- What may come next in a text, with the open containers around it from the inside out. -/
inductive Expected where
  | value (outer : List Frame)
  | firstItem (outer : List Frame)
  | firstKey (outer : List Frame)
  | nextKey (fields : Fields) (outer : List Frame)
  | colon (fields : Fields) (key : String) (outer : List Frame)
  | afterItem (items : List Json) (outer : List Frame)
  | afterField (fields : Fields) (outer : List Frame)
  | nothing (value : Json)

/-- A value is complete and goes into the container around it. -/
def complete (value : Json) : List Frame → Expected
  | [] => .nothing value
  | .list items :: outer => .afterItem (value :: items) outer
  | .field fields key :: outer => .afterField (Dictionary.insert fields key value) outer

/-- A container may open while fewer than the most containers are open. -/
def mayOpen (outer : List Frame) : Bool :=
  outer.length < maxDepth

def startValue (outer : List Frame) : Token → Option Expected
  | .scalar value => some (complete value outer)
  | .listOpen => if mayOpen outer then some (.firstItem outer) else none
  | .objectOpen => if mayOpen outer then some (.firstKey outer) else none
  | _ => none

def startKey (fields : Fields) (outer : List Frame) : Token → Option Expected
  | .scalar (.text key) => some (.colon fields key outer)
  | _ => none

def Expected.step : Expected → Token → Option Expected
  | .value outer, t => startValue outer t
  | .firstItem outer, .listClose => some (complete (.list []) outer)
  | .firstItem outer, t => startValue (.list [] :: outer) t
  | .firstKey outer, .objectClose => some (complete (.object []) outer)
  | .firstKey outer, t => startKey [] outer t
  | .nextKey fields outer, t => startKey fields outer t
  | .colon fields key outer, .colon => some (.value (.field fields key :: outer))
  | .afterItem items outer, .comma => some (.value (.list items :: outer))
  | .afterItem items outer, .listClose => some (complete (.list items.reverse) outer)
  | .afterField fields outer, .comma => some (.nextKey fields outer)
  | .afterField fields outer, .objectClose => some (complete (.object fields) outer)
  | _, _ => none

def Expected.run (e : Expected) : List Token → Option Expected
  | [] => some e
  | t :: rest => (e.step t).bind fun next => next.run rest

def ofTokens (ts : List Token) : Option Json :=
  match Expected.run (.value []) ts with
  | some (.nothing value) => some value
  | _ => none

/-- Reads one JSON value with blank characters around it. -/
def parse (text : String) : Option Json :=
  (tokens text.toList).bind ofTokens

/-- Reads a text that holds one object. -/
def parseObject (text : String) : Option Fields :=
  match parse text with
  | some (.object fields) => some fields
  | _ => none

end Discussion.Json
