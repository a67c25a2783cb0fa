import Discussion.Json.Reader
import Discussion.Proofs.FloatText
import Discussion.Proofs.JsonText

namespace Discussion.Json

/-- What a float is read as from its text. What is no number is written as null. -/
def rereadFloat (x : Float) : Json :=
  (ofNumberChars (numberLayout.float x)).getD .null

mutual

/-- What a value is read as from its text. -/
def reread : Json → Json
  | .float x => rereadFloat x
  | .list items => .list (rereadItems items)
  | .object fields => .object (rereadFields fields [])
  | j => j
termination_by structural j => j

def rereadItems : List Json → List Json
  | [] => []
  | j :: rest => reread j :: rereadItems rest
termination_by structural items => items

/-- Fields are read one after another and put in order. -/
def rereadFields : List (String × Json) → Fields → Fields
  | [], read => read
  | (k, j) :: rest, read => rereadFields rest (Dictionary.insert read k (reread j))
termination_by structural fields => fields

end

mutual

/-- The integers of a value are read as integers. -/
def Bounded : Json → Prop
  | .int n => minInteger ≤ n ∧ n ≤ maxInteger
  | .list items => BoundedItems items
  | .object fields => BoundedFields fields
  | _ => True
termination_by structural j => j

def BoundedItems : List Json → Prop
  | [] => True
  | j :: rest => Bounded j ∧ BoundedItems rest
termination_by structural items => items

def BoundedFields : List (String × Json) → Prop
  | [] => True
  | (_, j) :: rest => Bounded j ∧ BoundedFields rest
termination_by structural fields => fields

end

mutual

/-- The tokens of a value's text. -/
def tokensOf : Json → List Token
  | .list items => .listOpen :: itemTokens items
  | .object fields => .objectOpen :: fieldTokens fields
  | j => [.scalar j.reread]
termination_by structural j => j

def itemTokens : List Json → List Token
  | [] => [.listClose]
  | j :: rest => tokensOf j ++ moreItemTokens rest
termination_by structural items => items

def moreItemTokens : List Json → List Token
  | [] => [.listClose]
  | j :: rest => .comma :: tokensOf j ++ moreItemTokens rest
termination_by structural items => items

def fieldTokens : List (String × Json) → List Token
  | [] => [.objectClose]
  | (k, j) :: rest => .scalar (.text k) :: .colon :: tokensOf j ++ moreFieldTokens rest
termination_by structural fields => fields

def moreFieldTokens : List (String × Json) → List Token
  | [] => [.objectClose]
  | (k, j) :: rest =>
    .comma :: .scalar (.text k) :: .colon :: tokensOf j ++ moreFieldTokens rest
termination_by structural fields => fields

end

theorem tokens_float (x : Float) {rest : List Char} (hrest : EndsNumber rest) :
    tokens (numberLayout.float x ++ rest) = (tokens rest).map (.scalar (rereadFloat x) :: ·) := by
  have hnull (h : numberLayout.float x = ['n', 'u', 'l', 'l']) :
      tokens (numberLayout.float x ++ rest) = (tokens rest).map (.scalar (rereadFloat x) :: ·) := by
    rw [rereadFloat, h]
    exact tokens_null rest
  cases hnan : x.isNaN with
  | true => exact hnull (by rw [Decimal.Layout.float, hnan]; rfl)
  | false =>
    cases hinf : x.isInf with
    | true =>
      apply hnull
      rw [Decimal.Layout.float, hnan, hinf]
      simp only [Bool.false_eq_true, ↓reduceIte]
      split <;> rfl
    | false =>
      obtain ⟨t, hvalid, hchars, y, hy⟩ := float_parts hnan hinf
      rw [rereadFloat, ← hchars, hy,
        tokens_number hvalid.toChars_ne_nil (fun c hc => hvalid.isNumberChar hc) hrest, hy]
      rfl

theorem tokens_int {n : Int} (hmin : minInteger ≤ n) (hmax : n ≤ maxInteger) {rest : List Char}
    (hrest : EndsNumber rest) :
    tokens (Text.integerDigits n ++ rest) = (tokens rest).map (.scalar (.int n) :: ·) := by
  have hvalid := NumberText.valid_ofInt n
  have hread := ofNumberChars_integerDigits hmin hmax
  rw [← NumberText.toChars_ofInt] at hread ⊢
  rw [tokens_number hvalid.toChars_ne_nil (fun c hc => hvalid.isNumberChar hc) hrest, hread]
  rfl

theorem endsNumber_renderMoreItems (items : List Json) (rest : List Char) :
    EndsNumber (renderMoreItems items ++ ']' :: rest) := by
  cases items with
  | nil => exact .cons rfl rest
  | cons j items => exact .cons rfl _

theorem endsNumber_renderMoreFields (fields : List (String × Json)) (rest : List Char) :
    EndsNumber (renderMoreFields fields ++ '\x7d' :: rest) := by
  cases fields with
  | nil => exact .cons rfl rest
  | cons e fields => exact .cons rfl _

mutual

theorem tokens_render : ∀ (j : Json), j.Bounded → ∀ {rest : List Char}, EndsNumber rest →
    tokens (render j ++ rest) = (tokens rest).map (tokensOf j ++ ·)
  | .null, _, rest, _ => tokens_null rest
  | .bool true, _, rest, _ => tokens_true rest
  | .bool false, _, rest, _ => tokens_false rest
  | .int _, hj, _, hrest => tokens_int hj.1 hj.2 hrest
  | .float x, _, _, hrest => tokens_float x hrest
  | .text s, _, rest, _ => tokens_renderText s rest
  | .list items, hj, rest, _ => by
    rw [render, List.cons_append, List.cons_append, List.append_assoc, tokens_mark .listOpen]
    change (tokens (renderItems items ++ ']' :: rest)).map _ = _
    rw [tokens_renderItems items hj, Option.map_map]
    rfl
  | .object fields, hj, rest, _ => by
    rw [render, List.cons_append, List.cons_append, List.append_assoc, tokens_mark .objectOpen]
    change (tokens (renderFields fields ++ '\x7d' :: rest)).map _ = _
    rw [tokens_renderFields fields hj, Option.map_map]
    rfl

theorem tokens_renderItems : ∀ (items : List Json), BoundedItems items → ∀ {rest : List Char},
    tokens (renderItems items ++ ']' :: rest) = (tokens rest).map (itemTokens items ++ ·)
  | [], _, rest => tokens_mark .listClose rest
  | j :: items, h, rest => by
    rw [renderItems, List.append_assoc, tokens_render j h.1 (endsNumber_renderMoreItems items rest),
      tokens_renderMoreItems items h.2, Option.map_map]
    simp only [Function.comp_def, itemTokens, List.append_assoc]

theorem tokens_renderMoreItems : ∀ (items : List Json), BoundedItems items →
    ∀ {rest : List Char},
      tokens (renderMoreItems items ++ ']' :: rest) = (tokens rest).map (moreItemTokens items ++ ·)
  | [], _, rest => tokens_mark .listClose rest
  | j :: items, h, rest => by
    rw [renderMoreItems, List.append_assoc, List.cons_append, tokens_mark .comma,
      tokens_render j h.1 (endsNumber_renderMoreItems items rest),
      tokens_renderMoreItems items h.2, Option.map_map, Option.map_map]
    simp only [Function.comp_def, moreItemTokens, List.append_assoc, List.cons_append]

theorem tokens_renderFields : ∀ (fields : List (String × Json)), BoundedFields fields →
    ∀ {rest : List Char},
      tokens (renderFields fields ++ '\x7d' :: rest) = (tokens rest).map (fieldTokens fields ++ ·)
  | [], _, rest => tokens_mark .objectClose rest
  | (k, j) :: fields, h, rest => by
    rw [renderFields, List.append_assoc, List.append_assoc, tokens_renderText, List.cons_append,
      tokens_mark .colon, tokens_render j h.1 (endsNumber_renderMoreFields fields rest),
      tokens_renderMoreFields fields h.2, Option.map_map, Option.map_map, Option.map_map]
    simp only [Function.comp_def, fieldTokens, List.append_assoc, List.cons_append]

theorem tokens_renderMoreFields : ∀ (fields : List (String × Json)), BoundedFields fields →
    ∀ {rest : List Char}, tokens (renderMoreFields fields ++ '\x7d' :: rest) =
      (tokens rest).map (moreFieldTokens fields ++ ·)
  | [], _, rest => tokens_mark .objectClose rest
  | (k, j) :: fields, h, rest => by
    rw [renderMoreFields, List.append_assoc, List.append_assoc, List.cons_append,
      tokens_mark .comma, tokens_renderText, List.cons_append, tokens_mark .colon,
      tokens_render j h.1 (endsNumber_renderMoreFields fields rest),
      tokens_renderMoreFields fields h.2, Option.map_map, Option.map_map, Option.map_map,
      Option.map_map]
    simp only [Function.comp_def, moreFieldTokens, List.append_assoc, List.cons_append]

end

theorem run_cons {e next : Expected} {t : Token} (h : e.step t = some next) (ts : List Token) :
    e.run (t :: ts) = next.run ts := by
  rw [Expected.run, h]
  rfl

theorem run_firstItem (j : Json) (outer : List Frame) (ts : List Token) :
    (Expected.firstItem outer).run (tokensOf j ++ ts) =
      (Expected.value (.list [] :: outer)).run (tokensOf j ++ ts) := by
  cases j <;> rfl

theorem mayOpen_of_depth {outer : List Frame} {depth : Nat}
    (h : depth + 1 + outer.length ≤ maxDepth) :
    mayOpen outer = true :=
  decide_eq_true (by omega)

mutual

theorem run_tokensOf : ∀ (j : Json) (outer : List Frame), j.depth + outer.length ≤ maxDepth →
    ∀ ts, (Expected.value outer).run (tokensOf j ++ ts) = (complete j.reread outer).run ts
  | .null, _, _, _ | .bool _, _, _, _ | .int _, _, _, _ => rfl
  | .float _, _, _, _ | .text _, _, _, _ => rfl
  | .list items, outer, h, ts => by
    have hopen : (Expected.value outer).step .listOpen = some (.firstItem outer) :=
      if_pos (mayOpen_of_depth h)
    rw [tokensOf, List.cons_append, run_cons hopen]
    exact run_itemTokens items outer h ts
  | .object fields, outer, h, ts => by
    have hopen : (Expected.value outer).step .objectOpen = some (.firstKey outer) :=
      if_pos (mayOpen_of_depth h)
    rw [tokensOf, List.cons_append, run_cons hopen]
    exact run_fieldTokens fields outer h ts

theorem run_itemTokens : ∀ (items : List Json) (outer : List Frame),
    depthItems items + 1 + outer.length ≤ maxDepth → ∀ ts,
      (Expected.firstItem outer).run (itemTokens items ++ ts) =
        (complete (.list (rereadItems items)) outer).run ts
  | [], _, _, _ => rfl
  | j :: items, outer, h, ts => by
    rw [depthItems] at h
    rw [itemTokens, List.append_assoc, run_firstItem,
      run_tokensOf j _ (by rw [List.length_cons]; omega)]
    exact run_moreItemTokens items [j.reread] outer (by omega) ts

theorem run_moreItemTokens : ∀ (items read : List Json) (outer : List Frame),
    depthItems items + 1 + outer.length ≤ maxDepth → ∀ ts,
      (Expected.afterItem read outer).run (moreItemTokens items ++ ts) =
        (complete (.list (read.reverse ++ rereadItems items)) outer).run ts
  | [], read, outer, _, ts => by
    rw [rereadItems, List.append_nil]
    rfl
  | j :: items, read, outer, h, ts => by
    rw [depthItems] at h
    rw [moreItemTokens, List.cons_append, List.cons_append, List.append_assoc, run_cons rfl,
      run_tokensOf j _ (by rw [List.length_cons]; omega)]
    refine (run_moreItemTokens items (j.reread :: read) outer (by omega) ts).trans ?_
    rw [List.reverse_cons, List.append_assoc]
    rfl

theorem run_fieldTokens : ∀ (fields : List (String × Json)) (outer : List Frame),
    depthFields fields + 1 + outer.length ≤ maxDepth → ∀ ts,
      (Expected.firstKey outer).run (fieldTokens fields ++ ts) =
        (complete (.object (rereadFields fields [])) outer).run ts
  | [], _, _, _ => rfl
  | (k, j) :: fields, outer, h, ts => by
    rw [depthFields] at h
    simp only [fieldTokens, List.cons_append, List.append_assoc]
    rw [run_cons rfl, run_cons rfl, run_tokensOf j _ (by rw [List.length_cons]; omega)]
    exact run_moreFieldTokens fields _ outer (by omega) ts

theorem run_moreFieldTokens : ∀ (fields : List (String × Json)) (read : Fields)
    (outer : List Frame), depthFields fields + 1 + outer.length ≤ maxDepth → ∀ ts,
      (Expected.afterField read outer).run (moreFieldTokens fields ++ ts) =
        (complete (.object (rereadFields fields read)) outer).run ts
  | [], _, _, _, _ => rfl
  | (k, j) :: fields, read, outer, h, ts => by
    rw [depthFields] at h
    simp only [moreFieldTokens, List.cons_append, List.append_assoc]
    rw [run_cons rfl, run_cons rfl, run_cons rfl,
      run_tokensOf j _ (by rw [List.length_cons]; omega)]
    exact run_moreFieldTokens fields _ outer (by omega) ts

end

/-- A written value is read again, with floats as they are written and fields in order. -/
theorem parse_write {j : Json} (hj : j.Bounded) (hdepth : j.depth ≤ maxDepth) :
    parse (write j) = some j.reread := by
  have htokens : tokens (render j) = some (tokensOf j) := by
    have h := tokens_render j hj .nil
    rw [List.append_nil, tokens] at h
    rw [h, Option.map_some, List.append_nil]
  have hrun := run_tokensOf j [] hdepth []
  rw [List.append_nil] at hrun
  rw [parse, write, String.toList_ofList, htokens, Option.bind_some, ofTokens, hrun]
  rfl

end Discussion.Json
