import Discussion.Proofs.JsonExact

namespace Discussion

namespace CustomData

/-- Custom data without floats. Fields that are held as such could have been read from a text: they
are in order, within the bounds, and nested no deeper than a text may be. -/
structure IsPlain (d : CustomData) : Prop where
  whole : ∀ fields, d.toFields = .ok fields → Json.haveWhole fields
  sorted : ∀ fields, d = .fields fields → (Json.object fields).Sorted
  fits : ∀ fields, d = .fields fields → (Json.object fields).Fits Json.maxDepth

/-- The ways to read custom data. The first two hold on to the form that is read. -/
inductive Access where
  | asFields
  | asText
  | toFields
  | toText

/-- What was read, and in which way. -/
inductive Reading where
  | asFields (found : Except Error Json.Fields)
  | asText (json : String)
  | toFields (found : Except Error Json.Fields)
  | toText (json : String)

def Access.converts : Access → Bool
  | .asFields | .asText => true
  | .toFields | .toText => false

def Reading.access : Reading → Access
  | .asFields _ => .asFields
  | .asText _ => .asText
  | .toFields _ => .toFields
  | .toText _ => .toText

/-- Reads custom data in one of the ways. A malformed text stays. -/
def read : Access → StateM CustomData Reading
  | .asFields => fun d =>
    match d.asFields with
    | .ok (entries, d') => (.asFields (.ok entries), d')
    | .error e => (.asFields (.error e), d)
  | .asText => fun d => (.asText d.asText.1, d.asText.2)
  | .toFields => fun d => (.toFields d.toFields, d)
  | .toText => fun d => (.toText d.toText, d)

/-- Reads custom data several times, one after another. -/
def readAll (accesses : List Access) (d : CustomData) : List Reading × CustomData :=
  (accesses.mapM read).run d

/-- The reading is of these fields: it has found them, or a text of theirs. -/
def Reading.Means (entries : Json.Fields) : Reading → Prop
  | .asFields found | .toFields found => found = .ok entries
  | .asText json | .toText json => fieldsOf json = .ok entries

/-- The reading is of a malformed text: nothing is found but the text itself. -/
def Reading.Fails (json : String) (e : Error) : Reading → Prop
  | .asFields found | .toFields found => found = .error e
  | .asText found | .toText found => found = json

/-- The text of a reading. -/
def Reading.text? : Reading → Option String
  | .asText json | .toText json => some json
  | _ => none

variable {d d' : CustomData} {entries : Json.Fields} {accesses : List Access} {access : Access}

theorem readAll_cons (access : Access) (accesses : List Access) (d : CustomData) :
    readAll (access :: accesses) d =
      ((read access d).1 :: (readAll accesses (read access d).2).1,
        (readAll accesses (read access d).2).2) := by
  rw [readAll, List.mapM_cons]
  rfl

theorem read_asFields (h : d.toFields = .ok entries) :
    read .asFields d = (.asFields (.ok entries), .fields entries) := by
  unfold read asFields
  dsimp only
  rw [h]
  rfl

theorem read_asFields_error {e : Error} (h : d.toFields = .error e) :
    read .asFields d = (.asFields (.error e), d) := by
  unfold read asFields
  dsimp only
  rw [h]
  rfl

theorem access_read (access : Access) (d : CustomData) : (read access d).1.access = access := by
  cases access with
  | asFields =>
    cases h : d.toFields with
    | ok entries => rw [read_asFields h, Reading.access]
    | error e => rw [read_asFields_error h, Reading.access]
  | _ => rfl

theorem read_snd_of_not_converts (h : access.converts = false) : (read access d).2 = d := by
  cases access with
  | asFields | asText => cases h
  | toFields | toText => rfl

theorem IsPlain.fieldsOf_textOf (h : d.IsPlain) (hread : d.toFields = .ok entries) :
    fieldsOf (textOf entries) = .ok entries := by
  have hwhole := h.whole entries hread
  cases d with
  | text json => exact fieldsOf_textOf_eq hread hwhole
  | fields entries =>
    obtain rfl := Except.ok.inj hread
    exact fieldsOf_textOf_of_parse
      (Json.parseObject_write_of_sorted (h.fits entries rfl) (h.sorted entries rfl) hwhole)

section Means

variable (htext : fieldsOf (textOf entries) = .ok entries)

include htext

theorem read_means (hread : d.toFields = .ok entries) (access : Access) :
    (read access d).1.Means entries ∧ (read access d).2.toFields = .ok entries := by
  have hwritten : fieldsOf d.toText = .ok entries := by
    cases d with
    | text json => exact hread
    | fields held =>
      obtain rfl := Except.ok.inj hread
      exact htext
  cases access with
  | asFields =>
    rw [read_asFields hread]
    exact ⟨rfl, rfl⟩
  | asText => exact ⟨hwritten, hwritten⟩
  | toFields => exact ⟨hread, hread⟩
  | toText => exact ⟨hwritten, hread⟩

theorem readAll_means (hread : d.toFields = .ok entries) (accesses : List Access) :
    ∀ r ∈ (readAll accesses d).1, r.Means entries := by
  induction accesses generalizing d with
  | nil => exact fun _ hr => nomatch hr
  | cons access rest ih =>
    obtain ⟨hmeans, hnext⟩ := read_means htext hread access
    rw [readAll_cons]
    exact List.forall_mem_cons.2 ⟨hmeans, ih hnext⟩

theorem readAll_settled (hread : d.toFields = .ok entries) (hwritten : d.toText = textOf entries)
    (accesses : List Access) :
    ∀ r ∈ (readAll accesses d).1, ∀ json ∈ r.text?, json = textOf entries := by
  induction accesses generalizing d with
  | nil => exact fun _ hr => nomatch hr
  | cons access rest ih =>
    have hkept : (read access d).2.toText = textOf entries ∧
        ∀ json ∈ (read access d).1.text?, json = textOf entries := by
      cases access with
      | asFields =>
        rw [read_asFields hread]
        exact ⟨rfl, fun _ h => nomatch h⟩
      | asText => exact ⟨hwritten, fun _ h => Option.some.inj h ▸ hwritten⟩
      | toFields => exact ⟨hwritten, fun _ h => nomatch h⟩
      | toText => exact ⟨hwritten, fun _ h => Option.some.inj h ▸ hwritten⟩
    rw [readAll_cons]
    exact List.forall_mem_cons.2 ⟨hkept.2, ih (read_means htext hread access).2 hkept.1⟩

theorem readAll_text (hread : d.toFields = .ok entries) {earlier later : List Reading}
    {found : Json.Fields}
    (hreadings : (readAll accesses d).1 = earlier ++ .asFields (.ok found) :: later) :
    ∀ r ∈ later, ∀ json ∈ r.text?, json = textOf entries := by
  induction accesses generalizing d earlier with
  | nil => exact absurd hreadings.symm (List.append_ne_nil_of_right_ne_nil earlier (List.cons_ne_nil _ _))
  | cons access rest ih =>
    rw [readAll_cons] at hreadings
    have hnext := (read_means htext hread access).2
    cases earlier with
    | cons first earlier => exact ih hnext (List.cons.inj hreadings).2
    | nil =>
      obtain ⟨hfirst, rfl⟩ := List.cons.inj hreadings
      obtain rfl : access = .asFields := (access_read access d).symm.trans (hfirst ▸ rfl)
      refine readAll_settled htext hnext ?_ rest
      rw [read_asFields hread]
      rfl

end Means

theorem readAll_fails {json : String} {e : Error} (hread : fieldsOf json = .error e)
    (accesses : List Access) : (readAll accesses (.text json)).2 = .text json ∧
      ∀ r ∈ (readAll accesses (.text json)).1, r.Fails json e := by
  have hstep (access : Access) : (read access (.text json)).2 = .text json ∧
      (read access (.text json)).1.Fails json e := by
    cases access with
    | asFields =>
      rw [read_asFields_error (d := .text json) hread]
      exact ⟨rfl, rfl⟩
    | toFields => exact ⟨rfl, hread⟩
    | asText | toText => exact ⟨rfl, rfl⟩
  induction accesses with
  | nil => exact ⟨rfl, fun _ hr => nomatch hr⟩
  | cons access rest ih =>
    rw [readAll_cons, (hstep access).1]
    exact ⟨ih.1, List.forall_mem_cons.2 ⟨(hstep access).2, ih.2⟩⟩

theorem map_access_readAll (accesses : List Access) (d : CustomData) :
    (readAll accesses d).1.map Reading.access = accesses := by
  induction accesses generalizing d with
  | nil => rfl
  | cons access rest ih => rw [readAll_cons, List.map_cons, access_read, ih]

theorem readAll_filter_converts (accesses : List Access) (d : CustomData) :
    (readAll (accesses.filter Access.converts) d).2 = (readAll accesses d).2 := by
  induction accesses generalizing d with
  | nil => rfl
  | cons access rest ih =>
    rw [List.filter_cons, readAll_cons]
    split
    · rw [readAll_cons, ih]
    next h => rw [ih, read_snd_of_not_converts (Bool.not_eq_true _ ▸ h)]

/-- Custom data means the same whichever of its forms is read, and however often: all readings find the
same fields, or texts of theirs, and after the fields have been held once it is always the same text.
Where there are no fields to be found, each reading fails or finds the malformed text, which stays. Only
holding on to what is read changes the form. -/
theorem reads_alike (h : d.IsPlain) (accesses : List Access) :
    let readings := (readAll accesses d).1
    readings.map Reading.access = accesses ∧
    (readAll accesses d).2 = (readAll (accesses.filter Access.converts) d).2 ∧
    (∀ entries, d.toFields = .ok entries →
      (∀ r ∈ readings, r.Means entries) ∧
      ∀ earlier found later, readings = earlier ++ .asFields (.ok found) :: later →
        ∀ r ∈ later, ∀ json ∈ r.text?, json = textOf entries) ∧
    ∀ e, d.toFields = .error e → ∃ json, d = .text json ∧
      (readAll accesses d).2 = .text json ∧ ∀ r ∈ readings, r.Fails json e := by
  intro readings
  refine ⟨map_access_readAll accesses d, (readAll_filter_converts accesses d).symm, ?_, ?_⟩
  · intro entries hread
    have htext := h.fieldsOf_textOf hread
    exact ⟨readAll_means htext hread accesses,
      fun earlier found later hreadings => readAll_text htext hread hreadings⟩
  · intro e hread
    cases d with
    | text json => exact ⟨json, rfl, readAll_fails hread accesses⟩
    | fields entries => cases hread

/-- The later of two values of one key counts, and keys are put in order when they are written. What is
no object stays as it is. -/
theorem reads_alike_moods :
    let given := "\x7b\"b\": 1, \"a\": [2], \"b\": 3\x7d"
    let written := "\x7b\"a\":[2],\"b\":3\x7d"
    let stars : Json.Fields := [("stars", .int 3)]
    let accesses : List Access := [.toFields, .asText, .asFields, .toText, .asText, .asFields]
    (text given).IsPlain ∧
    (∃ entries, (text given).toFields = .ok entries ∧
      ∀ r ∈ (readAll accesses (text given)).1, r.Means entries) ∧
    (readAll accesses (text given)).1.filterMap Reading.text? = [given, written, written] ∧
    (fields stars).IsPlain ∧ (∀ r ∈ (readAll accesses (fields stars)).1, r.Means stars) ∧
    (text "[1, 2]").IsPlain ∧
    ∀ r ∈ (readAll accesses (text "[1, 2]")).1, r.Fails "[1, 2]" .customData := by
  intro given written stars accesses
  have hwhole : ((text given).toFields.map Json.haveWhole).toOption = some true := by
    decide +kernel
  have hwrong : (text "[1, 2]").toFields.map (fun _ => ()) = .error .customData := by
    decide +kernel
  cases hgiven : (text given).toFields with
  | error e =>
    rw [hgiven] at hwhole
    cases hwhole
  | ok entries =>
  cases hmalformed : (text "[1, 2]").toFields with
  | ok entries =>
    rw [hmalformed] at hwrong
    cases hwrong
  | error e =>
  rw [hgiven] at hwhole
  rw [hmalformed] at hwrong
  obtain rfl := Except.error.inj hwrong
  have hplain : (text given).IsPlain :=
    ⟨fun found h => Except.ok.inj (hgiven.symm.trans h) ▸ Option.some.inj hwhole,
      fun _ h => (nomatch h), fun _ h => nomatch h⟩
  have hwritten : (fields stars).IsPlain := by
    refine ⟨fun _ h => Except.ok.inj h ▸ rfl, fun _ h => fields.inj h ▸ ?_,
      fun _ h => fields.inj h ▸ ⟨?_, by decide⟩⟩
    · exact ⟨List.pairwise_singleton _ _, trivial, trivial⟩
    · exact ⟨⟨by decide, by decide⟩, trivial⟩
  have hlost : (text "[1, 2]").IsPlain :=
    ⟨fun _ h => (nomatch hmalformed.symm.trans h), fun _ h => (nomatch h), fun _ h => nomatch h⟩
  obtain ⟨_, ⟨⟩, -, hfails⟩ := (reads_alike hlost accesses).2.2.2 .customData hmalformed
  exact ⟨hplain, ⟨entries, rfl, ((reads_alike hplain accesses).2.2.1 entries hgiven).1⟩,
    by decide +kernel, hwritten, ((reads_alike hwritten accesses).2.2.1 stars rfl).1, hlost, hfails⟩

end CustomData

end Discussion
