import FleetPosture.Report.Render

/-! A reader of comma-separated values that knows quotes gets every record back, whatever its fields
contain. The reader refuses what readers take in different ways: a quote or a carriage return in a
field without quotes, anything but the end of the field behind its closing quote, an empty line, and
a line that no newline ends. What it accepts, readers that are less strict read likewise. -/

namespace FleetPosture.Report

namespace Csv

inductive Mode
  | start
  | bare
  | quoted
  | closed
deriving DecidableEq, Repr

/-- The records that are complete, the fields of the record begun and what there is of the next. -/
structure Place where
  records : List (List String)
  fields : List String
  field : List Char
  mode : Mode
deriving DecidableEq, Repr

namespace Place

def fresh (records : List (List String)) : Place := ⟨records, [], [], .start⟩

def isFresh (p : Place) : Bool := p.fields.isEmpty && p.mode == .start

def add (p : Place) (c : Char) (mode : Mode) : Place := { p with field := p.field ++ [c], mode }

def record (p : Place) : List String := p.fields ++ [String.ofList p.field]

def nextField (p : Place) : Place := ⟨p.records, p.record, [], .start⟩

def nextRecord (p : Place) : Place := fresh (p.records ++ [p.record])

end Place

def step (p : Place) (c : Char) : Option Place :=
  if p.mode = .quoted then
    if c = '"' then some { p with mode := .closed } else some (p.add c .quoted)
  else if c = ',' then some p.nextField
  else if c = '\n' then if p.isFresh then none else some p.nextRecord
  else if c = '\r' then none
  else
    match p.mode with
    | .start => if c = '"' then some { p with mode := .quoted } else some (p.add c .bare)
    | .closed => if c = '"' then some (p.add c .quoted) else none
    | _ => if c = '"' then none else some (p.add c .bare)

def read? (text : String) : Option (List (List String)) :=
  (text.toList.foldlM step (.fresh [])).bind fun p => if p.isFresh then some p.records else none

section Field

variable {p : Place} {c : Char}

theorem step_comma (h : p.mode ≠ .quoted) : step p ',' = some p.nextField := by
  simp [step, h]

theorem step_newline (h : p.mode ≠ .quoted) (begun : p.isFresh = false) :
    step p '\n' = some p.nextRecord := by
  simp [step, h, begun]

theorem step_plain (hc : isSpecial c = false) (h : p.mode = .start ∨ p.mode = .bare) :
    step p c = some (p.add c .bare) := by
  simp only [isSpecial, Bool.or_eq_false_iff, beq_eq_false_iff_ne] at hc
  obtain ⟨⟨⟨comma, quote⟩, newline⟩, carriage⟩ := hc
  rcases h with h | h <;> simp [step, h, comma, quote, newline, carriage]

theorem foldlM_plain {cs : List Char} (hcs : ∀ c ∈ cs, isSpecial c = false)
    (h : p.mode = .start ∨ p.mode = .bare) : cs.foldlM step p =
      some { p with field := p.field ++ cs, mode := if cs.isEmpty then p.mode else .bare } := by
  induction cs generalizing p with
  | nil => simp
  | cons c cs ih =>
    obtain ⟨hc, hcs⟩ := List.forall_mem_cons.1 hcs
    rw [List.foldlM_cons, step_plain hc h]
    show cs.foldlM step (p.add c .bare) = _
    rw [ih hcs (.inr rfl)]
    simp [Place.add]

def doubled (cs : List Char) : List Char := cs.flatMap fun c => if c = '"' then ['"', '"'] else [c]

theorem foldlM_doubled (cs : List Char) (h : p.mode = .quoted) :
    (doubled cs).foldlM step p = some { p with field := p.field ++ cs } := by
  induction cs generalizing p with
  | nil => simp [doubled]
  | cons c cs ih =>
    -- a quote goes through the mode behind it and back
    have head : (if c = '"' then ['"', '"'] else [c]).foldlM step p = some (p.add c .quoted) := by
      by_cases hc : c = '"' <;> simp [step, Place.add, h, hc]
    rw [doubled, List.flatMap_cons, List.foldlM_append, head]
    show (doubled cs).foldlM step (p.add c .quoted) = _
    rw [ih rfl]
    simp [Place.add, h]

theorem foldlM_fieldChars (s : String) (hfield : p.field = []) (hmode : p.mode = .start) :
    ∃ mode, (fieldChars s).foldlM step p = some { p with field := s.toList, mode } ∧
      mode ≠ .quoted ∧ (mode = .start → fieldChars s = []) := by
  unfold fieldChars
  split
  case isTrue =>
    refine ⟨.closed, ?_, by decide, fun h => nomatch h⟩
    have opened : step p '"' = some { p with mode := .quoted } := by simp [step, hmode]
    rw [List.cons_append, List.foldlM_cons, opened]
    show (doubled s.toList ++ ['"']).foldlM step { p with mode := .quoted } = _
    rw [List.foldlM_append, foldlM_doubled _ rfl]
    simp [step, hfield]
  case isFalse plain =>
    have free : ∀ c ∈ s.toList, isSpecial c = false := by simpa using plain
    refine ⟨_, by rw [foldlM_plain free (.inl hmode), hfield, List.nil_append], ?_, ?_⟩
    · split <;> simp [hmode]
    · split <;> simp_all

end Field

section Record

theorem fieldsChars_eq_nil {fields : List String} (nonempty : fields ≠ [])
    (h : fieldsChars fields = []) : fields = [""] := by
  match fields, nonempty with
  | [f], _ =>
    unfold fieldsChars fieldChars at h
    split at h
    · nomatch h
    · rw [String.toList_eq_nil_iff.1 h]
  | f :: g :: fs, _ => simp [fieldsChars] at h

theorem foldlM_fieldsChars {p : Place} {fields : List String} (nonempty : fields ≠ [])
    (hfield : p.field = []) (hmode : p.mode = .start) :
    ∃ q, (fieldsChars fields).foldlM step p = some q ∧ q.records = p.records ∧
      q.record = p.fields ++ fields ∧ q.mode ≠ .quoted ∧
      (q.isFresh → p.fields = [] ∧ fieldsChars fields = []) := by
  induction fields generalizing p with
  | nil => exact absurd rfl nonempty
  | cons f fs ih =>
    obtain ⟨mode, field, unquoted, started⟩ := foldlM_fieldChars f hfield hmode
    cases fs with
    | nil =>
      refine ⟨_, field, rfl, by simp [Place.record], unquoted, fun fresh => ?_⟩
      simp only [Place.isFresh, Bool.and_eq_true, List.isEmpty_iff, beq_iff_eq] at fresh
      exact ⟨fresh.1, started fresh.2⟩
    | cons g fs =>
      let next : Place := { p with field := f.toList, mode }.nextField
      obtain ⟨q, rest, records, record, ends, begun⟩ :=
        ih (p := next) (List.cons_ne_nil g fs) rfl rfl
      refine ⟨q, ?_, records, ?_, ends, fun fresh => ?_⟩
      · rw [fieldsChars, List.foldlM_append, field]
        show (',' :: fieldsChars (g :: fs)).foldlM step { p with field := f.toList, mode } = _
        rw [List.foldlM_cons, step_comma unquoted]
        exact rest
      · rw [record]
        simp [next, Place.nextField, Place.record]
      · exact absurd (begun fresh).1 (List.append_ne_nil_of_right_ne_nil _ (List.cons_ne_nil _ _))

theorem foldlM_recordChars {fields : List String} (nonempty : fields ≠ [])
    (records : List (List String)) :
    (recordChars fields).foldlM step (.fresh records) = some (.fresh (records ++ [fields])) := by
  unfold recordChars
  dsimp only
  split
  case isTrue empty =>
    -- one empty field, for which two quotes stand so that its line is not taken for an empty one
    rw [fieldsChars_eq_nil nonempty (List.isEmpty_iff.1 empty)]
    rfl
  case isFalse begun =>
    obtain ⟨q, line, same, record, unquoted, fresh⟩ :=
      foldlM_fieldsChars (p := .fresh records) nonempty rfl rfl
    have notFresh : q.isFresh = false :=
      Bool.eq_false_iff.2 fun h => begun (List.isEmpty_iff.2 (fresh h).2)
    rw [List.foldlM_append, line]
    show (['\n'].foldlM step q : Option Place) = _
    rw [List.foldlM_cons, step_newline unquoted notFresh, Place.nextRecord, same, record]
    rfl

end Record

theorem read?_text {records : List (List String)} (h : ∀ fields ∈ records, fields ≠ []) :
    read? (text records) = some records := by
  have run (done : List (List String)) : (records.flatMap recordChars).foldlM step (.fresh done) =
      some (.fresh (done ++ records)) := by
    induction records generalizing done with
    | nil => simp
    | cons fields records ih =>
      obtain ⟨hfields, hrecords⟩ := List.forall_mem_cons.1 h
      rw [List.flatMap_cons, List.foldlM_append, foldlM_recordChars hfields]
      show (records.flatMap recordChars).foldlM step (.fresh (done ++ [fields])) = _
      rw [ih hrecords, List.append_assoc, List.singleton_append]
  rw [read?, text, String.toList_ofList, run]
  rfl

end Csv

/-- From the comma-separated form every report is read back: its title alone, its header, its rows. -/
theorem csv_lossless (rs : List Report)
    (h : ∀ r ∈ rs, r.header ≠ [] ∧ ∀ row ∈ r.rows, row ≠ []) :
    Csv.read? (render rs .csv) = some (rs.flatMap fun r => [r.title] :: r.header :: r.rows) := by
  refine Csv.read?_text fun fields hfields => ?_
  obtain ⟨r, hr, hfields⟩ := List.mem_flatMap.1 hfields
  obtain ⟨header, rows⟩ := h r hr
  rcases List.mem_cons.1 hfields with rfl | hfields
  · exact List.cons_ne_nil _ _
  · rcases List.mem_cons.1 hfields with rfl | hrow
    · exact header
    · exact rows fields hrow

def hostile : Report where
  title := "World-readable files:"
  header := ["Identity", ""]
  rows := [[""], ["", "", ""], ["a,b", "\"", "c\r\nd\n", "\",\""], ["router/0", " \"x\" ", "\r"]]
  note := none

theorem csv_lossless_hostile :
    (∀ r ∈ [hostile, hostile], r.header ≠ [] ∧ ∀ row ∈ r.rows, row ≠ []) ∧
      Csv.read? (render [hostile, hostile] .csv) =
        some ([hostile, hostile].flatMap fun r => [r.title] :: r.header :: r.rows) := by
  have nonempty : ∀ r ∈ [hostile, hostile], r.header ≠ [] ∧ ∀ row ∈ r.rows, row ≠ [] := by decide
  exact ⟨nonempty, csv_lossless [hostile, hostile] nonempty⟩

end FleetPosture.Report
