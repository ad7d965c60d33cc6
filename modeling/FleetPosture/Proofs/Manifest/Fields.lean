import FleetPosture.Manifest.Yaml
import FleetPosture.Proofs.Yaml.Lines
import FleetPosture.Proofs.Yaml.Node

/-! Records as lines of YAML, a field after the other. A record is a mapping at the column of its names;
as an item of a sequence it has a dash before its first name. The scanner goes from the beginning of a
record to what follows it, and the tokens that it leaves behind are read as the record's node. -/

namespace FleetPosture.Yaml

open Node Spot

def textField (name s : String) : Field := ⟨name, [.scalar s (styleOf s)], .scalar none (styleOf s) s⟩

def sequenceField {α : Type} (name : String) (tokens : α → List Token) (node : α → Node) (items : List α) :
    Field :=
  ⟨name, sequenceTokens tokens items, .sequence none (items.map node)⟩

/-- The lines of a field whose name is at `column`, less the spaces before the name. -/
structure Written (column : Nat) (lines : List Char) (f : Field) : Prop where
  starts : ∀ text, startsToken (lines ++ text) = true
  leads : ∀ {b : Blocks} {text}, b.indent ≤ column → Outdented column text →
    (⟨lines ++ text, column, true, b⟩ : Spot).Leads (line text ((b.enter column).append f.all))
  reads : Reads true f.tokens f.node
  allowed : ∀ c ∈ lines, isAllowed c = true

structure WrittenItem (column : Nat) (lines : List Char) (tokens : List Token) (node : Node) : Prop where
  begins : ∀ text, Outdented column (lines ++ text)
  leads : ∀ {b : Blocks} {text}, b.indent = column → Outdented column text →
    (line (lines ++ text) b).Leads (line text (b.append (.blockEntry :: tokens)))
  reads : Reads false tokens node
  allowed : ∀ c ∈ lines, isAllowed c = true

section Lines

variable {column : Nat} {b : Blocks} {text : List Char}

theorem written_text {name s : String} (hn : IsName name.toList) (inline : Inline s) (indent : Nat) :
    Written column (name.toList ++ ':' :: ' ' :: writtenLine indent s) (textField name s) where
  starts := by
    intro text
    rw [List.append_assoc]
    exact startsToken_of_isAlphanum hn.ne_nil hn.word _
  leads := by
    intro b text level after
    have entered : (b.field column name.toList).indent = column := Blocks.enter_indent level
    have deep : (b.field column name.toList).indent < (column + name.toList.length + 2 : Nat) := by omega
    have value := leads_text inline indent (entered ▸ after) deep
    have same : (b.field column name.toList).push (.scalar s (styleOf s)) =
        (b.enter column).append (textField name s).all := by
      simp [Blocks.field, Blocks.push, Blocks.append, Field.all, textField]
    rw [same] at value
    rw [List.append_assoc]
    exact (leads_field hn level (startsToken_writtenLine inline indent text)).trans value
  reads := reads_scalar true s (styleOf s)
  allowed := by
    obtain ⟨content, written, shape⟩ := writtenLine_shape inline indent
    simp only [written, List.mem_append, List.mem_cons, List.not_mem_nil, or_false]
    rintro c (hc | rfl | rfl | hc | rfl)
    · exact isAllowed_of_isPrintable (isPrintable_of_isAlphanum (hn.word c hc))
    · decide
    · decide
    · exact shape.isAllowed inline c hc
    · decide

theorem outdented_flatMap {α : Type} {lines : α → List Char} {items : List α}
    (begins : ∀ a ∈ items, ∀ text, Outdented column (lines a ++ text)) (after : Outdented column text) :
    Outdented column (items.flatMap lines ++ text) := by
  cases items with
  | nil => exact after
  | cons a items =>
    rw [List.flatMap_cons, List.append_assoc]
    exact begins a List.mem_cons_self _

theorem leads_flatMap {α : Type} {lines : α → List Char} {tokens : α → List Token} {items : List α}
    (begins : ∀ a ∈ items, ∀ text, Outdented column (lines a ++ text))
    (each : ∀ a ∈ items, ∀ {b : Blocks} {text}, b.indent = column → Outdented column text →
      (line (lines a ++ text) b).Leads (line text (b.append (tokens a))))
    (after : Outdented column text) (level : b.indent = column) :
    (line (items.flatMap lines ++ text) b).Leads (line text (b.append (items.flatMap tokens))) := by
  induction items generalizing b with
  | nil => exact .refl _
  | cons a items ih =>
    obtain ⟨ha, hitems⟩ := List.forall_mem_cons.1 each
    obtain ⟨-, hbegins⟩ := List.forall_mem_cons.1 begins
    have rest := ih (b := b.append (tokens a)) hbegins hitems level
    rw [Blocks.append_append] at rest
    rw [List.flatMap_cons, List.flatMap_cons, List.append_assoc]
    exact (ha level (outdented_flatMap hbegins after)).trans rest

theorem written_sequence {α : Type} {item : α → List Char} {tokens : α → List Token} {node : α → Node}
    {items : List α} {name : String} (hn : IsName name.toList)
    (h : ∀ a ∈ items, WrittenItem column (item a) (tokens a) (node a)) :
    Written column (listField name item items) (sequenceField name tokens node items) where
  starts := by
    intro text
    unfold listField
    split <;> simpa only [List.append_assoc] using startsToken_of_isAlphanum hn.ne_nil hn.word _
  leads := by
    intro b text level after
    have entered : (b.field column name.toList).indent = column := Blocks.enter_indent level
    cases items with
    | nil =>
      have written : listField name item [] ++ text =
          name.toList ++ ':' :: ' ' :: '[' :: ']' :: '\n' :: text := by
        simp [listField]
      have same : ((b.field column name.toList).push .flowSequence).push .flowSequenceEnd =
          (b.enter column).append (sequenceField name tokens node []).all := by
        simp [Blocks.field, Blocks.push, Blocks.append, Field.all, sequenceField, sequenceTokens]
      rw [written, ← same]
      exact (leads_field hn level (by simp [startsToken, isGap, isBreak])).trans
        (leads_brackets after.starts)
    | cons a items =>
      have written : listField name item (a :: items) ++ text =
          name.toList ++ ':' :: '\n' :: ((a :: items).flatMap item ++ text) := by
        simp [listField]
      have same :
          (b.field column name.toList).append ((a :: items).flatMap fun a => .blockEntry :: tokens a) =
            (b.enter column).append (sequenceField name tokens node (a :: items)).all := by
        simp [Blocks.field, Blocks.append, Field.all, sequenceField, sequenceTokens]
      have first : Outdented column ((a :: items).flatMap item ++ text) :=
        outdented_flatMap (fun a ha => (h a ha).begins) after
      have lines := leads_flatMap (fun a ha => (h a ha).begins) (fun a ha => (h a ha).leads) after entered
      rw [written, ← same]
      exact (leads_heading hn level first.starts).trans lines
  reads := reads_sequence fun a ha => (h a ha).reads
  allowed := by
    have mark : ∀ c ∈ ": []\n".toList ++ ":\n".toList, isAllowed c = true :=
      List.all_eq_true.1 (by decide)
    have inside : ∀ c ∈ name.toList, isAllowed c = true :=
      fun c hc => isAllowed_of_isPrintable (isPrintable_of_isAlphanum (hn.word c hc))
    unfold listField
    split
    · simp only [List.forall_mem_append] at mark ⊢
      exact ⟨inside, mark.1⟩
    · simp only [List.forall_mem_append, List.forall_mem_flatMap] at mark ⊢
      exact ⟨⟨inside, mark.2⟩, fun a ha => (h a ha).allowed⟩

end Lines

section Records

variable {column : Nat} {b : Blocks} {text : List Char}

theorem outdented_spaces {v : List Char} (starts : startsToken v = true) :
    Outdented column (List.replicate column ' ' ++ v) where
  starts := by
    rw [List.dropWhile_append_of_pos (by simp [isSpace]), ScanState.dropWhile_of_startsToken starts]
    exact starts
  shallow := by
    rw [List.takeWhile_append_of_pos (by simp [isSpace]), ScanState.takeWhile_of_startsToken starts]
    simp

/-- A record as its fields, each with its lines less the spaces before the name. -/
structure Record where
  first : List Char × Field
  rest : List (List Char × Field)

namespace Record

def all (r : Record) : List (List Char × Field) := r.first :: r.rest

def fields (r : Record) : List Field := r.all.map (·.2)

def tokens (r : Record) : List Token := mappingTokens r.fields

def node (r : Record) : Node := mappingNode r.fields

theorem names_node (r : Record) : r.node.names = r.fields.flatMap fun f => f.name :: f.node.names :=
  names_mappingNode r.fields

def lines (column : Nat) (r : Record) : List Char :=
  r.first.1 ++ r.rest.flatMap fun w => List.replicate column ' ' ++ w.1

def itemLines (column : Nat) (r : Record) : List Char :=
  List.replicate column ' ' ++ '-' :: ' ' :: r.lines (column + 2)

def IsWritten (column : Nat) (r : Record) : Prop := ∀ w ∈ r.all, Written column w.1 w.2

variable {r : Record}

theorem IsWritten.startsToken (h : r.IsWritten column) (text : List Char) :
    startsToken (r.lines column ++ text) = true := by
  rw [lines, List.append_assoc]
  exact (h r.first List.mem_cons_self).starts _

theorem IsWritten.isAllowed (h : r.IsWritten column) : ∀ c ∈ r.lines column, isAllowed c = true := by
  obtain ⟨hfirst, hrest⟩ := List.forall_mem_cons.1 h
  simp only [lines, List.forall_mem_append, List.forall_mem_flatMap]
  refine ⟨hfirst.allowed, fun w hw => ⟨fun c hc => ?_, (hrest w hw).allowed⟩⟩
  rw [List.eq_of_mem_replicate hc]
  decide

theorem IsWritten.reads (h : r.IsWritten column) : ∀ f ∈ r.fields, Reads true f.tokens f.node := by
  intro f hf
  obtain ⟨w, hw, rfl⟩ := List.mem_map.1 hf
  exact (h w hw).reads

theorem IsWritten.leads (h : r.IsWritten column) (level : b.indent ≤ column)
    (after : Outdented column text) :
    (⟨r.lines column ++ text, column, true, b⟩ : Spot).Leads
      (line text ((b.enter column).append (r.fields.flatMap Field.all))) := by
  obtain ⟨hfirst, hrest⟩ := List.forall_mem_cons.1 h
  have begins : ∀ w ∈ r.rest, ∀ text, Outdented column (List.replicate column ' ' ++ w.1 ++ text) := by
    intro w hw text
    rw [List.append_assoc]
    exact outdented_spaces ((hrest w hw).starts text)
  have each : ∀ w ∈ r.rest, ∀ {b : Blocks} {text}, b.indent = column → Outdented column text →
      (line (List.replicate column ' ' ++ w.1 ++ text) b).Leads (line text (b.append w.2.all)) := by
    intro w hw b text level after
    have field := (hrest w hw).leads (Int.le_of_eq level) after
    rw [Blocks.enter_of_eq level] at field
    rw [List.append_assoc, line_indented ((hrest w hw).starts text) (Int.le_of_eq level)]
    exact field
  have others := leads_flatMap (b := (b.enter column).append r.first.2.all) begins each after
    (Blocks.enter_indent level)
  rw [Blocks.append_append] at others
  rw [lines, List.append_assoc, fields, List.flatMap_map]
  exact (hfirst.leads level (outdented_flatMap begins after)).trans others

theorem IsWritten.item (h : r.IsWritten (column + 2)) :
    WrittenItem column (r.itemLines column) r.tokens r.node where
  begins := by
    intro text
    rw [itemLines, List.append_assoc]
    exact outdented_spaces (by simp [Yaml.startsToken, isGap, isBreak])
  leads := by
    intro b text level after
    have inner : (b.push .blockEntry).indent ≤ (column + 2 : Nat) := by
      change b.indent ≤ (column + 2 : Nat)
      omega
    have further : Outdented (column + 2 : Nat) text :=
      ⟨after.starts, Int.le_trans after.shallow (by omega)⟩
    have ended :
        line text (((b.push .blockEntry).enter (column + 2)).append (r.fields.flatMap Field.all)) =
          line text (b.append (.blockEntry :: r.tokens)) := by
      have outside : (column : Int) < (column + 2 : Nat) := by omega
      have level : (b.push .blockEntry).indent ≤ (column : Int) := Int.le_of_eq level
      rw [← line_close after.shallow, Blocks.close_enter outside level]
      simp [Blocks.push, Blocks.append, tokens, mappingTokens]
    rw [itemLines, List.append_assoc, List.cons_append, List.cons_append,
      line_indented (by simp [Yaml.startsToken, isGap, isBreak]) (Int.le_of_eq level), ← ended]
    exact (leads_entry (h.startsToken text) level).trans (h.leads inner further)
  reads := reads_mapping false h.reads
  allowed := by
    have mark : ∀ c ∈ ['-', ' '], Yaml.isAllowed c = true := List.all_eq_true.1 (by decide)
    simp only [List.forall_mem_cons] at mark
    simp only [itemLines, List.forall_mem_append, List.forall_mem_cons]
    refine ⟨fun c hc => ?_, mark.1, mark.2.1, h.isAllowed⟩
    rw [List.eq_of_mem_replicate hc]
    decide

theorem IsWritten.document? (h : r.IsWritten 0) :
    document? (String.ofList (r.lines 0)) = some ⟨r.node.marked, r.node⟩ := by
  let outside : Blocks := ⟨-1, [], []⟩
  let inside := (outside.enter 0).append (r.fields.flatMap Field.all)
  have leads : (⟨r.lines 0 ++ [], 0, true, outside⟩ : Spot).Leads (line [] inside) :=
    h.leads (by decide) ⟨rfl, by decide⟩
  rw [List.append_nil] at leads
  have closed : (line [] inside).blocks.close (-1) = outside.append r.tokens := by
    have level : inside.indent ≤ (0 : Nat) := Int.le_of_eq (Blocks.enter_indent (by decide))
    rw [line, List.takeWhile_nil, List.length_nil, Blocks.close_of_le level,
      Blocks.close_enter (by decide) (by decide)]
    rfl
  have starts : Yaml.startsToken (r.lines 0) = true := List.append_nil (r.lines 0) ▸ h.startsToken []
  have tokens : tokens? (String.ofList (r.lines 0)) = some (r.tokens ++ [.streamEnd]) := by
    rw [tokens?_of_leads starts h.isAllowed leads rfl, closed]
    simp [Blocks.append, outside]
  rw [Yaml.document?, tokens]
  simp only [Option.bind_eq_bind, Option.bind_some, Record.tokens, ofTokens?_mapping h.reads]
  rfl

end Record
end Records
end FleetPosture.Yaml
