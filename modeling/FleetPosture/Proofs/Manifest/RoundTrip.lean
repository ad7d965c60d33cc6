import FleetPosture.Proofs.Manifest.Fields
import FleetPosture.Proofs.Manifest.Projection
import FleetPosture.Proofs.Yaml.Decode

/-! A manifest is read from its YAML as it was written, but for the ports to ignore, which are not
written. This holds of every manifest whose texts stand on one line each, whatever they look like: numbers
and dates, truth values, null, nothing at all, or punctuation that YAML gives a meaning to. -/

namespace FleetPosture

open Yaml Yaml.Node Yaml.Spot

def textLines (name : String) (indent : Nat) (s : String) : List Char × Field :=
  (name.toList ++ ':' :: ' ' :: writtenLine indent s, textField name s)

theorem listField_indented {α : Type} {indented name : String} {column : Nat}
    (spaces : indented.toList = List.replicate column ' ' ++ name.toList) (item : α → List Char)
    (items : List α) :
    listField indented item items = List.replicate column ' ' ++ listField name item items := by
  unfold listField
  split <;> simp only [spaces, List.append_assoc]

namespace Manifest

def portLine (n : UInt16) : List Char := "    - ".toList ++ (toString n.toNat).toList ++ ['\n']

def portTokens (n : UInt16) : List Token := [.scalar (toString n.toNat) .plain]

def portNode (n : UInt16) : Node := .scalar none .plain (toString n.toNat)

theorem list?_ports (ports : List UInt16) (anchors : List (Nat × Node)) :
    (⟨anchors, .sequence none (ports.map portNode)⟩ : Place).list?
        (fun p => (p.natural? Text.maxU16).map UInt16.ofNat) = some ports := by
  refine (Place.list?_sequence anchors id fun n _ => ?_).trans (congrArg some (List.map_id ports))
  have le : n.toNat ≤ Text.maxU16 := Nat.le_of_lt_succ n.toNat_lt
  rw [portNode, Place.natural?_toString anchors le, Option.map_some, UInt16.ofNat_toNat]
  rfl

theorem portLine_eq (n : UInt16) : portLine n =
    List.replicate 4 ' ' ++ '-' :: ' ' :: ((toString n.toNat).toList ++ ['\n']) := by
  -- For any digits, so that no one tries to make the dash a numeral.
  have dashed (digits : List Char) : "    - ".toList ++ digits ++ ['\n'] =
      List.replicate 4 ' ' ++ '-' :: ' ' :: (digits ++ ['\n']) := by simp
  exact dashed _

theorem writtenItem_port (n : UInt16) : WrittenItem 4 (portLine n) (portTokens n) (portNode n) := by
  have digits : (toString n.toNat).toList = Nat.toDigits 10 n.toNat := by
    rw [Nat.toString_eq_repr, Nat.toList_repr]
  have word : ∀ x ∈ (toString n.toNat).toList, x.isAlphanum = true := by
    intro x hx
    rw [digits] at hx
    rw [Char.isAlphanum, Nat.isDigit_of_mem_toDigits (by decide) (by decide) hx, Bool.or_true]
  have ne : (toString n.toNat).toList ≠ [] := by
    rw [digits]
    exact Nat.toDigits_ne_nil
  rw [portLine_eq]
  refine ⟨fun text => ?_, fun {b text} level after => ?_, reads_scalar false _ _, ?_⟩
  · rw [List.append_assoc]
    exact outdented_spaces (by simp [startsToken, isGap, isBreak])
  · have same : (b.push .blockEntry).push (.scalar (toString n.toNat) .plain) =
        b.append (.blockEntry :: portTokens n) := by
      simp [Blocks.push, Blocks.append, portTokens]
    have deep : (b.push .blockEntry).indent < (4 + 2 : Nat) := level ▸ by decide
    have value := leads_plain (b := b.push .blockEntry) ne (canBePlain_of_isAlphanum word)
      (fun x hx => isInline_of_isAlphanum (word x hx)) (level ▸ after) deep true
    rw [String.ofList_toList, same] at value
    rw [List.append_assoc, line_indented (by simp [startsToken, isGap, isBreak]) (Int.le_of_eq level),
      List.cons_append, List.cons_append, List.append_assoc]
    exact (leads_entry (startsToken_of_isAlphanum ne word _) level).trans value
  · have marks : ∀ c ∈ List.replicate 4 ' ' ++ ['-', ' ', '\n'], isAllowed c = true :=
      List.all_eq_true.1 (by decide)
    simp only [List.forall_mem_append, List.forall_mem_cons] at marks ⊢
    exact ⟨marks.1, marks.2.1, marks.2.2.1,
      fun c hc => isAllowed_of_isPrintable (isPrintable_of_isAlphanum (word c hc)), marks.2.2.2⟩

end Manifest

namespace ProcessSpec

open Manifest (portLine portTokens portNode writtenItem_port list?_ports)

def Inline (p : ProcessSpec) : Prop := Yaml.Inline p.command ∧ Yaml.Inline p.user

instance (p : ProcessSpec) : Decidable p.Inline := inferInstanceAs (Decidable (_ ∧ _))

def record (p : ProcessSpec) : Record where
  first := textLines "command" 6 p.command
  rest := [textLines "user" 6 p.user,
    (listField "ports" portLine p.ports, sequenceField "ports" portTokens portNode p.ports)]

theorem toYaml_eq (p : ProcessSpec) : p.toYaml = p.record.itemLines 2 := by
  have first : "  - command: ".toList =
      List.replicate 2 ' ' ++ '-' :: ' ' :: ("command".toList ++ [':', ' ']) := by decide
  have second : "    user: ".toList = List.replicate 4 ' ' ++ ("user".toList ++ [':', ' ']) := by decide
  have third : listField "    ports" portLine p.ports =
      List.replicate 4 ' ' ++ listField "ports" portLine p.ports := listField_indented rfl portLine p.ports
  have whole : p.toYaml = "  - command: ".toList ++ writtenLine 6 p.command ++ "    user: ".toList ++
      writtenLine 6 p.user ++ listField "    ports" portLine p.ports := rfl
  rw [whole, first, second, third]
  simp only [List.append_assoc, List.cons_append, List.nil_append, Record.itemLines, Record.lines, record,
    textLines, List.flatMap_cons, List.flatMap_nil, List.append_nil]

theorem isWritten {p : ProcessSpec} (h : p.Inline) : p.record.IsWritten 4 := by
  have command : IsName "command".toList := by decide
  have user : IsName "user".toList := by decide
  have ports : IsName "ports".toList := by decide
  simp only [Record.IsWritten, Record.all, record, List.forall_mem_cons]
  exact ⟨written_text command h.1 6, written_text user h.2 6,
    written_sequence ports fun n _ => writtenItem_port n, fun _ e => absurd e List.not_mem_nil⟩

theorem record?_node (p : ProcessSpec) (anchors : List (Nat × Node)) :
    (⟨anchors, p.record.node⟩ : Place).record? ["command", "user", "ports"] =
      some [some ⟨anchors, .scalar none (styleOf p.command) p.command⟩,
        some ⟨anchors, .scalar none (styleOf p.user) p.user⟩,
        some ⟨anchors, .sequence none (p.ports.map portNode)⟩] := by
  rw [Record.node, Place.record?_mapping]
  simp [Record.fields, Record.all, record, textLines, textField, sequenceField, List.lookup_cons]

theorem ofYaml?_node (p : ProcessSpec) (anchors : List (Nat × Node)) :
    ofYaml? ⟨anchors, p.record.node⟩ = some p := by
  rw [ofYaml?, record?_node]
  simp only [Option.bind_eq_bind, Option.bind_some, Place.required?, Place.text?_scalar, Place.defaulted?,
    list?_ports]

theorem names_node (p : ProcessSpec) : p.record.node.names = ["command", "user", "ports"] := by
  rw [Record.names_node]
  simp [Record.fields, Record.all, record, textLines, textField, sequenceField, names_sequence, portNode,
    names_scalar]

end ProcessSpec

namespace HostSpec

def Inline (h : HostSpec) : Prop := Yaml.Inline h.covered ∧ ∀ p ∈ h.processes, p.Inline

instance (h : HostSpec) : Decidable h.Inline := inferInstanceAs (Decidable (_ ∧ _))

def record (h : HostSpec) : Record where
  first := textLines "prefix" 4 h.covered
  rest := [(listField "processes" ProcessSpec.toYaml h.processes,
    sequenceField "processes" (·.record.tokens) (·.record.node) h.processes)]

theorem toYaml_eq (h : HostSpec) : h.toYaml = h.record.itemLines 0 := by
  have first : "- prefix: ".toList = '-' :: ' ' :: ("prefix".toList ++ [':', ' ']) := by decide
  have second : listField "  processes" ProcessSpec.toYaml h.processes =
      List.replicate 2 ' ' ++ listField "processes" ProcessSpec.toYaml h.processes :=
    listField_indented rfl ProcessSpec.toYaml h.processes
  have whole : h.toYaml = "- prefix: ".toList ++ writtenLine 4 h.covered ++
      listField "  processes" ProcessSpec.toYaml h.processes := rfl
  rw [whole, first, second]
  simp only [List.append_assoc, List.cons_append, List.nil_append, Record.itemLines, Record.lines, record,
    textLines, List.flatMap_cons, List.flatMap_nil, List.append_nil, List.replicate_zero, Nat.zero_add]

theorem isWritten {h : HostSpec} (inline : h.Inline) : h.record.IsWritten 2 := by
  have covered : IsName "prefix".toList := by decide
  have processes : IsName "processes".toList := by decide
  simp only [Record.IsWritten, Record.all, record, List.forall_mem_cons]
  refine ⟨written_text covered inline.1 4, written_sequence processes fun p hp => ?_,
    fun _ e => absurd e List.not_mem_nil⟩
  rw [ProcessSpec.toYaml_eq]
  exact (ProcessSpec.isWritten (inline.2 p hp)).item

theorem record?_node (h : HostSpec) (anchors : List (Nat × Node)) :
    (⟨anchors, h.record.node⟩ : Place).record? ["prefix", "processes", "ignore_ports"] =
      some [some ⟨anchors, .scalar none (styleOf h.covered) h.covered⟩,
        some ⟨anchors, .sequence none (h.processes.map (·.record.node))⟩, none] := by
  rw [Record.node, Place.record?_mapping]
  simp [Record.fields, Record.all, record, textLines, textField, sequenceField, List.lookup_cons]

def withoutIgnored (h : HostSpec) : HostSpec := { h with ignoredPorts := [] }

theorem ofYaml?_node (h : HostSpec) (anchors : List (Nat × Node)) :
    ofYaml? ⟨anchors, h.record.node⟩ = some h.withoutIgnored := by
  have processes := Place.list?_sequence anchors id fun p (_ : p ∈ h.processes) => p.ofYaml?_node anchors
  rw [ofYaml?, record?_node]
  simp only [Option.bind_eq_bind, Option.bind_some, Place.required?, Place.text?_scalar, Place.defaulted?,
    processes, List.map_id]
  rfl

theorem names_node (h : HostSpec) : h.record.node.names =
    "prefix" :: "processes" :: h.processes.flatMap fun _ => ["command", "user", "ports"] := by
  rw [Record.names_node]
  simp [Record.fields, Record.all, record, textLines, textField, sequenceField, names_sequence,
    ProcessSpec.names_node, names_scalar]

end HostSpec

namespace Manifest

def Inline (m : Manifest) : Prop := ∀ h ∈ m.specs, h.Inline

instance (m : Manifest) : Decidable m.Inline := inferInstanceAs (Decidable (∀ h ∈ m.specs, _))

def withoutIgnored (m : Manifest) : Manifest := ⟨m.specs.map (·.withoutIgnored)⟩

def record (m : Manifest) : Record where
  first := (listField "specs" HostSpec.toYaml m.specs,
    sequenceField "specs" (·.record.tokens) (·.record.node) m.specs)
  rest := []

theorem isWritten {m : Manifest} (inline : m.Inline) : m.record.IsWritten 0 := by
  have specs : IsName "specs".toList := by decide
  simp only [Record.IsWritten, Record.all, record, List.forall_mem_cons]
  refine ⟨written_sequence specs fun h hh => ?_, fun _ e => absurd e List.not_mem_nil⟩
  rw [HostSpec.toYaml_eq]
  exact (HostSpec.isWritten (inline h hh)).item

theorem toYaml_eq (m : Manifest) : m.toYaml = String.ofList (m.record.lines 0) := by
  simp [toYaml, Record.lines, record]

theorem record?_node (m : Manifest) (anchors : List (Nat × Node)) :
    (⟨anchors, m.record.node⟩ : Place).record? ["specs"] =
      some [some ⟨anchors, .sequence none (m.specs.map (·.record.node))⟩] := by
  rw [Record.node, Place.record?_mapping]
  simp [Record.fields, Record.all, record, sequenceField]

theorem ofYaml_toYaml {m : Manifest} (inline : m.Inline) : ofYaml m.toYaml = .ok m.withoutIgnored := by
  have document := (isWritten inline).document?
  have specs := Place.list?_sequence m.record.node.marked HostSpec.withoutIgnored
    fun h (_ : h ∈ m.specs) => h.ofYaml?_node m.record.node.marked
  rw [ofYaml, toYaml_eq, document, Option.bind_some, ofPlace?, record?_node]
  simp only [Option.bind_eq_bind, Option.bind_some, Place.defaulted?, specs]
  rfl

theorem toYaml_withoutIgnored (m : Manifest) : m.withoutIgnored.toYaml = m.toYaml := by
  have same : (fun h : HostSpec => h.withoutIgnored.toYaml) = HostSpec.toYaml := rfl
  simp only [toYaml, withoutIgnored, listField, List.isEmpty_map, List.flatMap_map, same]

/-- The texts of the snapshot that a manifest keeps stand on one line each. -/
def InlineSnapshot (s : Snapshot) : Prop :=
  ∀ h ∈ s.hosts, Yaml.Inline h.identity ∧
    ∀ p ∈ h.processes, Yaml.Inline p.commandName ∧ Yaml.Inline p.user

instance (s : Snapshot) : Decidable (InlineSnapshot s) := inferInstanceAs (Decidable (∀ h ∈ s.hosts, _))

theorem inline_ofSnapshot {s : Snapshot} (inline : InlineSnapshot s) : (ofSnapshot s).Inline := by
  intro spec hspec
  obtain ⟨h, hh, rfl⟩ := List.mem_map.1 hspec
  refine ⟨(inline h hh).1, fun q hq => ?_⟩
  obtain ⟨p, hp, -, rfl⟩ := mem_observedHost_processes.1 hq
  exact (inline h hh).2 p hp

theorem withoutIgnored_ofSnapshot (s : Snapshot) : (ofSnapshot s).withoutIgnored = ofSnapshot s := by
  rw [withoutIgnored, ofSnapshot, List.map_map]
  rfl

theorem mem_names_node {m : Manifest} {name : String} (h : name ∈ m.record.node.names) :
    name ∈ ["specs", "prefix", "processes", "command", "user", "ports"] := by
  have process (a : HostSpec) :
      (a.processes.flatMap fun _ => ["command", "user", "ports"]) ⊆ ["command", "user", "ports"] := by
    intro x hx
    obtain ⟨-, -, hx⟩ := List.mem_flatMap.1 hx
    exact hx
  rw [Record.names_node] at h
  simp only [Record.fields, Record.all, record, sequenceField, names_sequence, HostSpec.names_node,
    List.map_cons, List.map_nil, List.flatMap_cons, List.flatMap_nil, List.append_nil] at h
  obtain rfl | h := List.mem_cons.1 h
  · decide
  · obtain ⟨a, -, h⟩ := List.mem_flatMap.1 h
    exact List.mem_cons_of_mem _ (List.cons_subset_cons _ (List.cons_subset_cons _ (process a)) h)

/-- A manifest whose texts stand on one line each is read back from its YAML without the ports to ignore,
which the YAML says nothing about; so one that a snapshot gave is read back as it was. -/
theorem yaml_roundTrip :
    (∀ m : Manifest, m.Inline → ofYaml m.toYaml = .ok m.withoutIgnored) ∧
      (∀ s : Snapshot, InlineSnapshot s → ofYaml (ofSnapshot s).toYaml = .ok (ofSnapshot s)) ∧
      (∀ m : Manifest, m.withoutIgnored.toYaml = m.toYaml) ∧
      ∀ m : Manifest, m.Inline → ∃ p, document? m.toYaml = some p ∧ "ignore_ports" ∉ p.node.names := by
  refine ⟨fun m inline => ofYaml_toYaml inline, fun s inline => ?_, toYaml_withoutIgnored,
    fun m inline => ?_⟩
  · rw [ofYaml_toYaml (inline_ofSnapshot inline), withoutIgnored_ofSnapshot]
  · refine ⟨_, toYaml_eq m ▸ (isWritten inline).document?, fun h => ?_⟩
    exact absurd (mem_names_node h) (by decide)

def lookalikes : Manifest :=
  ⟨[⟨"", [⟨"null", "007", [22, 443]⟩, ⟨"- a: #b", "~", []⟩], [25]⟩,
    ⟨"2024-01-01", [⟨"\ufeff[é", "true", [80]⟩], []⟩, ⟨"it's \x7bx", [], [53, 123]⟩]⟩

def lookalikeScan : Snapshot :=
  ⟨⟨1⟩, ⟨2024, 6, 11, 10, 20, 30, 0, 0, Eq.refl true⟩,
    [⟨"", "0x1f", [⟨"no", 7, "", [], [], [⟨.tcp, "::", 80, Port.listenState, none⟩]⟩], [], []⟩]⟩

theorem yaml_roundTrip_lookalikes :
    lookalikes.Inline ∧ InlineSnapshot lookalikeScan ∧
      lookalikes.withoutIgnored ≠ lookalikes ∧
      ofYaml lookalikes.toYaml = .ok lookalikes.withoutIgnored ∧
      ofYaml (ofSnapshot lookalikeScan).toYaml = .ok (ofSnapshot lookalikeScan) ∧
      (∃ p, document? lookalikes.toYaml = some p ∧ "ignore_ports" ∉ p.node.names) := by
  have texts : lookalikes.Inline := by decide
  have scanned : InlineSnapshot lookalikeScan := by decide
  obtain ⟨manifest, snapshot, -, named⟩ := yaml_roundTrip
  exact ⟨texts, scanned, by decide, manifest _ texts, snapshot _ scanned, named _ texts⟩

end Manifest
end FleetPosture
