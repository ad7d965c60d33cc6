import FleetPosture.ProcessTable
import FleetPosture.Proofs.Text.Base64
import FleetPosture.Proofs.Text.Lines
import FleetPosture.Proofs.Text.Numeral
import FleetPosture.Proofs.Text.Utf8

/-! A table of processes is read back. Base64 keeps the arguments and the environment apart from the
tabs and line ends around them, whatever they hold, and rows that were torn off while the table was
written leave the others as they are. Empty arguments are not kept. -/

namespace FleetPosture.ProcessTable

open Text (IsLine)

theorem ports_of_mem_read {s : String} {p : HostProcess} (h : p ∈ read s) : p.ports = [] := by
  obtain ⟨line, -, h⟩ := List.mem_filterMap.1 h
  unfold readRow? at h
  split at h
  case h_2 => cases h
  case h_1 =>
    obtain ⟨pid, -, h⟩ := Option.bind_eq_some_iff.1 h
    dsimp only at h
    split at h
    case isTrue => cases h
    case isFalse =>
      obtain ⟨cmdline, -, h⟩ := Option.bind_eq_some_iff.1 h
      obtain ⟨env, -, h⟩ := Option.bind_eq_some_iff.1 h
      exact (Option.some.inj h) ▸ rfl

def listed (texts : List String) : List Char :=
  Text.base64Chars (texts.flatMap fun t => Text.utf8 t ++ [0])

theorem isLine_listed (texts : List String) : IsLine (listed texts) :=
  (Text.unbroken_base64Chars _).oneLine.isLine

theorem texts?_listed {texts : List String} (h : ∀ t ∈ texts, '\x00' ∉ t.toList) :
    texts? (listed texts) = some (texts.filter (· ≠ "")) := by
  have separate : ∀ bs ∈ texts.map Text.utf8, ∀ b ∈ bs, (b == 0) = false := by
    intro bs hbs b hb
    obtain ⟨t, ht, rfl⟩ := List.mem_map.1 hbs
    exact beq_eq_false_iff_ne.2 fun zero => Text.zero_not_mem_utf8 (h t ht) (zero ▸ hb)
  have parts : Text.pieces (· == 0) (texts.flatMap fun t => Text.utf8 t ++ [0]) =
      texts.map Text.utf8 ++ [[]] := by
    have ends : (0 : UInt8) == 0 := rfl
    rw [← Text.pieces_flatMap separate ends, List.flatMap_map]
  have kept : (texts.map Text.utf8 ++ [[]]).filter (fun part => !part.isEmpty) =
      (texts.filter (· ≠ "")).map Text.utf8 := by
    have empty (t : String) : (!(Text.utf8 t).isEmpty) = decide (t ≠ "") := by
      rw [Bool.eq_iff_iff]
      simp [Text.utf8_eq_nil_iff]
    rw [List.filter_append, List.filter_map]
    simp only [Function.comp_def, empty]
    exact List.append_nil _
  rw [texts?, listed, Text.trim_of_unbroken (Text.unbroken_base64Chars _),
    Text.base64Decode_base64Chars, Option.map_some, parts, kept, List.map_map]
  simp only [Function.comp_def, Text.utf8Lossy_utf8, List.map_id']

structure IsName (s : List Char) : Prop where
  nonempty : s ≠ []
  tab : '\t' ∉ s
  newline : '\n' ∉ s
  first : s.head?.any Text.isBlank = false
  last : s.getLast?.any Text.isBlank = false

theorem isName_iff {s : List Char} : IsName s ↔ s ≠ [] ∧ '\t' ∉ s ∧ '\n' ∉ s ∧
    s.head?.any Text.isBlank = false ∧ s.getLast?.any Text.isBlank = false :=
  ⟨fun h => ⟨h.nonempty, h.tab, h.newline, h.first, h.last⟩,
    fun ⟨nonempty, tab, newline, first, last⟩ => ⟨nonempty, tab, newline, first, last⟩⟩

instance (s : List Char) : Decidable (IsName s) := decidable_of_iff' _ isName_iff

theorem IsName.trim {s : List Char} (h : IsName s) : Text.trim s = s :=
  Text.trim_of_ends ((Option.any_eq_false ..).1 h.first) ((Option.any_eq_false ..).1 h.last)

structure Running where
  pid : UInt32
  user : String
  command : String
  arguments : List String
  environment : List String
  isName_user : IsName user.toList := by decide +kernel
  isName_command : IsName command.toList := by decide +kernel
  nulFree_arguments : ∀ a ∈ arguments, '\x00' ∉ a.toList := by decide +kernel
  nulFree_environment : ∀ v ∈ environment, '\x00' ∉ v.toList := by decide +kernel

namespace Running

def row (p : Running) : List Char :=
  Nat.toDigits 10 p.pid.toNat ++ '\t' :: (p.user.toList ++ '\t' :: (p.command.toList ++
    '\t' :: (listed p.arguments ++ '\t' :: listed p.environment)))

def process (p : Running) : HostProcess :=
  ⟨p.command, p.pid, p.user, p.arguments.filter (· ≠ ""), p.environment.filter (· ≠ ""), []⟩

variable (p : Running)

theorem isLine_row : IsLine p.row := by
  have tab {s : List Char} (h : IsLine s) : IsLine ('\t' :: s) := h.cons (by decide)
  have data := tab ((isLine_listed p.arguments).append (tab (isLine_listed p.environment)))
  have command := tab (data.append_left p.isName_command.newline (List.cons_ne_nil _ _))
  have user := tab (command.append_left p.isName_user.newline (List.cons_ne_nil _ _))
  exact (Text.isLine_toDigits _).append user

theorem fields_row : Text.pieces (· == '\t') p.row =
    [Nat.toDigits 10 p.pid.toNat, p.user.toList, p.command.toList, listed p.arguments,
      listed p.environment] := by
  have other {s : List Char} (h : '\t' ∉ s) : ∀ c ∈ s, (c == '\t') = false := fun c hc =>
    beq_eq_false_iff_ne.2 fun tab => h (tab ▸ hc)
  have data (texts : List String) : ∀ c ∈ listed texts, (c == '\t') = false :=
    other ((Text.unbroken_base64Chars _).not_mem rfl)
  rw [row, Text.pieces_append (other ((Text.unbroken_toDigits _).not_mem rfl)) rfl,
    Text.pieces_append (other p.isName_user.tab) rfl,
    Text.pieces_append (other p.isName_command.tab) rfl, Text.pieces_append (data _) rfl,
    Text.pieces_of_forall_not (data _)]

theorem readRow?_row : readRow? p.row = some p.process := by
  have user := p.isName_user
  have command := p.isName_command
  have named : ¬ (p.user.toList.isEmpty ∨ p.command.toList.isEmpty) := by
    simp only [List.isEmpty_iff, user.nonempty, command.nonempty, or_self, not_false_eq_true]
  simp only [readRow?, Text.trimEndWhile_of_isLine p.isLine_row, fields_row,
    Text.trim_of_unbroken (Text.unbroken_toDigits _), Text.uint32?_toDigits,
    user.trim, command.trim,
    texts?_listed p.nulFree_arguments, texts?_listed p.nulFree_environment, String.ofList_toList]
  exact if_neg named

end Running

/-- A row of a table: that of a process, or one that has not five fields. -/
inductive Row
  | process (p : Running)
  | torn (line : List Char) (newline : '\n' ∉ line) (tabs : line.count '\t' ≠ 4)

namespace Row

def text : Row → List Char
  | process p => p.row
  | torn line _ _ => line

def process? : Row → Option HostProcess
  | process p => some p.process
  | torn _ _ _ => none

theorem newline_text (r : Row) : '\n' ∉ r.text := by
  cases r with
  | process p => exact p.isLine_row.newline
  | torn line newline _ => exact newline

theorem readRow?_text (r : Row) : readRow? r.text = r.process? := by
  cases r with
  | process p => exact p.readRow?_row
  | torn line _ tabs =>
    have fields : (Text.pieces (· == '\t') (Text.trimEndWhile (· == '\r') line)).length ≠ 5 := by
      have count := Text.count_trimEndWhile (p := (· == '\r')) (c := '\t') rfl line
      rw [Text.length_pieces]
      exact fun five => tabs (count.symm.trans (Nat.succ.inj five))
    change readRow? line = none
    unfold readRow?
    split
    case h_1 five => exact absurd (congrArg List.length five) fields
    case h_2 => rfl

end Row

theorem readRow?_stripReturn (line : List Char) : readRow? (Text.stripReturn line) = readRow? line := by
  unfold readRow?
  rw [Text.trimEndWhile_stripReturn]

/-- Every process of a table is found, in order and as it was, and nothing else. -/
theorem read_rows (rows : List Row) :
    read (String.ofList (Text.terminated (rows.map Row.text))) = rows.filterMap Row.process? := by
  have newline : ∀ line ∈ rows.map Row.text, '\n' ∉ line :=
    List.forall_mem_map.2 fun r _ => r.newline_text
  rw [read, String.toList_ofList, Text.lines_terminated_eq newline, List.filterMap_map,
    List.filterMap_map]
  simp only [Function.comp_def, readRow?_stripReturn, Row.readRow?_text]

def nginx : Running where
  pid := 4294967295
  user := "www data"
  command := "nginx: master"
  arguments := ["nginx", "", "-g\tdaemon\noff;\r\n", "größe=𝄞"]
  environment := []

example :
    read (String.ofList (Text.terminated ([.torn "44\troot\tkworker\r".toList (by decide) (by decide),
      .process nginx, .torn [] (by decide) (by decide)].map Row.text))) =
    [⟨"nginx: master", 4294967295, "www data", ["nginx", "-g\tdaemon\noff;\r\n", "größe=𝄞"], [], []⟩] := by
  decide +kernel

end FleetPosture.ProcessTable
