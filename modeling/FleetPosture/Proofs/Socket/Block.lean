import FleetPosture.Proofs.Socket.Bound
import FleetPosture.Proofs.Text.Lines
import FleetPosture.Socket.Lsof

/-! The blocks of the field output, one for each process. A `p` field ends the file before it and
leaves nothing behind of the process that it belonged to, so what is read of a block does not depend
on the text before it, however that text breaks off. Within a block each file is a run of fields from
its `f` to the next one, and fields that say nothing about sockets may stand anywhere. -/

namespace FleetPosture.Socket.Lsof

open Text (IsLine)

section Arrow

variable {a b s rest : List Char} {c : Char}

def Arrowless (s : List Char) : Prop := ¬ "->".toList <:+: s

instance (s : List Char) : Decidable (Arrowless s) := inferInstanceAs (Decidable (¬ _))

theorem arrow_prefix_cons_iff : "->".toList <+: c :: s ↔ c = '-' ∧ s.head? = some '>' := by
  have arrow : "->".toList = ['-', '>'] := rfl
  rw [arrow, List.cons_prefix_cons, eq_comm]
  cases s with
  | nil => simp
  | cons d ds => simp [eq_comm]

theorem arrowless_cons_iff :
    Arrowless (c :: s) ↔ ¬ (c = '-' ∧ s.head? = some '>') ∧ Arrowless s := by
  rw [Arrowless, List.infix_cons_iff, arrow_prefix_cons_iff, not_or, Arrowless]

theorem arrowless_of_not_mem (h : '>' ∉ s) : Arrowless s := fun arrow =>
  h (arrow.subset (by decide))

theorem Arrowless.append (ha : Arrowless a) (hb : Arrowless b) (head : b.head? ≠ some '>') :
    Arrowless (a ++ b) := by
  induction a with
  | nil => exact hb
  | cons c cs ih =>
    obtain ⟨here, later⟩ := arrowless_cons_iff.1 ha
    refine arrowless_cons_iff.2 ⟨?_, ih later⟩
    cases cs with
    | nil => exact fun h => head h.2
    | cons d ds => exact here

theorem before_arrow (h : Arrowless s) (hrest : rest = [] ∨ "->".toList <+: rest) :
    Text.before "->".toList (s ++ rest) = s := by
  have head : rest.head? ≠ some '>' := by
    rcases hrest with rfl | ⟨other, rfl⟩
    · simp
    · simp
  induction s with
  | nil =>
    rcases hrest with rfl | ⟨other, rfl⟩
    · rfl
    · rfl
  | cons c cs ih =>
    obtain ⟨here, later⟩ := arrowless_cons_iff.1 h
    have here : ¬ "->".toList <+: c :: (cs ++ rest) := by
      rw [arrow_prefix_cons_iff]
      cases cs with
      | nil => exact fun h => head h.2
      | cons d ds => exact here
    rw [List.cons_append, Text.before, if_neg (by rwa [List.isPrefixOf_iff_prefix]), ih later]

end Arrow

section Lines

variable {line value : List Char} {tag : Char} {rest : List (List Char)}

theorem readFields_cons (h : IsLine (tag :: value)) (st : State) (rest : List (List Char)) :
    readFields st ((tag :: value) :: rest) =
      (step st tag value).1 ++ readFields (step st tag value).2 rest := by
  rw [readFields, Text.trimEndWhile_of_isLine h]

theorem readFields_map_stripReturn (st : State) (ls : List (List Char)) :
    readFields st (ls.map Text.stripReturn) = readFields st ls := by
  induction ls generalizing st with
  | nil => rfl
  | cons line ls ih =>
    rw [List.map_cons, readFields, readFields, Text.trimEndWhile_stripReturn]
    split
    · exact ih st
    · exact congrArg _ (ih _)

theorem read_terminated {ls : List (List Char)} (h : ∀ l ∈ ls, '\n' ∉ l) :
    read (String.ofList (Text.terminated ls)) = readFields .initial ls := by
  rw [read, String.toList_ofList, Text.lines_terminated_eq h, readFields_map_stripReturn]

theorem ended_closed (pid : Option UInt32) (command : List Char) :
    State.ended ⟨pid, command, none⟩ = [] := by
  cases pid <;> rfl

theorem readFields_process (st : State) (value : List Char) (rest : List (List Char)) :
    readFields st (('p' :: value) :: rest) =
      st.ended ++ readFields .initial (('p' :: value) :: rest) := by
  rw [readFields, readFields, Text.trimEndWhile_cons (by decide)]
  rfl

theorem readFields_append_process (st : State) (ls : List (List Char)) (value : List Char)
    (rest : List (List Char)) :
    readFields st (ls ++ ('p' :: value) :: rest) =
      readFields st ls ++ readFields .initial (('p' :: value) :: rest) := by
  induction ls generalizing st with
  | nil => exact readFields_process st value rest
  | cons line ls ih =>
    rw [List.cons_append, readFields, readFields]
    split
    · exact ih st
    · dsimp only
      rw [ih, List.append_assoc]

theorem read_append {t₁ t₂ : String} (ended : t₁ = "" ∨ t₁.toList.getLast? = some '\n')
    (process : t₂.toList.head? = some 'p') : read (t₁ ++ t₂) = read t₁ ++ read t₂ := by
  obtain ⟨s, begins⟩ := List.head?_eq_some_iff.1 process
  obtain ⟨value, rest, lines⟩ := Text.exists_lines_cons (c := 'p') (by decide) s
  have split : Text.lines (t₁.toList ++ t₂.toList) = Text.lines t₁.toList ++ Text.lines t₂.toList :=
    Text.lines_append_of_terminated (ended.imp_left fun h => by rw [h]; rfl) _
  rw [read, String.toList_append, split, begins, lines, readFields_append_process, read, read, begins,
    lines]

/-- A line that says nothing about sockets. -/
def IsNoise (line : List Char) : Prop :=
  match line with
  | [] => True
  | tag :: value => tag ∉ ['p', 'c', 'f', 'P', 'n', 'T'] ∨ tag = 'T' ∧ ¬ "ST=".toList <+: value

instance : DecidablePred IsNoise
  | [] => .isTrue trivial
  | tag :: value =>
    inferInstanceAs <| Decidable <|
      tag ∉ ['p', 'c', 'f', 'P', 'n', 'T'] ∨ tag = 'T' ∧ ¬ "ST=".toList <+: value

theorem dropPrefix?_eq_none {word s : List Char} (h : ¬ word <+: s) :
    Text.dropPrefix? word s = none := by
  induction word generalizing s with
  | nil => exact absurd (List.nil_prefix) h
  | cons c cs ih =>
    cases s with
    | nil => rfl
    | cons d ds =>
      rw [Text.dropPrefix?]
      split
      case isTrue same => exact ih fun later => h (List.cons_prefix_cons.2 ⟨same, later⟩)
      case isFalse => rfl

theorem step_of_isNoise (h : IsNoise (tag :: value)) (st : State) : step st tag value = ([], st) := by
  rcases h with other | ⟨rfl, noState⟩
  · simp only [List.mem_cons, List.not_mem_nil, or_false, not_or] at other
    simp [step, other]
  · have noState := dropPrefix?_eq_none noState
    simp only [step, noState]
    rfl

theorem IsNoise.of_prefix (h : IsNoise line) {front : List Char} (hfront : front <+: line) :
    IsNoise front := by
  cases front with
  | nil => trivial
  | cons tag value =>
    obtain ⟨more, rfl⟩ := hfront
    exact h.imp_right fun ⟨other, noState⟩ =>
      ⟨other, fun begins => noState (begins.trans (List.prefix_append value more))⟩

theorem readFields_cons_of_isNoise (h : IsNoise line) (st : State) :
    readFields st (line :: rest) = readFields st rest := by
  have trimmed := h.of_prefix (Text.trimEndWhile_prefix (· == '\r') line)
  rw [readFields]
  split
  case h_1 => rfl
  case h_2 tag value front =>
    rw [front] at trimmed
    rw [step_of_isNoise trimmed]
    rfl

theorem readFields_filter (st : State) (ls : List (List Char)) :
    readFields st (ls.filter (¬ IsNoise ·)) = readFields st ls := by
  induction ls generalizing st with
  | nil => rfl
  | cons line ls ih =>
    by_cases noise : IsNoise line
    · rw [List.filter_cons_of_neg (by simpa using noise), readFields_cons_of_isNoise noise, ih]
    · rw [List.filter_cons_of_pos (by simpa using noise), readFields, readFields]
      split
      · exact ih st
      · exact congrArg _ (ih _)

theorem readFields_of_filter_eq {ls ks : List (List Char)} (h : ls.filter (¬ IsNoise ·) = ks)
    (st : State) : readFields st ls = readFields st ks := by rw [← h, readFields_filter]

end Lines

/-- A file with a socket as the output has it. The host is written with brackets around it or
without them; in each form it does not look like the punctuation beside it. -/
structure ListedFile where
  descriptor : List Char
  protocol : Transport
  inBrackets : Bool
  host : List Char
  number : UInt16
  remote : Option (List Char)
  state : Option (List Char)
  isLine_descriptor : IsLine descriptor := by decide +kernel
  newline_host : '\n' ∉ host := by decide +kernel
  nonempty_host : host ≠ [] := by decide +kernel
  arrowless_host : Arrowless host := by decide +kernel
  close_host : inBrackets = true → ']' ∉ host := by decide +kernel
  open_host : inBrackets = false → host.head? ≠ some '[' := by decide +kernel
  isLine_remote : ∀ r ∈ remote, IsLine r := by decide +kernel
  isLine_state : ∀ s ∈ state, IsLine s := by decide +kernel

namespace ListedFile

def numberText (f : ListedFile) : List Char := Nat.toDigits 10 f.number.toNat

def spelled (f : ListedFile) : List Char :=
  if f.inBrackets then '[' :: (f.host ++ ']' :: ':' :: f.numberText)
  else f.host ++ ':' :: f.numberText

def name (f : ListedFile) : List Char :=
  f.spelled ++ match f.remote with
    | some other => "->".toList ++ other
    | none => []

def stateLines (f : ListedFile) : List (List Char) :=
  match f.state with
  | some s => ['T' :: ("ST=".toList ++ s)]
  | none => []

def protocolName (p : Transport) : List Char :=
  match p with
  | .tcp => "TCP".toList
  | .udp => "UDP".toList

def lines (f : ListedFile) : List (List Char) :=
  ['f' :: f.descriptor, 'P' :: protocolName f.protocol, 'n' :: f.name] ++ f.stateLines

def port (f : ListedFile) : Port :=
  ⟨f.protocol, String.ofList f.host, f.number, String.ofList (f.state.getD []), none⟩

variable (f : ListedFile)

theorem splitEndpoint_spelled : splitEndpoint f.spelled = .ok (String.ofList f.host, f.number) := by
  unfold spelled
  split
  case isTrue h => exact splitEndpoint_inBrackets f.nonempty_host (f.close_host h) f.number
  case isFalse h =>
    exact splitEndpoint_bare f.nonempty_host (f.open_host (Bool.eq_false_iff.2 h)) f.number

theorem arrowless_spelled : Arrowless f.spelled := by
  have colon : Arrowless (':' :: f.numberText) := by
    refine arrowless_of_not_mem fun h => ?_
    rcases List.mem_cons.1 h with h | h
    · exact absurd h (by decide)
    · exact Text.not_mem_toDigits rfl _ h
  unfold spelled
  split
  · have close : Arrowless (']' :: ':' :: f.numberText) :=
      arrowless_cons_iff.2 ⟨fun e => absurd e.1 (by decide), colon⟩
    exact arrowless_cons_iff.2
      ⟨fun e => absurd e.1 (by decide), f.arrowless_host.append close (by simp)⟩
  · exact f.arrowless_host.append colon (by simp)

theorem before_name : Text.before "->".toList f.name = f.spelled := by
  refine before_arrow f.arrowless_spelled ?_
  cases f.remote with
  | none => exact .inl rfl
  | some other => exact .inr ⟨other, rfl⟩

theorem isLine_name : IsLine f.name := by
  have colon : IsLine (':' :: f.numberText) := (Text.isLine_toDigits _).cons (by decide)
  have spelled : IsLine f.spelled := by
    unfold spelled
    split
    · have close : IsLine (']' :: ':' :: f.numberText) := colon.cons (by decide)
      exact (close.append_left f.newline_host (List.cons_ne_nil _ _)).cons (by decide)
    · exact colon.append_left f.newline_host (List.cons_ne_nil _ _)
  have remote := f.isLine_remote
  unfold name
  cases hr : f.remote with
  | none => rwa [List.append_nil]
  | some other =>
    have arrow : IsLine "->".toList := by decide
    exact spelled.append (arrow.append (remote other hr))

theorem isLine_lines : ∀ l ∈ f.lines, IsLine l := by
  have protocol : IsLine ('P' :: protocolName f.protocol) := by
    cases f.protocol <;> decide
  have state : ∀ l ∈ f.stateLines, IsLine l := by
    have tag : IsLine "TST=".toList := by decide
    unfold stateLines
    cases hs : f.state with
    | none => exact List.forall_mem_nil _
    | some s => exact List.forall_mem_singleton.2 (tag.append (f.isLine_state s hs))
  simp only [lines, List.forall_mem_append, List.forall_mem_cons]
  exact ⟨⟨f.isLine_descriptor.cons (by decide), protocol, f.isLine_name.cons (by decide),
    List.forall_mem_nil _⟩, state⟩

theorem not_isNoise_of_mem_lines : ∀ l ∈ f.lines, ¬ IsNoise l := by
  have state : ∀ l ∈ f.stateLines, ¬ IsNoise l := by
    unfold stateLines
    cases f.state with
    | none => exact List.forall_mem_nil _
    | some s => exact List.forall_mem_singleton.2 (by simp [IsNoise])
  simp only [lines, List.forall_mem_append, List.forall_mem_cons]
  exact ⟨⟨by simp [IsNoise], by simp [IsNoise], by simp [IsNoise], List.forall_mem_nil _⟩, state⟩

def opened : OpenFile := ⟨some f.protocol, some f.name, f.state.getD []⟩

theorem ended_opened (pid : UInt32) (command : List Char) :
    State.ended ⟨some pid, command, some f.opened⟩ =
      [.ok ⟨pid, String.ofList command, f.port⟩] := by
  simp only [State.ended, opened, before_name, splitEndpoint_spelled]
  rfl

theorem step_protocolName (st : State) (p : Transport) :
    step st 'P' (protocolName p) = ([], st.mapFile fun f => { f with protocol := some p }) := by
  have read : (Transport.read (String.ofList (protocolName p))).toOption = some p := by
    cases p <;> decide +kernel
  rw [← read]
  rfl

theorem readFields_stateLines {st : State} {o : OpenFile} (open' : st.file = some o)
    (fresh : o.state = []) (rest : List (List Char)) :
    readFields st (f.stateLines ++ rest) =
      readFields { st with file := some { o with state := f.state.getD [] } } rest := by
  have isLine := f.isLine_lines
  obtain ⟨pid, command, file⟩ := st
  obtain rfl : file = some o := open'
  simp only [lines, List.forall_mem_append] at isLine
  unfold stateLines at isLine ⊢
  cases hs : f.state with
  | none =>
    rw [List.nil_append, Option.getD_none, ← fresh]
  | some s =>
    rw [hs] at isLine
    rw [List.singleton_append, readFields_cons (List.forall_mem_singleton.1 isLine.2)]
    rfl

theorem readFields_lines (st : State) (rest : List (List Char)) :
    readFields st (f.lines ++ rest) =
      st.ended ++ readFields { st with file := some f.opened } rest := by
  have isLine := f.isLine_lines
  simp only [lines, List.forall_mem_append, List.forall_mem_cons] at isLine
  obtain ⟨⟨descriptor, protocol, name, -⟩, -⟩ := isLine
  simp only [lines, List.cons_append, List.nil_append]
  rw [readFields_cons descriptor, readFields_cons protocol, readFields_cons name, step_protocolName]
  change st.ended ++ readFields _ (f.stateLines ++ rest) = _
  rw [f.readFields_stateLines rfl rfl]
  rfl

end ListedFile

structure Block where
  pid : UInt32
  command : List Char
  files : List ListedFile
  isLine_command : IsLine command := by decide +kernel

namespace Block

def lines (b : Block) : List (List Char) :=
  ('p' :: Nat.toDigits 10 b.pid.toNat) :: ('c' :: b.command) :: b.files.flatMap (·.lines)

def entries (b : Block) : List Entry := b.files.map fun f => ⟨b.pid, String.ofList b.command, f.port⟩

theorem readFields_files (pid : UInt32) (command : List Char) (file : Option OpenFile)
    (fs : List ListedFile) :
    readFields ⟨some pid, command, file⟩ (fs.flatMap (·.lines)) =
      State.ended ⟨some pid, command, file⟩ ++
        fs.map fun f => .ok ⟨pid, String.ofList command, f.port⟩ := by
  induction fs generalizing file with
  | nil => rw [List.flatMap_nil, List.map_nil, List.append_nil, readFields]
  | cons f fs ih => rw [List.flatMap_cons, f.readFields_lines, ih, f.ended_opened]; rfl

theorem readFields_lines (b : Block) : readFields .initial b.lines = b.entries.map .ok := by
  have number : IsLine ('p' :: Nat.toDigits 10 b.pid.toNat) :=
    (Text.isLine_toDigits _).cons (by decide)
  have command : IsLine ('c' :: b.command) := b.isLine_command.cons (by decide)
  rw [lines, readFields_cons number, readFields_cons command]
  change readFields ⟨Text.uint32? _, b.command, none⟩ _ = _
  rw [Text.uint32?_toDigits, readFields_files, ended_closed, entries, List.map_map]
  rfl

end Block

/-- A process is read by itself after any text that is cut off at the end of a line; and every socket
of a process is found, whatever lines that say nothing about sockets stand between the others. -/
theorem entries_read_attributed :
    (∀ t₁ t₂ : String, (t₁ = "" ∨ t₁.toList.getLast? = some '\n') → t₂.toList.head? = some 'p' →
      (read (t₁ ++ t₂)).entries = (read t₁).entries ++ (read t₂).entries) ∧
    ∀ (b : Block) (ls : List (List Char)), (∀ l ∈ ls, '\n' ∉ l) →
      ls.filter (¬ IsNoise ·) = b.lines →
        (read (String.ofList (Text.terminated ls))).entries = b.entries := by
  refine ⟨fun t₁ t₂ ended process => ?_, fun b ls newline noise => ?_⟩
  · rw [read_append ended process, Listing.entries, List.filterMap_append]
    rfl
  · rw [read_terminated newline, readFields_of_filter_eq noise, b.readFields_lines]
    exact Listing.entries_map_ok _

def torn : String := "p12x\ncinit\nf3\nPTCP\nn*:22\np7\ncsshd\nf3\nPTCP\nn*:22\nf4\nPTCP\n"

def gateway : Block where
  pid := 812
  command := "nginx: master".toList
  files :=
    [{ descriptor := "6".toList, protocol := .tcp, inBrackets := true, host := "fe80::1".toList,
       number := 443, remote := some "[fe80::2]:50022".toList, state := some "ESTABLISHED".toList },
     { descriptor := "11".toList, protocol := .udp, inBrackets := false, host := "::".toList,
       number := 323, remote := none, state := none }]

def gatewayLines : List (List Char) :=
  ["p812", "", "g812", "cnginx: master", "f6", "au", "PTCP", "TQR=0",
    "n[fe80::1]:443->[fe80::2]:50022", "\r", "TST=ESTABLISHED", "TQS=0", "f11", "PUDP",
    "n:::323", "T"].map String.toList

theorem entries_read_torn :
    (torn = "" ∨ torn.toList.getLast? = some '\n') ∧
    (String.ofList (Text.terminated gatewayLines)).toList.head? = some 'p' ∧
    (∀ l ∈ gatewayLines, '\n' ∉ l) ∧ gatewayLines.filter (¬ IsNoise ·) = gateway.lines ∧
    (read (torn ++ String.ofList (Text.terminated gatewayLines))).entries =
      ⟨7, "sshd", ⟨.tcp, "*", 22, "", none⟩⟩ :: gateway.entries := by
  have ended : torn = "" ∨ torn.toList.getLast? = some '\n' := by decide +kernel
  have process : (String.ofList (Text.terminated gatewayLines)).toList.head? = some 'p' := by
    decide +kernel
  have newline : ∀ l ∈ gatewayLines, '\n' ∉ l := by decide +kernel
  have noise : gatewayLines.filter (¬ IsNoise ·) = gateway.lines := by decide +kernel
  have before : (read torn).entries = [⟨7, "sshd", ⟨.tcp, "*", 22, "", none⟩⟩] := by decide +kernel
  refine ⟨ended, process, newline, noise, ?_⟩
  rw [entries_read_attributed.1 _ _ ended process, before,
    entries_read_attributed.2 gateway gatewayLines newline noise]
  rfl

end FleetPosture.Socket.Lsof
