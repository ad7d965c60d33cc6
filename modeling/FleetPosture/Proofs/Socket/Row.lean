import FleetPosture.Proofs.Socket.Bound
import FleetPosture.Proofs.Text.Lines
import FleetPosture.Socket.Netstat

/-! The rows of a table of sockets whose owner is known. The reader counts words to tell a row with a
state from one without, and a program name with blanks adds words of its own: behind a state they do
no harm, but in a row without one the first of two is taken for a state and the second for the owner. -/

namespace FleetPosture.Socket.Netstat

open Text (IsWord IsLine)

structure Widths where
  protocol : Nat
  queue : Nat
  localEnd : Nat
  foreign : Nat
  state : Nat

def Widths.standard : Widths := ⟨5, 6, 23, 23, 11⟩

def flushLeft (width : Nat) (text : List Char) : List Char :=
  text ++ List.replicate (width - text.length) ' '

def flushRight (width : Nat) (text : List Char) : List Char :=
  List.replicate (width - text.length) ' ' ++ text

section Cells

variable {text rest : List Char}

theorem words_flushLeft (h : IsWord text) (width : Nat) :
    Text.words (flushLeft width text ++ ' ' :: rest) = text :: Text.words rest := by
  have shift (k : Nat) : List.replicate k ' ' ++ ' ' :: rest = ' ' :: (List.replicate k ' ' ++ rest) := by
    rw [← List.cons_append, ← List.replicate_succ, List.replicate_succ', List.append_assoc]
    rfl
  rw [flushLeft, List.append_assoc, shift, Text.words_append h (by decide),
    Text.words_replicate _ (by decide)]

theorem words_flushLeft_nil (width : Nat) :
    Text.words (flushLeft width [] ++ ' ' :: rest) = Text.words rest := by
  rw [flushLeft, List.nil_append, Text.words_replicate _ (by decide), Text.words_cons (by decide)]

theorem words_flushRight (h : IsWord text) (width : Nat) :
    Text.words (flushRight width text ++ ' ' :: rest) = text :: Text.words rest := by
  rw [flushRight, List.append_assoc, Text.words_replicate _ (by decide),
    Text.words_append h (by decide)]

theorem newline_flushLeft (h : '\n' ∉ text) (width : Nat) : '\n' ∉ flushLeft width text := by
  simp [flushLeft, h, List.mem_replicate]

theorem newline_flushRight (h : '\n' ∉ text) (width : Nat) : '\n' ∉ flushRight width text := by
  simp [flushRight, h, List.mem_replicate]

end Cells

/-- A row with an owner. Only UDP sockets may be without a state, and the name of the program is any
text on the rest of the line. -/
structure TableRow where
  protocol : Transport
  sixth : Bool
  received : Nat
  unsent : Nat
  host : List Char
  number : UInt16
  foreign : List Char
  state : Option (List Char)
  pid : UInt32
  program : List Char
  isWord_host : IsWord host := by decide +kernel
  bare_host : host.head? ≠ some '[' := by decide +kernel
  isWord_foreign : IsWord foreign := by decide +kernel
  isWord_state : ∀ s ∈ state, IsWord s := by decide +kernel
  stated : protocol = .tcp → state ≠ none := by decide +kernel
  newline_program : '\n' ∉ program := by decide +kernel

namespace TableRow

def protocolName (r : TableRow) : List Char :=
  match r.protocol with
  | .tcp => if r.sixth then "tcp6".toList else "tcp".toList
  | .udp => if r.sixth then "udp6".toList else "udp".toList

def spelled (r : TableRow) : List Char := r.host ++ ':' :: Nat.toDigits 10 r.number.toNat

def owner (r : TableRow) : List Char := Nat.toDigits 10 r.pid.toNat ++ '/' :: r.program

def cells (w : Widths) (r : TableRow) : List (List Char) :=
  [flushLeft w.protocol r.protocolName, flushRight w.queue (Nat.toDigits 10 r.received),
    flushRight w.queue (Nat.toDigits 10 r.unsent), flushLeft w.localEnd r.spelled,
    flushLeft w.foreign r.foreign, flushLeft w.state (r.state.getD [])]

def text (w : Widths) (r : TableRow) : List Char := (r.cells w).flatMap (· ++ [' ']) ++ r.owner

def port (r : TableRow) : Port :=
  ⟨r.protocol, String.ofList r.host, r.number, String.ofList (r.state.getD []), none⟩

def ownerWord (r : TableRow) : List Char :=
  Nat.toDigits 10 r.pid.toNat ++ '/' :: Text.upToBlank r.program

variable (r : TableRow) (w : Widths)

theorem isWord_protocolName : IsWord r.protocolName := by
  unfold protocolName
  cases r.protocol <;> cases r.sixth <;> decide

theorem isWord_spelled : IsWord r.spelled where
  nonempty := List.append_ne_nil_of_left_ne_nil r.isWord_host.nonempty _
  unbroken := Text.unbroken_append.2
    ⟨r.isWord_host.unbroken, Text.unbroken_cons.2 ⟨rfl, Text.unbroken_toDigits _⟩⟩

theorem words_state (rest : List Char) :
    Text.words (flushLeft w.state (r.state.getD []) ++ ' ' :: rest) =
      r.state.toList ++ Text.words rest := by
  have isWord := r.isWord_state
  cases hs : r.state with
  | none => exact words_flushLeft_nil _
  | some s => exact words_flushLeft (isWord s hs) _

theorem words_owner : Text.words r.owner = r.ownerWord :: Text.laterWords r.program := by
  have number : IsWord (Nat.toDigits 10 r.pid.toNat ++ ['/']) :=
    ⟨by simp, Text.unbroken_append.2 ⟨Text.unbroken_toDigits _, by decide⟩⟩
  have words := Text.words_append_eq_cons number r.program
  rwa [List.append_assoc, List.append_assoc] at words

theorem words_text :
    Text.words (r.text w) =
      [r.protocolName, Nat.toDigits 10 r.received, Nat.toDigits 10 r.unsent, r.spelled, r.foreign] ++
        r.state.toList ++ r.ownerWord :: Text.laterWords r.program := by
  simp only [text, cells, List.flatMap_cons, List.flatMap_nil, List.append_assoc, List.cons_append,
    List.nil_append]
  rw [words_flushLeft r.isWord_protocolName, words_flushRight (Text.isWord_toDigits _),
    words_flushRight (Text.isWord_toDigits _), words_flushLeft r.isWord_spelled,
    words_flushLeft r.isWord_foreign, words_state, words_owner]

theorem protocol?_protocolName : protocol? r.protocolName = some r.protocol := by
  unfold protocolName
  cases r.protocol <;> cases r.sixth <;> decide

theorem readOwner_ownerWord : readOwner r.ownerWord = .ok (r.pid, Text.upToBlank r.program) := by
  have cut : Text.cutFirst? '/' r.ownerWord =
      some (Nat.toDigits 10 r.pid.toNat, Text.upToBlank r.program) :=
    Text.cutFirst?_append (Text.not_mem_toDigits rfl _) _
  simp only [readOwner, cut, Text.uint32?_toDigits]

def columns (r : TableRow) : List Char × List Char :=
  match r.state, Text.laterWords r.program with
  | some s, _ => (s, r.ownerWord)
  | none, [] => ([], r.ownerWord)
  | none, second :: _ => (r.ownerWord, second)

theorem readRow_text :
    readRow (r.text w) = (readOwner r.columns.2).map fun owner =>
      ⟨r.protocol, r.spelled, r.columns.1, owner.1, owner.2⟩ := by
  have words := r.words_text w
  unfold columns
  cases hs : r.state with
  | some s =>
    rw [hs] at words
    simp only [Option.toList_some, List.cons_append, List.nil_append] at words
    simp only [readRow, words, protocol?_protocolName]
    rfl
  | none =>
    rw [hs] at words
    simp only [Option.toList_none, List.cons_append, List.nil_append] at words
    cases hl : Text.laterWords r.program with
    | nil =>
      rw [hl] at words
      simp only [readRow, words, protocol?_protocolName]
      rfl
    | cons second more =>
      rw [hl] at words
      simp only [readRow, words, protocol?_protocolName]
      rfl

theorem readLine_text :
    readLine (r.text w) = (readOwner r.columns.2).map fun owner =>
      ⟨owner.1, String.ofList owner.2,
        ⟨r.protocol, String.ofList r.host, r.number, String.ofList r.columns.1, none⟩⟩ := by
  have localEnd : splitEndpoint r.spelled = .ok (String.ofList r.host, r.number) :=
    splitEndpoint_bare r.isWord_host.nonempty r.bare_host r.number
  rw [readLine, readRow_text]
  cases readOwner r.columns.2 with
  | error e => rfl
  | ok owner =>
    change splitEndpoint r.spelled >>= _ = _
    rw [localEnd]
    rfl

theorem columns_of_found (h : r.state = none → Text.laterWords r.program = []) :
    r.columns = (r.state.getD [], r.ownerWord) := by
  unfold columns
  cases hs : r.state with
  | some s => rfl
  | none => rw [h hs]; rfl

theorem readLine_text_of_found (h : r.state = none → Text.laterWords r.program = []) :
    readLine (r.text w) = .ok ⟨r.pid, String.ofList (Text.upToBlank r.program), r.port⟩ := by
  rw [readLine_text, columns_of_found r h, readOwner_ownerWord]
  rfl

theorem newline_text : '\n' ∉ r.text w := by
  have word {text : List Char} (h : IsWord text) : '\n' ∉ text := h.unbroken.oneLine.1
  have digits (n : Nat) : '\n' ∉ Nat.toDigits 10 n := (Text.oneLine_toDigits n).1
  have state : '\n' ∉ r.state.getD [] := by
    have isWord := r.isWord_state
    cases hs : r.state with
    | none => exact List.not_mem_nil
    | some s => exact word (isWord s hs)
  have cells : ∀ cell ∈ r.cells w, '\n' ∉ cell := by
    simp only [TableRow.cells, List.forall_mem_cons]
    exact ⟨newline_flushLeft (word r.isWord_protocolName) _, newline_flushRight (digits _) _,
      newline_flushRight (digits _) _, newline_flushLeft (word r.isWord_spelled) _,
      newline_flushLeft (word r.isWord_foreign) _, newline_flushLeft state _, List.forall_mem_nil _⟩
  have owner : '\n' ∉ r.owner := by simp [TableRow.owner, digits, r.newline_program]
  simp only [text, List.mem_append, List.mem_flatMap, not_or, not_exists, not_and]
  exact ⟨fun cell hcell => ⟨cells cell hcell, by decide⟩, owner⟩

end TableRow

theorem readLine_stripReturn (line : List Char) : readLine (Text.stripReturn line) = readLine line := by
  unfold readLine readRow
  rw [Text.words_stripReturn]

theorem read_terminated {ls : List (List Char)} (h : ∀ l ∈ ls, '\n' ∉ l) :
    read (String.ofList (Text.terminated ls)) = ls.map readLine := by
  rw [read, String.toList_ofList, Text.lines_terminated_eq h, List.map_map]
  exact List.map_congr_left fun line _ => readLine_stripReturn line

/-- A row gives one entry for its owner exactly if it has a state or the name of the program has no
second word. -/
theorem entries_read_row_iff (w : Widths) (r : TableRow) :
    (∃ command, (read (String.ofList (Text.terminated [r.text w]))).entries =
        [⟨r.pid, command, r.port⟩]) ↔
      (r.state = none → Text.laterWords r.program = []) := by
  have line : read (String.ofList (Text.terminated [r.text w])) = [readLine (r.text w)] :=
    read_terminated (List.forall_mem_singleton.2 (r.newline_text w))
  rw [line]
  constructor
  · rintro ⟨command, found⟩ unstated
    by_contra later
    obtain ⟨second, more, split⟩ := List.exists_cons_of_ne_nil later
    have columns : r.columns = (r.ownerWord, second) := by
      rw [TableRow.columns, unstated, split]
    rw [r.readLine_text, columns] at found
    -- whoever the second word names, the state would be the word before it
    cases owner : readOwner second with
    | error e =>
      rw [owner] at found
      cases found
    | ok _ =>
      rw [owner] at found
      have state := congrArg (fun e : Entry => e.port.state) (List.cons.inj found).1
      rw [TableRow.port, unstated] at state
      have empty : r.ownerWord = [] := String.ofList_injective state
      exact List.append_ne_nil_of_right_ne_nil _ (List.cons_ne_nil _ _) empty
  · intro h
    exact ⟨_, congrArg (fun l => Listing.entries [l]) (r.readLine_text_of_found w h)⟩

def unconnected : List Char := "0.0.0.0:*".toList

def multicast : TableRow where
  protocol := .udp
  sixth := false
  received := 0
  unsent := 0
  host := "224.0.0.251".toList
  number := 5353
  foreign := unconnected
  state := none
  pid := 2906
  program := "chrome --type=".toList

theorem multicast_lost :
    String.ofList (multicast.text .standard) =
        "udp        0      0 224.0.0.251:5353        0.0.0.0:*                           " ++
          "2906/chrome --type=" ∧
      ¬ ∃ command, (read (String.ofList (Text.terminated [multicast.text .standard]))).entries =
        [⟨multicast.pid, command, multicast.port⟩] := by
  refine ⟨by decide +kernel, ?_⟩
  rintro ⟨command, found⟩
  have lost : (read (String.ofList (Text.terminated [multicast.text .standard]))).entries = [] := by
    decide +kernel
  rw [lost] at found
  cases found

end FleetPosture.Socket.Netstat
