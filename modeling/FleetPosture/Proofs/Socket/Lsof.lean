import FleetPosture.Proofs.Socket.Block

/-! The field output of a list of sockets is read back. It is a block for each process, in which the
lengths of the queues are all that says nothing about the sockets, so every process has the ports of
its sockets in the order of the list. -/

namespace FleetPosture.Socket

open Text (Unbroken)

namespace Bound

def file (b : Bound) : Lsof.ListedFile where
  descriptor := Nat.toDigits 10 b.descriptor
  protocol := b.protocol
  inBrackets := ':' ∈ b.host
  host := b.host
  number := b.number
  remote := b.remote
  state := b.state?
  isLine_descriptor := Text.isLine_toDigits _
  newline_host := b.isWord_host.unbroken.oneLine.1
  nonempty_host := b.isWord_host.nonempty
  arrowless_host := b.arrowless
  close_host _ := b.unbracketed.2
  open_host _ := b.unbracketed.1
  isLine_remote r hr := (b.oneLine_remote r hr).isLine
  isLine_state s hs := (b.isWord_of_mem_state? s hs).unbroken.oneLine.isLine

theorem port_file (b : Bound) : b.file.port = b.port := by
  have state : b.file.state.getD [] = b.state := b.getD_state?
  rw [Lsof.ListedFile.port, state]
  rfl

def queueFields (b : Bound) : List (List Char) :=
  if b.measured then
    ['T' :: ("QR=".toList ++ Nat.toDigits 10 b.received),
      'T' :: ("QS=".toList ++ Nat.toDigits 10 b.unsent)]
  else []

def fields (b : Bound) : List (List Char) := b.file.lines ++ b.queueFields

end Bound

namespace Lsof

def commandOf (pid : UInt32) (bs : List Bound) : List Char :=
  ((ownedBy pid bs).head?.map (·.program)).getD []

def processFields (bs : List Bound) (pid : UInt32) : List (List Char) :=
  ('p' :: Nat.toDigits 10 pid.toNat) :: ('c' :: commandOf pid bs) ::
    (ownedBy pid bs).flatMap (·.fields)

def written (order : List UInt32) (bs : List Bound) : String :=
  String.ofList (Text.terminated (order.flatMap (processFields bs)))

end Lsof

namespace Bound

theorem isNoise_of_mem_queueFields (b : Bound) : ∀ l ∈ b.queueFields, Lsof.IsNoise l := by
  unfold queueFields
  split
  · simp only [List.forall_mem_cons]
    exact ⟨by simp [Lsof.IsNoise], by simp [Lsof.IsNoise], List.forall_mem_nil _⟩
  · exact List.forall_mem_nil _

theorem newline_queueFields (b : Bound) : ∀ l ∈ b.queueFields, '\n' ∉ l := by
  have digits (n : Nat) : '\n' ∉ Nat.toDigits 10 n := (Text.oneLine_toDigits n).1
  unfold queueFields
  split
  · simp [digits]
  · exact List.forall_mem_nil _

theorem newline_fields (b : Bound) : ∀ l ∈ b.fields, '\n' ∉ l :=
  List.forall_mem_append.2 ⟨fun l hl => (b.file.isLine_lines l hl).newline, b.newline_queueFields⟩

theorem filter_fields (b : Bound) : b.fields.filter (¬ Lsof.IsNoise ·) = b.file.lines := by
  have lines : b.file.lines.filter (¬ Lsof.IsNoise ·) = b.file.lines :=
    List.filter_eq_self.2 fun l hl => decide_eq_true (b.file.not_isNoise_of_mem_lines l hl)
  have queues : b.queueFields.filter (¬ Lsof.IsNoise ·) = [] :=
    List.filter_eq_nil_iff.2 fun l hl => by simpa using b.isNoise_of_mem_queueFields l hl
  rw [fields, List.filter_append, lines, queues, List.append_nil]

end Bound

namespace Lsof

section Processes

variable {bs : List Bound}

theorem unbroken_commandOf (pid : UInt32) (bs : List Bound) : Unbroken (commandOf pid bs) := by
  unfold commandOf
  cases hb : (ownedBy pid bs).head? with
  | none => exact Text.unbroken_nil
  | some b => exact b.unbroken_program

def blockOf (bs : List Bound) (pid : UInt32) : Block where
  pid := pid
  command := commandOf pid bs
  files := (ownedBy pid bs).map Bound.file
  isLine_command := (unbroken_commandOf pid bs).oneLine.isLine

theorem filter_processFields (bs : List Bound) (pid : UInt32) :
    (processFields bs pid).filter (¬ IsNoise ·) = (blockOf bs pid).lines := by
  have number (value : List Char) : ¬ IsNoise ('p' :: value) := by simp [IsNoise]
  have command (value : List Char) : ¬ IsNoise ('c' :: value) := by simp [IsNoise]
  rw [processFields, List.filter_cons_of_pos (by simpa using number _),
    List.filter_cons_of_pos (by simpa using command _), List.filter_flatMap, Block.lines, blockOf,
    List.flatMap_map]
  simp only [Bound.filter_fields]

theorem newline_processFields (bs : List Bound) (pid : UInt32) :
    ∀ l ∈ processFields bs pid, '\n' ∉ l := by
  have digits := (Text.oneLine_toDigits pid.toNat).1
  have command := (unbroken_commandOf pid bs).oneLine.1
  simp only [processFields, List.forall_mem_cons]
  refine ⟨by simp [digits], by simp [command], fun l hl => ?_⟩
  obtain ⟨b, -, hl⟩ := List.mem_flatMap.1 hl
  exact b.newline_fields l hl

def processEntries (bs : List Bound) (pid : UInt32) : List Entry :=
  (ownedBy pid bs).map fun b => ⟨pid, String.ofList (commandOf pid bs), b.port⟩

theorem readFields_processFields (bs : List Bound) (pid : UInt32) :
    readFields .initial (processFields bs pid) = (processEntries bs pid).map .ok := by
  have entries : (blockOf bs pid).entries = processEntries bs pid := by
    simp only [Block.entries, blockOf, List.map_map, processEntries, Function.comp_def,
      Bound.port_file]
  rw [readFields_of_filter_eq (filter_processFields bs pid), Block.readFields_lines, entries]

theorem readFields_processes (order : List UInt32) :
    readFields .initial (order.flatMap (processFields bs)) =
      (order.flatMap (processEntries bs)).map .ok := by
  induction order with
  | nil => rfl
  | cons pid order ih =>
    rw [List.flatMap_cons, List.flatMap_cons, List.map_append, ← readFields_processFields, ← ih]
    cases order with
    | nil =>
      rw [List.flatMap_nil, List.append_nil]
      exact (List.append_nil _).symm
    | cons next order => exact readFields_append_process _ _ _ _

theorem entries_read_written (order : List UInt32) :
    (read (written order bs)).entries = order.flatMap (processEntries bs) := by
  have newline : ∀ l ∈ order.flatMap (processFields bs), '\n' ∉ l := fun l hl => by
    obtain ⟨pid, -, hl⟩ := List.mem_flatMap.1 hl
    exact newline_processFields bs pid l hl
  have fields : read (written order bs) = readFields .initial (order.flatMap (processFields bs)) :=
    read_terminated newline
  rw [fields, readFields_processes]
  exact Listing.entries_map_ok _

theorem portsOf_processEntries (pid owner : UInt32) :
    portsOf pid (processEntries bs owner) =
      if owner = pid then (ownedBy pid bs).map Bound.port else [] := by
  have owned : ∀ e ∈ processEntries bs owner, e.pid = owner := fun e he => by
    obtain ⟨b, -, rfl⟩ := List.mem_map.1 he
    rfl
  unfold portsOf
  split
  case isTrue h =>
    rw [List.filter_eq_self.2 fun e he => beq_iff_eq.2 ((owned e he).trans h), processEntries,
      List.map_map, h]
    rfl
  case isFalse h =>
    rw [List.filter_eq_nil_iff.2 fun e he same => h ((owned e he).symm.trans (eq_of_beq same)),
      List.map_nil]

theorem portsOf_processes {order : List UInt32} (once : order.Nodup) (pid : UInt32) :
    portsOf pid (order.flatMap (processEntries bs)) =
      if pid ∈ order then (ownedBy pid bs).map Bound.port else [] := by
  induction order with
  | nil => rfl
  | cons owner order ih =>
    obtain ⟨fresh, once⟩ := List.nodup_cons.1 once
    have append : portsOf pid ((owner :: order).flatMap (processEntries bs)) =
        portsOf pid (processEntries bs owner) ++ portsOf pid (order.flatMap (processEntries bs)) := by
      simp only [portsOf, List.flatMap_cons, List.filter_append, List.map_append]
    rw [append, portsOf_processEntries, ih once]
    by_cases h : owner = pid
    · subst h
      rw [if_pos rfl, if_neg fresh, if_pos List.mem_cons_self, List.append_nil]
    · simp only [if_neg h, List.nil_append, List.mem_cons, Ne.symm h, false_or]

theorem portsOf_read_written {order : List UInt32} (once : order.Nodup)
    (all : ∀ b ∈ bs, b.pid ∈ order) (pid : UInt32) :
    portsOf pid (read (written order bs)).entries = (ownedBy pid bs).map Bound.port := by
  rw [entries_read_written, portsOf_processes once]
  by_cases hpid : pid ∈ order
  · rw [if_pos hpid]
  · have none : ownedBy pid bs = [] := by
      rw [ownedBy, List.filter_eq_nil_iff]
      exact fun b hb same => hpid (eq_of_beq same ▸ all b hb)
    rw [if_neg hpid, none, List.map_nil]

end Processes

end Lsof
end FleetPosture.Socket
