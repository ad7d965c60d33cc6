import FleetPosture.Proofs.Tls.ServerHello
import FleetPosture.Tls.Exchange

/-! Handshake messages are put together from bytes as they arrive. A message that has arrived is not
changed by what comes later, so it does not matter in which portions the bytes come; and however
arrivals and calls for a message take turns, the messages returned and the bytes left are what has
arrived. -/

namespace FleetPosture.Tls

open Text (Bytes)

namespace Message

def encoded (m : Message) : Bytes := m.kind :: Wire.field 3 m.body

theorem length_encoded (m : Message) : m.encoded.length = m.body.length + 4 := by
  unfold encoded
  rw [List.length_cons, Wire.length_field]
  omega

end Message

def SentHello.message (h : SentHello) : Message := ⟨2, h.body⟩

def BeginsWithMessage (bs : Bytes) : Prop :=
  ∃ m rest, m.body.length < 256 ^ 3 ∧ bs = Message.encoded m ++ rest

def Incomplete (bs : Bytes) : Prop :=
  ∃ m missing, m.body.length < 256 ^ 3 ∧ missing ≠ [] ∧ Message.encoded m = bs ++ missing

namespace HandshakeBuffer

variable {b c : HandshakeBuffer} {m : Message}

theorem next?_encoded (fits : m.body.length < 256 ^ 3) (rest : Bytes) :
    next? ⟨m.encoded ++ rest⟩ = some (m, ⟨rest⟩) := by
  obtain ⟨x, y, z, length⟩ := List.length_eq_three.1 (Wire.length_bigEndian 3 m.body.length)
  have counted : Wire.number [x, y, z] = m.body.length := by
    rw [← length, Wire.number_bigEndian_of_lt fits]
  unfold next? Message.encoded Wire.field
  simp only [length, List.cons_append, List.nil_append, counted, Wire.take?_append, Option.map_some]

theorem eq_append_of_next? (h : b.next? = some (m, c)) :
    m.body.length < 256 ^ 3 ∧ b.bytes = m.encoded ++ c.bytes := by
  obtain ⟨bytes⟩ := b
  unfold next? at h
  split at h
  case h_1 kind x y z rest e =>
    obtain rfl : bytes = kind :: x :: y :: z :: rest := e
    obtain ⟨⟨body, after⟩, taken, same⟩ := Option.map_eq_some_iff.1 h
    obtain ⟨rfl, rfl⟩ := Prod.mk.inj same
    obtain ⟨rfl, length⟩ := Wire.eq_append_of_take? taken
    have fits : body.length < 256 ^ 3 := by
      rw [length]
      exact Wire.number_lt [x, y, z]
    have counted : Wire.bigEndian 3 body.length = [x, y, z] := by
      rw [length]
      exact Wire.bigEndian_number [x, y, z]
    refine ⟨fits, ?_⟩
    unfold Message.encoded Wire.field
    rw [counted]
    rfl
  case h_2 => exact absurd h (by simp)

theorem next?_eq_some_iff :
    b.next? = some (m, c) ↔ m.body.length < 256 ^ 3 ∧ b.bytes = m.encoded ++ c.bytes := by
  constructor
  · exact eq_append_of_next?
  · obtain ⟨bytes⟩ := b
    rintro ⟨fits, split⟩
    obtain rfl : bytes = m.encoded ++ c.bytes := split
    exact next?_encoded fits c.bytes

theorem next?_eq_none_iff : b.next? = none ↔ ¬ BeginsWithMessage b.bytes := by
  rw [Option.eq_none_iff_forall_not_mem]
  constructor
  · rintro none ⟨m, rest, fits, split⟩
    exact none (m, ⟨rest⟩) (next?_eq_some_iff.2 ⟨fits, split⟩)
  · rintro incomplete ⟨m, c⟩ next
    obtain ⟨fits, split⟩ := eq_append_of_next? next
    exact incomplete ⟨m, c.bytes, fits, split⟩

theorem next?_push (h : b.next? = some (m, c)) (bs : Bytes) :
    (b.push bs).next? = some (m, c.push bs) := by
  obtain ⟨fits, split⟩ := eq_append_of_next? h
  refine next?_eq_some_iff.2 ⟨fits, ?_⟩
  unfold push
  rw [split, List.append_assoc]

theorem next?_of_incomplete {bs : Bytes} (h : Incomplete bs) : next? ⟨bs⟩ = none := by
  obtain ⟨m, missing, fits, nonempty, whole⟩ := h
  cases next : next? ⟨bs⟩ with
  | none => rfl
  | some p =>
    -- the missing bytes would both end the message and be left over after it
    have more := next?_push next missing
    have all := next?_encoded fits []
    rw [List.append_nil, whole] at all
    have rests : p.2.push missing = ⟨[]⟩ :=
      congrArg Prod.snd (Option.some.inj (more.symm.trans all))
    have none_missing := List.append_eq_nil_iff.1 (congrArg HandshakeBuffer.bytes rests)
    exact absurd none_missing.2 nonempty

theorem messages_of_none (h : b.next? = none) : b.messages = ([], b) := by
  rw [messages]
  split <;> simp_all

theorem messages_of_some (h : b.next? = some (m, c)) :
    b.messages = (m :: c.messages.1, c.messages.2) := by
  rw [messages]
  split <;> simp_all

theorem push_nil (b : HandshakeBuffer) : b.push [] = b := by
  unfold push
  rw [List.append_nil]

theorem push_append (b : HandshakeBuffer) (bs cs : Bytes) :
    b.push (bs ++ cs) = (b.push bs).push cs := by
  unfold push
  rw [List.append_assoc]

theorem length_push (b : HandshakeBuffer) (bs : Bytes) :
    (b.push bs).bytes.length = b.bytes.length + bs.length := by
  unfold push
  rw [List.length_append]

theorem next?_messages (b : HandshakeBuffer) : b.messages.2.next? = none := by
  fun_induction messages b with
  | case1 b h => exact h
  | case2 b m c h ms d split ih => rwa [split] at ih

theorem length_messages (b : HandshakeBuffer) : b.messages.2.bytes.length ≤ b.bytes.length := by
  fun_induction messages b with
  | case1 b h => exact Nat.le_refl _
  | case2 b m c h ms d split ih =>
    have smaller := length_of_next? h
    rw [split] at ih
    exact Nat.le_trans ih (by omega)

theorem messages_push (b : HandshakeBuffer) (bs : Bytes) :
    (b.push bs).messages =
      (b.messages.1 ++ (b.messages.2.push bs).messages.1, (b.messages.2.push bs).messages.2) := by
  fun_induction messages b with
  | case1 b h => rfl
  | case2 b m c h ms d split ih =>
    rw [messages_of_some (next?_push h bs), ih, split]
    rfl

theorem messages_encoded {ms : List Message} (fits : ∀ m ∈ ms, m.body.length < 256 ^ 3)
    {rest : Bytes} (incomplete : Incomplete rest) :
    messages ⟨ms.flatMap Message.encoded ++ rest⟩ = (ms, ⟨rest⟩) := by
  induction ms with
  | nil => exact messages_of_none (next?_of_incomplete incomplete)
  | cons m ms ih =>
    obtain ⟨head, tail⟩ := List.forall_mem_cons.1 fits
    rw [List.flatMap_cons, List.append_assoc, messages_of_some (next?_encoded head _), ih tail]

end HandshakeBuffer

inductive BufferCall
  | push (bs : Bytes)
  | next

def BufferCall.pushed : BufferCall → Bytes
  | push bs => bs
  | next => []

structure Reassembly where
  returned : List Message
  buffer : HandshakeBuffer

namespace Reassembly

def start : Reassembly := ⟨[], .empty⟩

def call (r : Reassembly) : BufferCall → Reassembly
  | .push bs => { r with buffer := r.buffer.push bs }
  | .next =>
    match r.buffer.next? with
    | some (m, rest) => ⟨r.returned ++ [m], rest⟩
    | none => r

def run (calls : List BufferCall) : Reassembly := calls.foldl call start

/-- The messages, written again, and the bytes that are left are what has arrived. -/
structure Accounts (r : Reassembly) (arrived : Bytes) : Prop where
  bytes : r.returned.flatMap Message.encoded ++ r.buffer.bytes = arrived
  fits : ∀ m ∈ r.returned, m.body.length < 256 ^ 3

variable {r : Reassembly} {arrived : Bytes}

theorem accounts_start : start.Accounts [] := ⟨rfl, List.forall_mem_nil _⟩

theorem Accounts.push (h : r.Accounts arrived) (bs : Bytes) :
    (r.call (.push bs)).Accounts (arrived ++ bs) := by
  obtain ⟨bytes, fits⟩ := h
  refine ⟨?_, fits⟩
  rw [← bytes, List.append_assoc]
  rfl

theorem Accounts.next (h : r.Accounts arrived) : (r.call .next).Accounts arrived := by
  unfold call
  cases next : r.buffer.next? with
  | none => exact h
  | some p =>
    obtain ⟨m, rest⟩ := p
    obtain ⟨bytes, fits⟩ := h
    obtain ⟨short, split⟩ := HandshakeBuffer.eq_append_of_next? next
    refine ⟨?_, List.forall_mem_append.2 ⟨fits, List.forall_mem_singleton.2 short⟩⟩
    rw [← bytes, split, List.flatMap_append, List.flatMap_singleton, List.append_assoc]

theorem Accounts.call (h : r.Accounts arrived) (c : BufferCall) :
    (r.call c).Accounts (arrived ++ c.pushed) := by
  cases c with
  | push bs => exact h.push bs
  | next =>
    rw [BufferCall.pushed, List.append_nil]
    exact h.next

theorem accounts_foldl (h : r.Accounts arrived) (calls : List BufferCall) :
    (calls.foldl Reassembly.call r).Accounts (arrived ++ calls.flatMap BufferCall.pushed) := by
  induction calls generalizing r arrived with
  | nil =>
    rw [List.flatMap_nil, List.append_nil]
    exact h
  | cons c calls ih =>
    rw [List.flatMap_cons, ← List.append_assoc]
    exact ih (h.call c)

/-- However pushes and calls for a message take turns, no byte is lost and none is made up, and a call
returns nothing just when the bytes at hand do not begin with a message. -/
theorem run_conserves (calls : List BufferCall) :
    (run calls).returned.flatMap Message.encoded ++ (run calls).buffer.bytes =
        calls.flatMap BufferCall.pushed ∧
      (∀ m ∈ (run calls).returned, m.body.length < 256 ^ 3) ∧
      ∀ b : HandshakeBuffer, b.next? = none ↔ ¬ BeginsWithMessage b.bytes := by
  obtain ⟨bytes, fits⟩ := accounts_foldl accounts_start calls
  exact ⟨bytes, fits, fun _ => HandshakeBuffer.next?_eq_none_iff⟩

end Reassembly
end FleetPosture.Tls
