import FleetPosture.Proofs.Tls.Flight
import FleetPosture.Proofs.Tls.Reassembly

/-! The records of a stream are an envelope. What a server says is the content of its records; where
one record ends and the next begins has no bearing on the reply. -/

namespace FleetPosture.Tls

open Text (Bytes)
open Net (StreamEnd)

structure HandshakeRecord where
  minor : UInt8
  content : Bytes
  nonempty : content ≠ []
  fits : content.length ≤ 18432

namespace HandshakeRecord

def bytes (r : HandshakeRecord) : Bytes := 0x16 :: 3 :: r.minor :: Wire.field 2 r.content

end HandshakeRecord

def stream (rs : List HandshakeRecord) : Bytes := rs.flatMap HandshakeRecord.bytes

def contents (rs : List HandshakeRecord) : Bytes := rs.flatMap HandshakeRecord.content

variable {o : Offer} {ending : StreamEnd}

theorem contents_cons (r : HandshakeRecord) (rs : List HandshakeRecord) :
    contents (r :: rs) = r.content ++ contents rs := List.flatMap_cons

theorem stream_cons (r : HandshakeRecord) (rs : List HandshakeRecord) :
    stream (r :: rs) = r.bytes ++ stream rs := List.flatMap_cons

theorem HandshakeRecord.exists_header (r : HandshakeRecord) :
    ∃ h l, Wire.number [h, l] = r.content.length ∧
      r.bytes = 0x16 :: 3 :: r.minor :: h :: l :: r.content := by
  have small : r.content.length < 256 ^ 2 := Nat.lt_of_le_of_lt r.fits (by decide)
  obtain ⟨h, l, length⟩ := List.length_eq_two.1 (Wire.length_bigEndian 2 r.content.length)
  refine ⟨h, l, ?_, ?_⟩
  · rw [← length, Wire.number_bigEndian_of_lt small]
  · unfold bytes Wire.field
    rw [length]
    rfl

theorem readRecord_header (r : HandshakeRecord) {h l : UInt8}
    (length : Wire.number [h, l] = r.content.length) (rest : Bytes) :
    readRecord (0x16 :: 3 :: r.minor :: h :: l :: rest) =
      match Wire.take? r.content.length rest with
      | some (content, rest) => .handshake content rest
      | none => .cut := by
  have nonempty := List.length_pos_iff.2 r.nonempty
  have admissible : ¬ ((0x16 : UInt8) ≠ 0x16 ∨ (3 : UInt8) ≠ 3 ∨ r.content.length = 0 ∨
      18432 < r.content.length) := by
    rintro (kind | major | empty | large)
    · exact kind rfl
    · exact major rfl
    · exact absurd empty (Nat.ne_of_gt nonempty)
    · exact absurd r.fits (Nat.not_le_of_lt large)
  unfold readRecord
  dsimp only
  rw [length]
  exact (if_neg (by decide)).trans (if_neg admissible)

theorem readRecord_bytes (r : HandshakeRecord) (rest : Bytes) :
    readRecord (r.bytes ++ rest) = .handshake r.content rest := by
  obtain ⟨h, l, length, layout⟩ := r.exists_header
  rw [layout, List.cons_append, List.cons_append, List.cons_append, List.cons_append,
    List.cons_append, readRecord_header r length, Wire.take?_append]

theorem readRecord_alert (major minor high low : UInt8) (rest : Bytes) :
    readRecord (0x15 :: major :: minor :: high :: low :: rest) = .alert := by
  unfold readRecord
  dsimp only
  exact if_pos rfl

theorem readRecord_short {s : Bytes} (h : s.length < 5) : readRecord s = .cut := by
  unfold readRecord
  split
  · simp at h
    omega
  · rfl

theorem readRecord_take (r : HandshakeRecord) {n : Nat} (h : n < r.bytes.length) :
    readRecord (r.bytes.take n) = .cut := by
  obtain ⟨high, low, length, layout⟩ := r.exists_header
  rcases Nat.lt_or_ge n 5 with short | enough
  · apply readRecord_short
    rw [List.length_take]
    omega
  · obtain ⟨k, rfl⟩ := Nat.exists_eq_add_of_le' enough
    rw [layout] at h ⊢
    have missing : Wire.take? r.content.length (r.content.take k) = none := by
      rw [Wire.take?_eq_none_iff, List.length_take]
      simp only [List.length_cons] at h
      omega
    simp only [List.take_succ_cons]
    rw [readRecord_header r length, missing]

theorem arrivals_handshake {buffer : HandshakeBuffer} {s content rest : Bytes}
    (read : readRecord s = .handshake content rest)
    (fits : (buffer.push content).bytes.length ≤ 262144) :
    arrivals buffer s =
      ((buffer.push content).messages.1 ++ (arrivals (buffer.push content).messages.2 rest).1,
        (arrivals (buffer.push content).messages.2 rest).2) := by
  rw [arrivals]
  split
  case h_4 content' rest' read' =>
    obtain ⟨rfl, rfl⟩ := RecordRead.handshake.inj (read.symm.trans read')
    dsimp only
    rw [if_neg (Nat.not_lt_of_le fits)]
  all_goals next read' => exact absurd (read.symm.trans read') (by simp)

theorem arrivals_alert {buffer : HandshakeBuffer} {s : Bytes} (read : readRecord s = .alert) :
    arrivals buffer s = ([], .alert) := by
  rw [arrivals]
  split <;> simp_all

theorem arrivals_cut {buffer : HandshakeBuffer} {s : Bytes} (read : readRecord s = .cut) :
    arrivals buffer s = ([], .cut) := by
  rw [arrivals]
  split <;> simp_all

theorem arrivals_stream {buffer : HandshakeBuffer} (settled : buffer.next? = none)
    {rs : List HandshakeRecord} (fits : (buffer.push (contents rs)).bytes.length ≤ 262144)
    (tail : Bytes) :
    arrivals buffer (stream rs ++ tail) =
      ((buffer.push (contents rs)).messages.1 ++
          (arrivals (buffer.push (contents rs)).messages.2 tail).1,
        (arrivals (buffer.push (contents rs)).messages.2 tail).2) := by
  induction rs generalizing buffer with
  | nil =>
    have nothing : buffer.push (contents []) = buffer := buffer.push_nil
    rw [nothing, HandshakeBuffer.messages_of_none settled]
    rfl
  | cons r rs ih =>
    rw [contents_cons, HandshakeBuffer.push_append] at fits ⊢
    have later := HandshakeBuffer.length_messages (buffer.push r.content)
    rw [HandshakeBuffer.length_push] at fits
    have within : (buffer.push r.content).bytes.length ≤ 262144 :=
      Nat.le_trans (Nat.le_add_right _ _) fits
    have fits' :
        ((buffer.push r.content).messages.2.push (contents rs)).bytes.length ≤ 262144 := by
      rw [HandshakeBuffer.length_push]
      exact Nat.le_trans (Nat.add_le_add_right later _) fits
    -- what the first record leaves holds no message either, which is what the induction needs
    rw [stream_cons, List.append_assoc, arrivals_handshake (readRecord_bytes r _) within,
      ih (HandshakeBuffer.next?_messages _) fits',
      HandshakeBuffer.messages_push (buffer.push r.content) (contents rs), List.append_assoc]

/-- Streams that bring the same content in different records, and then the same, are answered
alike. -/
theorem attempt_recut (o : Offer) (ending : StreamEnd) {content : Bytes}
    (fits : content.length ≤ 262144) {rs ts : List HandshakeRecord} (cut : contents rs = content)
    (recut : contents ts = content) (tail : Bytes) :
    attempt o (.ok (stream rs ++ tail, ending)) = attempt o (.ok (stream ts ++ tail, ending)) := by
  have unopened : HandshakeBuffer.empty.next? = none := rfl
  have heard {us : List HandshakeRecord} (same : contents us = content) :
      arrivals .empty (stream us ++ tail) =
        ((HandshakeBuffer.messages ⟨content⟩).1 ++
            (arrivals (HandshakeBuffer.messages ⟨content⟩).2 tail).1,
          (arrivals (HandshakeBuffer.messages ⟨content⟩).2 tail).2) := by
    subst same
    exact arrivals_stream unopened fits tail
  unfold attempt Except.map
  dsimp only
  rw [exchange_eq_judge, exchange_eq_judge, heard cut, heard recut]

def bytewise (bs : Bytes) : List HandshakeRecord :=
  bs.map fun b => ⟨1, [b], List.cons_ne_nil b [], Nat.succ_le_succ (Nat.zero_le _)⟩

theorem contents_bytewise (bs : Bytes) : contents (bytewise bs) = bs := by
  unfold contents bytewise
  rw [List.flatMap_map]
  exact List.flatMap_singleton' bs

theorem attempt_recut_bytewise :
    let content := (SentHello.plain 0x0303 0xc02f).message.encoded ++ [13, 0, 0]
    ∃ (nonempty : content ≠ []) (fits : content.length ≤ 18432),
      content.length ≤ 262144 ∧ contents [⟨3, content, nonempty, fits⟩] = content ∧
        contents (bytewise content) = content ∧
        attempt ⟨.tls12, 0xc02f, true⟩
            (.ok (stream [⟨3, content, nonempty, fits⟩] ++ [0x15, 3, 3, 0, 2, 1, 0], .closed)) =
          attempt ⟨.tls12, 0xc02f, true⟩
            (.ok (stream (bytewise content) ++ [0x15, 3, 3, 0, 2, 1, 0], .closed)) := by
  intro content
  have nonempty : content ≠ [] := by decide
  have fits : content.length ≤ 18432 := by decide
  have small : content.length ≤ 262144 := by decide
  have whole : contents [⟨3, content, nonempty, fits⟩] = content := by
    rw [contents_cons]
    exact List.append_nil content
  exact ⟨nonempty, fits, small, whole, contents_bytewise content,
    attempt_recut ⟨.tls12, 0xc02f, true⟩ .closed small whole (contents_bytewise content) _⟩

end FleetPosture.Tls
