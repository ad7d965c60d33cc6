import FleetPosture.Proofs.Tls.Checked.Messages
import FleetPosture.Proofs.Tls.Records
import Mathlib.Logic.Basic

/-! The exchange with a server by positions in its bytes: records, and the messages that arrive in
them. No server brings it out of bounds or keeps it going. -/

namespace FleetPosture.Tls

open Text (Bytes)
open Net (StreamEnd)
open Checked (byteAt loop)

def Flight.checkedStep (o : Offer) (f : Flight) (m : Message) : Checked (Except Reply Flight) :=
  if m.kind = serverHello then do
    match ← ServerHello.checkedParse m.body with
    | none => .ok (.error .notTls)
    | some hello =>
      if hello.version ≠ o.version.code ∨ hello.suite ≠ o.suite then .ok (.error .refused)
      else if !o.wantDetails ∨ o.version = .tls13 then .ok (.error (.accepted f.details))
      else .ok (.ok { f with isAccepted := true })
  else if m.kind = certificateMessage then do
    let certificate ← checkedCertificate m.body
    .ok (.ok { f with details := { f.details with certificate } })
  else .ok (f.step o m)

theorem Flight.checkedStep_eq (o : Offer) (f : Flight) (m : Message) :
    f.checkedStep o m = .ok (f.step o m) := by
  unfold checkedStep
  split
  · next hello =>
    rw [ServerHello.checkedParse_eq, Checked.ok_bind, step, if_pos hello]
    cases ServerHello.parse? m.body with
    | none => rfl
    | some sh => dsimp only; split_ifs <;> rfl
  · next other =>
    split
    · next certificate =>
      rw [checkedCertificate_eq, Checked.ok_bind, step, if_neg other, if_pos certificate]
    · rfl

def messageTurn (o : Offer) (s : Flight × HandshakeBuffer) :
    Checked ((Flight × HandshakeBuffer) ⊕ Except Reply (Flight × HandshakeBuffer)) := do
  match ← s.2.checkedNext with
  | none => .ok (.inr (.ok s))
  | some (m, rest) =>
    match ← s.1.checkedStep o m with
    | .error reply => .ok (.inr (.error reply))
    | .ok f => .ok (.inl (f, rest))

def takeMessages (o : Offer) (s : Flight × HandshakeBuffer) :
    Except Reply (Flight × HandshakeBuffer) :=
  (s.2.messages.1.foldlM (Flight.step o) s.1).map (·, s.2.messages.2)

theorem messageTurn_eq (o : Offer) (s : Flight × HandshakeBuffer) :
    messageTurn o s = .ok (.inr (takeMessages o s)) ∨
      ∃ next, messageTurn o s = .ok (.inl next) ∧ takeMessages o next = takeMessages o s ∧
        next.2.bytes.length + 4 ≤ s.2.bytes.length := by
  obtain ⟨f, b⟩ := s
  rw [messageTurn, b.checkedNext_eq, Checked.ok_bind]
  cases hn : b.next? with
  | none =>
    left
    rw [takeMessages, HandshakeBuffer.messages_of_none hn]
    rfl
  | some p =>
    obtain ⟨m, c⟩ := p
    have smaller := HandshakeBuffer.length_of_next? hn
    simp only [takeMessages, HandshakeBuffer.messages_of_some hn, List.foldlM_cons, f.checkedStep_eq,
      Checked.ok_bind]
    cases f.step o m with
    | error reply => exact .inl rfl
    | ok g => exact .inr ⟨(g, c), rfl, rfl, smaller⟩

theorem messageLoop_eq (o : Offer) (s : Flight × HandshakeBuffer) :
    loop (messageTurn o) (s.2.bytes.length / 4 + 1) s = .ok (takeMessages o s) :=
  Checked.loop_eq _ (fun s : Flight × HandshakeBuffer => s.2.bytes.length) (messageTurn_eq o) (by omega)

structure Reading where
  unread : Bytes
  buffer : HandshakeBuffer
  flight : Flight

def recordTurn (o : Offer) (ending : StreamEnd) (r : Reading) : Checked (Reading ⊕ Reply) :=
  match Wire.take? 5 r.unread with
  | none => .ok (.inr (r.flight.conclude ending .cut))
  | some (header, rest) => do
    let kind ← byteAt header 0
    if kind = 0x15 then .ok (.inr (r.flight.conclude ending .alert))
    else if kind ≠ 0x16 then .ok (.inr .notTls)
    else
      let length := Wire.number [← byteAt header 3, ← byteAt header 4]
      if (← byteAt header 1) ≠ 3 ∨ length = 0 ∨ maxRecord < length then .ok (.inr .notTls)
      else
        match Wire.take? length rest with
        | none => .ok (.inr (r.flight.conclude ending .cut))
        | some (content, rest) =>
          let buffer := r.buffer.push content
          if maxFlight < buffer.bytes.length then .ok (.inr .notTls)
          else
            match ← loop (messageTurn o) (buffer.bytes.length / 4 + 1) (r.flight, buffer) with
            | .error reply => .ok (.inr reply)
            | .ok (flight, buffer) => .ok (.inl ⟨rest, buffer, flight⟩)

def checkedExchange (o : Offer) (ending : StreamEnd) (s : Bytes) : Checked Reply :=
  loop (recordTurn o ending) (s.length / 6 + 1) ⟨s, .empty, .start⟩

theorem recordTurn_eq (o : Offer) (ending : StreamEnd) (r : Reading) :
    recordTurn o ending r =
      match readRecord r.unread with
      | .cut => .ok (.inr (r.flight.conclude ending .cut))
      | .alert => .ok (.inr (r.flight.conclude ending .alert))
      | .foreign => .ok (.inr .notTls)
      | .handshake content rest =>
        if maxFlight < (r.buffer.push content).bytes.length then .ok (.inr .notTls)
        else
          match takeMessages o (r.flight, r.buffer.push content) with
          | .error reply => .ok (.inr reply)
          | .ok (flight, buffer) => .ok (.inl ⟨rest, buffer, flight⟩) := by
  unfold recordTurn
  cases ht : Wire.take? 5 r.unread with
  | none => rw [readRecord_short (Wire.take?_eq_none_iff.1 ht)]
  | some p =>
    obtain ⟨header, rest⟩ := p
    obtain ⟨split, five⟩ := Wire.eq_append_of_take? ht
    match header, five with
    | [kind, major, minor, h, l], _ =>
      have at0 : byteAt [kind, major, minor, h, l] 0 = .ok kind := rfl
      have at1 : byteAt [kind, major, minor, h, l] 1 = .ok major := rfl
      have at3 : byteAt [kind, major, minor, h, l] 3 = .ok h := rfl
      have at4 : byteAt [kind, major, minor, h, l] 4 = .ok l := rfl
      simp only [split, List.cons_append, List.nil_append, readRecord, at0, at1, at3, at4,
        Checked.ok_bind]
      by_cases alert : kind = 0x15
      · rw [if_pos alert, if_pos alert]
      · by_cases handshake : kind = 0x16
        · by_cases malformed : major ≠ 3 ∨ Wire.number [h, l] = 0 ∨ maxRecord < Wire.number [h, l]
          · rw [if_neg alert, if_neg alert, if_neg (not_not.2 handshake), if_pos malformed,
              if_pos (.inr malformed)]
          · rw [if_neg alert, if_neg alert, if_neg (not_not.2 handshake), if_neg malformed,
              if_neg (not_or.2 ⟨not_not.2 handshake, malformed⟩)]
            cases Wire.take? (Wire.number [h, l]) rest with
            | none => rfl
            | some p =>
              obtain ⟨content, rest⟩ := p
              have taken := messageLoop_eq o (r.flight, r.buffer.push content)
              dsimp only at taken ⊢
              rw [taken, Checked.ok_bind]
        · rw [if_neg alert, if_neg alert, if_pos handshake, if_pos (.inl handshake)]

/-- One turn reads one record, which takes at least six bytes off the stream, or ends with the reply
of the exchange. -/
theorem recordTurn_exchange (o : Offer) (ending : StreamEnd) (r : Reading) :
    recordTurn o ending r = .ok (.inr (exchange o ending r.flight r.buffer r.unread)) ∨
      ∃ next, recordTurn o ending r = .ok (.inl next) ∧
        exchange o ending next.flight next.buffer next.unread =
          exchange o ending r.flight r.buffer r.unread ∧
        next.unread.length + 6 ≤ r.unread.length := by
  rw [recordTurn_eq, exchange_turn]
  cases hr : readRecord r.unread with
  | cut => exact .inl rfl
  | alert => exact .inl rfl
  | foreign => exact .inl rfl
  | handshake content rest =>
    dsimp only
    split_ifs with oversized
    · exact .inl rfl
    · rw [takeMessages]
      cases List.foldlM (Flight.step o) r.flight (r.buffer.push content).messages.1 with
      | error reply => exact .inl rfl
      | ok f => exact .inr ⟨_, rfl, rfl, length_of_readRecord hr⟩

theorem checkedExchange_eq (o : Offer) (ending : StreamEnd) (s : Bytes) :
    checkedExchange o ending s = .ok (exchange o ending .start .empty s) :=
  Checked.loop_eq (fun r : Reading => exchange o ending r.flight r.buffer r.unread)
    (fun r => r.unread.length) (recordTurn_exchange o ending) (by dsimp only; omega)

end FleetPosture.Tls
