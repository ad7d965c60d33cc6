import FleetPosture.Proofs.Wire.Fields
import FleetPosture.Ssh.Packet

/-! Packets as they stand on the wire, whatever their padding. Reading a stream gives the payload of
the packet that it begins with, and a stream of which a payload is read begins with such a packet; so
waiting passes over whole packets, up to the one that is decided on. -/

namespace FleetPosture.Ssh

open Text (Bytes)
open Net (StreamEnd)

/-- A packet with any padding that its length byte can count. The bounds are those on the length that
stands before it. -/
structure Packet where
  payload : Bytes
  padding : Bytes
  padding_lt : padding.length < 256
  two_le : 2 ≤ 1 + payload.length + padding.length
  le_max : 1 + payload.length + padding.length ≤ 262144

namespace Packet

def bytes (p : Packet) : Bytes :=
  Wire.bigEndian 4 (1 + p.payload.length + p.padding.length) ++
    UInt8.ofNat p.padding.length :: p.payload ++ p.padding

end Packet

section Read

variable {ending : StreamEnd}

theorem readPacket_bytes (ending : StreamEnd) (p : Packet) (rest : Bytes) :
    readPacket ending (p.bytes ++ rest) = .ok (p.payload, rest) := by
  obtain ⟨payload, padding, padding_lt, two_le, le_max⟩ := p
  have small : 1 + payload.length + padding.length < 256 ^ 4 := by
    omega
  have body : 1 + payload.length + padding.length =
      (UInt8.ofNat padding.length :: (payload ++ padding)).length := by
    rw [List.length_cons, List.length_append]
    omega
  have count : (UInt8.ofNat padding.length).toNat = padding.length := by
    rw [UInt8.toNat_ofNat']
    omega
  have whole : (payload ++ padding).length - padding.length = payload.length := by
    rw [List.length_append, Nat.add_sub_cancel]
  rw [readPacket, Packet.bytes, List.append_assoc, List.append_assoc,
    Wire.take?_append_of_length (Wire.length_bigEndian 4 _)]
  dsimp only
  rw [Wire.number_bigEndian_of_lt small, if_neg (by rw [maxPacket]; omega), List.cons_append,
    ← List.append_assoc, ← List.cons_append, Wire.take?_append_of_length body.symm]
  dsimp only
  rw [count, if_neg (by rw [List.length_append]; omega), whole, List.take_left]

theorem exists_packet {s payload rest : Bytes} (h : readPacket ending s = .ok (payload, rest)) :
    ∃ p : Packet, p.payload = payload ∧ s = p.bytes ++ rest := by
  unfold readPacket at h
  split at h
  · exact absurd h nofun
  · next head tail ht =>
    obtain ⟨rfl, four⟩ := Wire.eq_append_of_take? ht
    dsimp only at h
    split at h
    · exact absurd h nofun
    · next fit =>
      rw [maxPacket] at fit
      split at h
      · next count content after hb =>
        obtain ⟨rfl, length_eq⟩ := Wire.eq_append_of_take? hb
        split at h
        · exact absurd h nofun
        · next short =>
          obtain ⟨rfl, rfl⟩ := Prod.mk.inj (Except.ok.inj h)
          obtain ⟨payload, padding, rfl, counted⟩ : ∃ payload padding : Bytes,
              content = payload ++ padding ∧ padding.length = count.toNat :=
            ⟨content.take (content.length - count.toNat), content.drop (content.length - count.toNat),
              (List.take_append_drop ..).symm, by rw [List.length_drop]; omega⟩
          have cut : (payload ++ padding).length - count.toNat = payload.length := by
            rw [List.length_append, counted, Nat.add_sub_cancel]
          have length : 1 + payload.length + padding.length = Wire.number head := by
            rw [← length_eq, List.length_cons, List.length_append]
            omega
          have bound := count.toNat_lt
          refine ⟨⟨payload, padding, by omega, by omega, by omega⟩, ?_, ?_⟩
          · rw [cut, List.take_left]
          · rw [Packet.bytes]
            dsimp only
            rw [length, counted, UInt8.ofNat_toNat, ← four, Wire.bigEndian_number]
            simp only [List.append_assoc, List.cons_append]
      · exact absurd h nofun

end Read

section Await

variable {α : Type} {ending : StreamEnd} {judge : Bytes → Option (Except Fault α)}

theorem await_turn (ending : StreamEnd) (judge : Bytes → Option (Except Fault α)) (s : Bytes) :
    await ending judge s =
      match readPacket ending s with
      | .error f => .error f
      | .ok (payload, rest) =>
        match judge payload with
        | none => await ending judge rest
        | some r => r.map (·, rest) := by
  rw [await]
  split <;> next h => exact h ▸ rfl

theorem await_of_passed {p : Packet} (passed : judge p.payload = none) (rest : Bytes) :
    await ending judge (p.bytes ++ rest) = await ending judge rest := by
  rw [await_turn, readPacket_bytes]
  simp only [passed]

theorem await_of_decided {p : Packet} {r : Except Fault α} (decided : judge p.payload = some r)
    (rest : Bytes) : await ending judge (p.bytes ++ rest) = r.map (·, rest) := by
  rw [await_turn, readPacket_bytes]
  simp only [decided]

theorem exists_awaited {s rest : Bytes} {a : α} (h : await ending judge s = .ok (a, rest)) :
    ∃ (passed : List Packet) (p : Packet), s = passed.flatMap Packet.bytes ++ (p.bytes ++ rest) ∧
      (∀ q ∈ passed, judge q.payload = none) ∧ judge p.payload = some (.ok a) := by
  fun_induction await ending judge s with
  | case1 s f failed => exact absurd h nofun
  | case2 s payload after read silent ih =>
    obtain ⟨p, rfl, rfl⟩ := exists_packet read
    obtain ⟨passed, q, rfl, passes, decides⟩ := ih h
    refine ⟨p :: passed, q, ?_, List.forall_mem_cons.2 ⟨silent, passes⟩, decides⟩
    rw [List.flatMap_cons, List.append_assoc]
  | case3 s payload after read r decided =>
    obtain ⟨p, rfl, rfl⟩ := exists_packet read
    rcases r with f | b
    · exact absurd h nofun
    · obtain ⟨rfl, rfl⟩ := Prod.mk.inj (Except.ok.inj h)
      exact ⟨[], p, rfl, List.forall_mem_nil _, decided⟩

theorem await_flatMap {passed : List Packet} (silent : ∀ q ∈ passed, judge q.payload = none)
    (rest : Bytes) :
    await ending judge (passed.flatMap Packet.bytes ++ rest) = await ending judge rest := by
  induction passed with
  | nil => rfl
  | cons p passed ih =>
    obtain ⟨first, others⟩ := List.forall_mem_cons.1 silent
    rw [List.flatMap_cons, List.append_assoc, await_of_passed first, ih others]

theorem await_append {s rest : Bytes} {a : α} (h : await ending judge s = .ok (a, rest))
    (later : StreamEnd) (more : Bytes) :
    await later judge (s ++ more) = .ok (a, rest ++ more) := by
  obtain ⟨passed, p, rfl, silent, decides⟩ := exists_awaited h
  rw [List.append_assoc, List.append_assoc, await_flatMap silent, await_of_decided decides]
  rfl

end Await

end FleetPosture.Ssh
