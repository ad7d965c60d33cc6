import FleetPosture.Ssh.Fault
import FleetPosture.Wire

/-!
Packets of the SSH transport before encryption: a length, the length of the padding, the payload and
the padding. Written packets are padded to a multiple of eight bytes with at least four.
-/

namespace FleetPosture.Ssh

open Text (Bytes)
open Net (StreamEnd)

def maxPacket : Nat := 256 * 1024

def paddingFor (length : Nat) : Nat :=
  let n := 8 - (5 + length) % 8
  if n < 4 then n + 8 else n

def frame (payload : Bytes) : Bytes :=
  let padding := paddingFor payload.length
  Wire.bigEndian 4 (1 + payload.length + padding) ++ UInt8.ofNat padding :: payload ++
    List.replicate padding 0

def readPacket (ending : StreamEnd) (s : Bytes) : Except Fault (Bytes × Bytes) :=
  match Wire.take? 4 s with
  | none => .error (Fault.cutInLength.orStalled ending)
  | some (head, rest) =>
    let length := Wire.number head
    if length < 2 ∨ maxPacket < length then .error (.packetLength length)
    else
      match Wire.take? length rest with
      | some (padding :: content, rest) =>
        if content.length < padding.toNat then .error (.paddingLength padding.toNat)
        else .ok (content.take (content.length - padding.toNat), rest)
      | _ => .error (Fault.cutInPacket.orStalled ending)

theorem length_of_readPacket {ending : StreamEnd} {s payload rest : Bytes}
    (h : readPacket ending s = .ok (payload, rest)) : rest.length + 6 ≤ s.length := by
  unfold readPacket at h
  split at h
  · exact absurd h (by simp)
  · next head tail ht =>
    obtain ⟨rfl, hhead⟩ := Wire.eq_append_of_take? ht
    dsimp only at h
    split at h
    · exact absurd h (by simp)
    · next hn =>
      split at h
      · next padding content after hb =>
        obtain ⟨rfl, hlen⟩ := Wire.eq_append_of_take? hb
        split at h
        · exact absurd h (by simp)
        · obtain ⟨-, rfl⟩ := Prod.mk.inj (Except.ok.inj h)
          simp only [List.length_append]
          omega
      · exact absurd h (by simp)

/-- Reads packets up to the first one that `judge` decides on; the others are passed over. -/
def await {α : Type} (ending : StreamEnd) (judge : Bytes → Option (Except Fault α)) (s : Bytes) :
    Except Fault (α × Bytes) :=
  match _h : readPacket ending s with
  | .error f => .error f
  | .ok (payload, rest) =>
    match judge payload with
    | none => await ending judge rest
    | some r => r.map (·, rest)
termination_by s.length
decreasing_by have := length_of_readPacket _h; omega

end FleetPosture.Ssh
