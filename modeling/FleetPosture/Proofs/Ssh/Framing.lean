import FleetPosture.Proofs.Ssh.Packet

/-! Framing round trip. A frame is a packet of whole blocks of eight bytes, so the packets of a stream,
read one after the other, give back the payloads that were framed; the same holds of packets that any
other side has padded, since the length and the padding that a packet states say where its payload
ends. -/

namespace FleetPosture.Ssh

open Text (Bytes)
open Net (StreamEnd)

theorem paddingFor_spec (length : Nat) :
    4 ≤ paddingFor length ∧ paddingFor length ≤ 11 ∧ 8 ∣ 5 + length + paddingFor length := by
  unfold paddingFor
  dsimp only
  split <;> omega

def FitsPacket (payload : Bytes) : Prop := 1 + payload.length + paddingFor payload.length ≤ 262144

instance (payload : Bytes) : Decidable (FitsPacket payload) := inferInstanceAs (Decidable (_ ≤ _))

section Frame

variable {payload : Bytes}

def Packet.framed (payload : Bytes) (fits : FitsPacket payload) : Packet where
  payload := payload
  padding := List.replicate (paddingFor payload.length) 0
  padding_lt := by
    obtain ⟨-, most, -⟩ := paddingFor_spec payload.length
    rw [List.length_replicate]
    omega
  two_le := by
    obtain ⟨least, -, -⟩ := paddingFor_spec payload.length
    rw [List.length_replicate]
    omega
  le_max := by rwa [List.length_replicate]

theorem bytes_framed (fits : FitsPacket payload) :
    (Packet.framed payload fits).bytes = frame payload := by
  rw [Packet.bytes, Packet.framed, List.length_replicate]
  rfl

theorem length_frame (payload : Bytes) :
    (frame payload).length = 5 + payload.length + paddingFor payload.length := by
  unfold frame
  simp only [List.length_append, List.length_cons, List.length_replicate, Wire.length_bigEndian]
  omega

theorem exists_padding (payload : Bytes) :
    ∃ n, 4 ≤ n ∧ n ≤ 11 ∧ 8 ∣ (frame payload).length ∧
      frame payload = Wire.bigEndian 4 (1 + payload.length + n) ++
        UInt8.ofNat n :: payload ++ List.replicate n 0 := by
  obtain ⟨least, most, blocks⟩ := paddingFor_spec payload.length
  rw [← length_frame] at blocks
  exact ⟨paddingFor payload.length, least, most, blocks, rfl⟩

theorem exists_framed {payloads : List Bytes} (fit : ∀ payload ∈ payloads, FitsPacket payload) :
    ∃ packets : List Packet, packets.map Packet.payload = payloads ∧
      packets.flatMap Packet.bytes = payloads.flatMap frame := by
  induction payloads with
  | nil => exact ⟨[], rfl, rfl⟩
  | cons payload payloads ih =>
    obtain ⟨first, others⟩ := List.forall_mem_cons.1 fit
    obtain ⟨packets, contents, bytes⟩ := ih others
    refine ⟨.framed payload first :: packets, ?_, ?_⟩
    · rw [List.map_cons, contents, Packet.framed]
    · rw [List.flatMap_cons, List.flatMap_cons, bytes_framed, bytes]

end Frame

section Stream

variable {ending : StreamEnd}

/-- The payloads of the packets of a stream up to the first one that cannot be read, the fault of that
one, and the bytes that are left. -/
def readPackets (ending : StreamEnd) (s : Bytes) : List Bytes × Fault × Bytes :=
  match _h : readPacket ending s with
  | .error fault => ([], fault, s)
  | .ok (payload, rest) =>
    let (later, fault, left) := readPackets ending rest
    (payload :: later, fault, left)
termination_by s.length
decreasing_by have := length_of_readPacket _h; omega

theorem readPackets_of_error {s : Bytes} {fault : Fault} (h : readPacket ending s = .error fault) :
    readPackets ending s = ([], fault, s) := by
  rw [readPackets]
  split <;> next h' => cases h.symm.trans h' <;> rfl

theorem readPackets_bytes (p : Packet) (rest : Bytes) :
    readPackets ending (p.bytes ++ rest) =
      (p.payload :: (readPackets ending rest).1, (readPackets ending rest).2) := by
  have read := readPacket_bytes ending p rest
  rw [readPackets]
  split <;> next h' => cases read.symm.trans h' <;> rfl

theorem readPackets_flatMap (ending : StreamEnd) (packets : List Packet) (rest : Bytes) :
    readPackets ending (packets.flatMap Packet.bytes ++ rest) =
      (packets.map Packet.payload ++ (readPackets ending rest).1, (readPackets ending rest).2) := by
  induction packets with
  | nil => rfl
  | cons p packets ih =>
    rw [List.flatMap_cons, List.append_assoc, readPackets_bytes, ih]
    rfl

theorem readPackets_nil : readPackets ending [] = ([], Fault.cutInLength.orStalled ending, []) :=
  readPackets_of_error rfl

theorem readPacket_eq_ok_iff {s payload rest : Bytes} :
    readPacket ending s = .ok (payload, rest) ↔
      ∃ p : Packet, p.payload = payload ∧ s = p.bytes ++ rest := by
  constructor
  · exact exists_packet
  · rintro ⟨p, rfl, rfl⟩
    exact readPacket_bytes ending p rest

/-- What has been framed is read back in order and to the last byte; a frame has whole blocks and its
padding the usual bounds; and what is read of any stream is the payload of the packet, however padded,
that the stream begins with. -/
theorem framing_exact (ending : StreamEnd) {payloads : List Bytes}
    (fit : ∀ payload ∈ payloads, FitsPacket payload) :
    readPackets ending (payloads.flatMap frame) =
        (payloads, Fault.cutInLength.orStalled ending, []) ∧
      (∀ payload, ∃ n, 4 ≤ n ∧ n ≤ 11 ∧ 8 ∣ (frame payload).length ∧
        frame payload = Wire.bigEndian 4 (1 + payload.length + n) ++
          UInt8.ofNat n :: payload ++ List.replicate n 0) ∧
      ∀ s payload rest, readPacket ending s = .ok (payload, rest) ↔
        ∃ p : Packet, p.payload = payload ∧ s = p.bytes ++ rest := by
  obtain ⟨packets, contents, bytes⟩ := exists_framed fit
  have read := readPackets_flatMap ending packets []
  rw [List.append_nil, bytes, contents, readPackets_nil, List.append_nil] at read
  exact ⟨read, exists_padding, fun _ _ _ => readPacket_eq_ok_iff⟩

theorem framing_exact_largest :
    let payloads : List Bytes := [[], [20, 104, 105], List.replicate 262135 7]
    (∀ payload ∈ payloads, FitsPacket payload) ∧ ¬ FitsPacket (List.replicate 262136 7) ∧
      readPackets .closed (payloads.flatMap frame) = (payloads, .cutInLength, []) := by
  intro payloads
  have largest : FitsPacket (List.replicate 262135 7) := by
    rw [FitsPacket, List.length_replicate]
    decide
  have larger : ¬ FitsPacket (List.replicate 262136 7) := by
    rw [FitsPacket, List.length_replicate]
    decide
  have fit : ∀ payload ∈ payloads, FitsPacket payload := by
    refine List.forall_mem_cons.2 ⟨by decide, List.forall_mem_cons.2 ⟨by decide, ?_⟩⟩
    exact List.forall_mem_singleton.2 largest
  exact ⟨fit, larger, (framing_exact .closed fit).1⟩

end Stream

end FleetPosture.Ssh
