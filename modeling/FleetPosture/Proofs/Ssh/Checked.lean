import FleetPosture.Proofs.Ssh.Packet
import FleetPosture.Proofs.Wire.Checked
import FleetPosture.Ssh.HostKeys

/-! The key exchange with an SSH server by positions in its bytes. The lengths of packets, padding,
name lists and key blobs come from the server; every access, sum and difference that depends on them
is in bounds, and the result is that of reading piece by piece. -/

namespace FleetPosture.Ssh

open Text (Bytes)
open Net (StreamEnd)
open Checked (sum difference byteAt between? slice loop)

def checkedPacket (ending : StreamEnd) (s : Bytes) : Checked (Except Fault (Bytes × Bytes)) :=
  match Wire.take? 4 s with
  | none => .ok (.error (Fault.cutInLength.orStalled ending))
  | some (head, rest) =>
    let length := Wire.number head
    if length < 2 ∨ maxPacket < length then .ok (.error (.packetLength length))
    else
      match Wire.take? length rest with
      | none => .ok (.error (Fault.cutInPacket.orStalled ending))
      | some (body, rest) => do
        let padding := (← byteAt body 0).toNat
        if length < (← sum padding 1) then .ok (.error (.paddingLength padding))
        else
          let payload ← slice body 1 (← difference length padding)
          .ok (.ok (payload, rest))

theorem checkedPacket_eq (ending : StreamEnd) (s : Bytes) :
    checkedPacket ending s = .ok (readPacket ending s) := by
  unfold checkedPacket readPacket
  cases Wire.take? 4 s with
  | none => rfl
  | some p =>
    obtain ⟨head, rest⟩ := p
    dsimp only
    split_ifs with unfit
    · rfl
    · cases ht : Wire.take? (Wire.number head) rest with
      | none => rfl
      | some p =>
        obtain ⟨body, after⟩ := p
        obtain ⟨-, hlen⟩ := Wire.eq_append_of_take? ht
        rw [← hlen] at unfit ⊢
        cases body with
        | nil => simp at unfit
        | cons padding content =>
          have first : byteAt (padding :: content) 0 = .ok padding := rfl
          have small := padding.toNat_lt
          simp only [first, Checked.ok_bind, List.length_cons,
            Checked.sum_of_small (a := padding.toNat) (b := 1) (by omega)]
          by_cases excess : content.length < padding.toNat
          · rw [if_pos (by omega), if_pos excess]
          · rw [if_neg (by omega), if_neg excess, Checked.difference_of_le (by omega),
              Checked.ok_bind, Checked.slice_of_le (by omega) (by simp)]
            have split : content.length + 1 - padding.toNat = content.length - padding.toNat + 1 := by
              omega
            rw [split]
            rfl

def checkedField (buf : Bytes) : Checked (Option (Bytes × Bytes)) :=
  match between? buf 0 4 with
  | none => .ok none
  | some head => do
    let length := Wire.number head
    match between? buf 4 (← sum 4 length) with
    | none => .ok none
    | some content => .ok (some (content, ← slice buf (← sum 4 length) buf.length))

theorem checkedField_eq (buf : Bytes) : checkedField buf = .ok (Wire.field? 4 buf) := by
  have start : between? buf 0 4 = (Wire.take? 4 buf).map (·.1) :=
    Checked.between?_eq_take? buf 0 (n := 4) (.inl (Nat.zero_le _))
  rw [checkedField, Wire.field?, start]
  cases h4 : Wire.take? 4 buf with
  | none => rfl
  | some p =>
    obtain ⟨head, rest⟩ := p
    obtain ⟨rfl, four⟩ := Wire.eq_append_of_take? h4
    have small : Wire.number head < 256 ^ head.length := Wire.number_lt _
    have fits : 4 + Wire.number head < 2 ^ 33 := by
      rw [four] at small
      omega
    have content : between? (head ++ rest) 4 (4 + Wire.number head) =
        (Wire.take? (Wire.number head) rest).map (·.1) := by
      rw [Checked.between?_eq_take? _ _ (.inl (by simp [four])), ← four, List.drop_left]
    simp only [Option.map_some, Checked.sum_of_small fits, Checked.ok_bind, content,
      Option.bind_eq_bind, Option.bind_some]
    cases ht : Wire.take? (Wire.number head) rest with
    | none => rfl
    | some p =>
      obtain ⟨found, after⟩ := p
      obtain ⟨rfl, hlen⟩ := Wire.eq_append_of_take? ht
      have remainder : slice (head ++ (found ++ after)) (4 + Wire.number head)
          (head ++ (found ++ after)).length = .ok after := by
        rw [← List.append_assoc]
        exact Checked.slice_end (head ++ found) after (by simp [four, hlen])
      simp only [Option.map_some, remainder, Checked.ok_bind]

def checkedNameList (s : Bytes) : Checked (Option (List String × Bytes)) := do
  match ← checkedField s with
  | none => .ok none
  | some (content, rest) =>
    match Text.utf8Decode content with
    | .ok text => .ok (some (KexInit.namesOf text, rest))
    | .error _ => .ok none

def checkedNameLists : Nat → Bytes → Checked (Option (List (List String)))
  | 0, _ => .ok (some [])
  | n + 1, s => do
    match ← checkedNameList s with
    | none => .ok none
    | some (names, rest) => .ok ((← checkedNameLists n rest).map (names :: ·))

def checkedKexInit (payload : Bytes) : Checked (Option KexInit) :=
  match between? payload 17 payload.length with
  | none => .ok none
  | some rest => do
    match ← checkedNameLists 10 rest with
    | some (keyExchanges :: hostKeys :: others) => .ok (some ⟨keyExchanges, hostKeys, others⟩)
    | _ => .ok none

theorem checkedNameList_eq (s : Bytes) : checkedNameList s = .ok (KexInit.nameList? s) := by
  rw [checkedNameList, checkedField_eq, Checked.ok_bind, KexInit.nameList?]
  cases Wire.field? 4 s with
  | none => rfl
  | some p =>
    obtain ⟨content, rest⟩ := p
    simp only [Option.bind_eq_bind, Option.bind_some]
    cases Text.utf8Decode content <;> rfl

theorem checkedNameLists_eq (n : Nat) (s : Bytes) :
    checkedNameLists n s = .ok (KexInit.nameLists? n s) := by
  induction n generalizing s with
  | zero => rfl
  | succ n ih =>
    rw [checkedNameLists, checkedNameList_eq, Checked.ok_bind, KexInit.nameLists?]
    cases KexInit.nameList? s with
    | none => rfl
    | some p =>
      obtain ⟨names, rest⟩ := p
      simp only [ih, Checked.ok_bind, Option.bind_eq_bind, Option.bind_some]
      cases KexInit.nameLists? n rest <;> rfl

theorem checkedKexInit_eq (payload : Bytes) : checkedKexInit payload = .ok (KexInit.parse? payload) := by
  rw [checkedKexInit, KexInit.parse?, between?, Wire.take?]
  by_cases long : 17 ≤ payload.length
  · rw [if_pos ⟨long, Nat.le_refl _⟩, if_pos long]
    simp only [List.take_length, checkedNameLists_eq, Checked.ok_bind, Option.bind_eq_bind,
      Option.bind_some]
    cases KexInit.nameLists? 10 (payload.drop 17) with
    | none => rfl
    | some lists =>
      obtain _ | ⟨_, _ | ⟨_, _⟩⟩ := lists
      · rfl
      · rfl
      · rfl
  · rw [if_neg fun h => long h.1, if_neg long]
    rfl

def checkedJudgeKexInit (payload : Bytes) : Checked (Option (Except Fault KexInit)) :=
  match payload.head? with
  | none => .ok none
  | some kind =>
    if kind = kexInitMessage then do
      match ← checkedKexInit payload with
      | some k => .ok (some (.ok k))
      | none => .ok (some (.error .malformedKexInit))
    else if kind = disconnectMessage then .ok (some (.error .disconnected))
    else .ok none

def checkedReadKey (content : Bytes) : Checked (Except Fault HostKey) := do
  match ← checkedField content with
  | none => .ok (.error .malformedReply)
  | some (key, _) =>
    match ← checkedField key with
    | none => .ok (.error .malformedKey)
    | some (type, _) => .ok (.ok ⟨Text.utf8Lossy type, Text.base64 key⟩)

def checkedJudgeReply (payload : Bytes) : Checked (Option (Except Fault HostKey)) :=
  match payload.head? with
  | none => .ok none
  | some kind =>
    if kind = exchangeReplyMessage then do
      .ok (some (← checkedReadKey (← slice payload 1 payload.length)))
    else if kind = disconnectMessage then .ok (some (.error .disconnectedInExchange))
    else .ok none

theorem checkedJudgeKexInit_eq (payload : Bytes) :
    checkedJudgeKexInit payload = .ok (judgeKexInit payload) := by
  unfold checkedJudgeKexInit judgeKexInit
  cases payload.head? with
  | none => rfl
  | some kind =>
    dsimp only
    split_ifs
    · rw [checkedKexInit_eq, Checked.ok_bind]
      cases KexInit.parse? payload <;> rfl
    · rfl
    · rfl

theorem checkedReadKey_eq (content : Bytes) : checkedReadKey content = .ok (readKey content) := by
  rw [checkedReadKey, checkedField_eq, Checked.ok_bind, readKey]
  cases Wire.field? 4 content with
  | none => rfl
  | some p =>
    simp only [checkedField_eq, Checked.ok_bind]
    cases Wire.field? 4 p.1 <;> rfl

theorem checkedJudgeReply_eq (payload : Bytes) :
    checkedJudgeReply payload = .ok (judgeReply payload) := by
  cases payload with
  | nil => rfl
  | cons kind content =>
    have after : slice (kind :: content) 1 (kind :: content).length = .ok content :=
      Checked.slice_end [kind] content rfl
    simp only [checkedJudgeReply, List.head?_cons, after, checkedReadKey_eq, Checked.ok_bind,
      judgeReply]
    split_ifs <;> rfl

variable {α : Type}

def packetTurn (ending : StreamEnd) (judge : Bytes → Checked (Option (Except Fault α))) (s : Bytes) :
    Checked (Bytes ⊕ Except Fault (α × Bytes)) := do
  match ← checkedPacket ending s with
  | .error f => .ok (.inr (.error f))
  | .ok (payload, rest) =>
    match ← judge payload with
    | none => .ok (.inl rest)
    | some r => .ok (.inr (r.map (·, rest)))

def checkedAwait (ending : StreamEnd) (judge : Bytes → Checked (Option (Except Fault α)))
    (s : Bytes) : Checked (Except Fault (α × Bytes)) :=
  loop (packetTurn ending judge) (s.length / 6 + 1) s

/-- One turn reads one packet, which takes at least six bytes off the stream, or ends with what the
wait ends with. -/
theorem packetTurn_await {checked : Bytes → Checked (Option (Except Fault α))}
    {judge : Bytes → Option (Except Fault α)} (same : ∀ p, checked p = .ok (judge p))
    (ending : StreamEnd) (s : Bytes) :
    packetTurn ending checked s = .ok (.inr (await ending judge s)) ∨
      ∃ rest, packetTurn ending checked s = .ok (.inl rest) ∧
        await ending judge rest = await ending judge s ∧ rest.length + 6 ≤ s.length := by
  rw [packetTurn, checkedPacket_eq, Checked.ok_bind, await_turn]
  cases hp : readPacket ending s with
  | error f => exact .inl rfl
  | ok p =>
    obtain ⟨payload, rest⟩ := p
    simp only [same, Checked.ok_bind]
    cases judge payload with
    | none => exact .inr ⟨rest, rfl, rfl, length_of_readPacket hp⟩
    | some r => exact .inl rfl

theorem checkedAwait_eq {checked : Bytes → Checked (Option (Except Fault α))}
    {judge : Bytes → Option (Except Fault α)} (same : ∀ p, checked p = .ok (judge p))
    (ending : StreamEnd) (s : Bytes) : checkedAwait ending checked s = .ok (await ending judge s) :=
  Checked.loop_eq _ List.length (packetTurn_await same ending) (by omega)

def versionTurn (ending : StreamEnd) : Nat × Bytes → Checked ((Nat × Bytes) ⊕ Except Fault Bytes)
  | (0, _) => .ok (.inr (.error .noVersionLine))
  | (n + 1, s) =>
    match readLine ending s with
    | .error f => .ok (.inr (.error f))
    | .ok (line, rest) =>
      match Text.utf8Decode line with
      | .error fault => .ok (.inr (.error (.versionText fault)))
      | .ok text =>
        if "SSH-".toList.isPrefixOf text.toList then .ok (.inr (.ok rest)) else .ok (.inl (n, rest))

theorem versionTurn_eq (ending : StreamEnd) (p : Nat × Bytes) :
    versionTurn ending p = .ok (.inr (afterVersion ending p.1 p.2)) ∨
      ∃ next, versionTurn ending p = .ok (.inl next) ∧
        afterVersion ending next.1 next.2 = afterVersion ending p.1 p.2 ∧ next.1 + 1 ≤ p.1 := by
  obtain ⟨n, s⟩ := p
  cases n with
  | zero => exact .inl rfl
  | succ n =>
    simp only [versionTurn, afterVersion]
    cases readLine ending s with
    | error f => exact .inl rfl
    | ok p =>
      obtain ⟨line, rest⟩ := p
      simp only [Checked.ok_bind]
      cases Text.utf8Decode line with
      | error fault => exact .inl rfl
      | ok text =>
        dsimp only
        split_ifs
        · exact .inl rfl
        · exact .inr ⟨(n, rest), rfl, rfl, Nat.le_refl _⟩

def checkedLists (ending : StreamEnd) (s : Bytes) : Checked (Except Fault (KexInit × Bytes)) := do
  match ← loop (versionTurn ending) (maxPreambleLines + 1) (maxPreambleLines, s) with
  | .error f => .ok (.error f)
  | .ok rest => checkedAwait ending checkedJudgeKexInit rest

theorem checkedLists_eq (ending : StreamEnd) (s : Bytes) :
    checkedLists ending s = .ok (readLists ending s) := by
  have version : loop (versionTurn ending) (maxPreambleLines + 1) (maxPreambleLines, s) =
      .ok (afterVersion ending maxPreambleLines s) :=
    Checked.loop_eq (fun p : Nat × Bytes => afterVersion ending p.1 p.2) (fun p => p.1)
      (versionTurn_eq ending) (by dsimp only; omega)
  rw [checkedLists, version, Checked.ok_bind, readLists]
  cases afterVersion ending maxPreambleLines s with
  | error f => rfl
  | ok rest => exact checkedAwait_eq checkedJudgeKexInit_eq ending rest

def checkedListing (peer : Peer) : Checked (Outcome KexInit) := do
  let (s, ending) := peer clientVersion
  let lists ← checkedLists ending s
  .ok ⟨clientVersion, lists.map (·.1)⟩

def checkedKeyExchange (peer : Peer) (family : List String) (r : Randoms) :
    Checked (Outcome HostKey) := do
  let (s, ending) := peer clientVersion
  match ← checkedLists ending s with
  | .error f => .ok ⟨clientVersion, .error f⟩
  | .ok (server, rest) =>
    match clientOffer server family r with
    | .error f => .ok ⟨clientVersion, .error f⟩
    | .ok offer =>
      let sent := clientVersion ++ offer
      let (s', ending) := peer sent
      let reply ← checkedAwait ending checkedJudgeReply (s'.drop (s.length - rest.length))
      .ok ⟨sent, reply.map (·.1)⟩

theorem checkedListing_eq (peer : Peer) : checkedListing peer = .ok (listing peer) := by
  simp only [checkedListing, checkedLists_eq, Checked.ok_bind, listing]

theorem checkedKeyExchange_eq (peer : Peer) (family : List String) (r : Randoms) :
    checkedKeyExchange peer family r = .ok (keyExchange peer family r) := by
  unfold checkedKeyExchange keyExchange
  simp only [checkedLists_eq, Checked.ok_bind]
  cases readLists (peer clientVersion).2 (peer clientVersion).1 with
  | error f => rfl
  | ok p =>
    obtain ⟨server, rest⟩ := p
    dsimp only
    cases clientOffer server family r with
    | error f => rfl
    | ok offer => simp only [checkedAwait_eq checkedJudgeReply_eq, Checked.ok_bind]

end FleetPosture.Ssh
