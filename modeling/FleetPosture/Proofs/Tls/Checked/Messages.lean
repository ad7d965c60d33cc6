import FleetPosture.Proofs.Tls.ServerHello
import FleetPosture.Proofs.Wire.Checked
import FleetPosture.Tls.Exchange

/-! Handshake messages by positions in their bytes. The lengths of messages, session ids, extensions
and certificates come from the server; every access and sum that depends on them is in bounds, and
the result is that of reading piece by piece. -/

namespace FleetPosture.Tls

open Text (Bytes)
open Checked (sum byteAt between? slice number16 number24 number24_of_length loop)

namespace HandshakeBuffer

def checkedNext (b : HandshakeBuffer) : Checked (Option (Message × HandshakeBuffer)) :=
  if b.bytes.length < 4 then .ok none
  else do
    let length ← number24 (← slice b.bytes 1 4)
    let last ← sum 4 length
    if b.bytes.length < last then .ok none
    else do
      let kind ← byteAt b.bytes 0
      let body ← slice b.bytes 4 last
      let rest ← slice b.bytes last b.bytes.length
      .ok (some (⟨kind, body⟩, ⟨rest⟩))

theorem next?_short {b : HandshakeBuffer} (h : b.bytes.length < 4) : b.next? = none := by
  unfold next?
  split
  · next e =>
    simp [e] at h
    omega
  · rfl

theorem checkedNext_eq (b : HandshakeBuffer) : b.checkedNext = .ok b.next? := by
  by_cases short : b.bytes.length < 4
  · rw [checkedNext, if_pos short, next?_short short]
  · obtain ⟨bytes⟩ := b
    obtain ⟨kind, h, m, l, rest, rfl⟩ := Wire.exists_four short
    have small : Wire.number [h, m, l] < 256 ^ 3 := Wire.number_lt _
    have fits : 4 + Wire.number [h, m, l] < 2 ^ 33 := by omega
    have head : slice (kind :: h :: m :: l :: rest) 1 4 = .ok [h, m, l] :=
      Checked.slice_of_le (by decide) (by simp)
    unfold checkedNext next?
    rw [if_neg short]
    simp only [head, Checked.ok_bind, number24_of_length [h, m, l] rfl,
      Checked.sum_of_small fits]
    cases ht : Wire.take? (Wire.number [h, m, l]) rest with
    | none =>
      have missing : ¬ Wire.number [h, m, l] ≤ rest.length := fun e => by simp [Wire.take?, e] at ht
      rw [if_pos (by simp; omega)]
      rfl
    | some p =>
      obtain ⟨body, after⟩ := p
      obtain ⟨rfl, hlen⟩ := Wire.eq_append_of_take? ht
      rw [if_neg (by simp; omega), ← hlen]
      have content : slice (kind :: h :: m :: l :: (body ++ after)) 4 (4 + body.length) = .ok body :=
        Checked.slice_middle [kind, h, m, l] body after
      have remainder : slice (kind :: h :: m :: l :: (body ++ after)) (4 + body.length)
          (kind :: h :: m :: l :: (body ++ after)).length = .ok after :=
        Checked.slice_end (kind :: h :: m :: l :: body) after (by simp; omega)
      simp only [content, remainder, Checked.ok_bind]
      rfl

end HandshakeBuffer

namespace ServerHello

def checkedVersion (version : UInt16) (kind length : Nat) (content : Bytes) : Checked UInt16 :=
  if UInt16.ofNat kind = supportedVersions ∧ length = 2 then do
    .ok (UInt16.ofNat (← number16 content))
  else .ok version

def extensionTurn : UInt16 × Bytes → Checked ((UInt16 × Bytes) ⊕ Option UInt16)
  | (version, bs) =>
    if bs.length < 4 then .ok (.inr (some version))
    else do
      let kind ← number16 (← slice bs 0 2)
      let length ← number16 (← slice bs 2 4)
      match between? bs 4 (← sum 4 length) with
      | none => .ok (.inr none)
      | some content =>
        let version ← checkedVersion version kind length content
        .ok (.inl (version, ← slice bs (← sum 4 length) bs.length))

def checkedChoice (version : UInt16) (body : Bytes) (position : Nat) :
    Checked (Option ServerHello) := do
  match between? body position (← sum position 2) with
  | none => .ok none
  | some suite =>
    let suite := UInt16.ofNat (← number16 suite)
    let position ← sum position 3
    match between? body position (← sum position 2) with
    | none => .ok (some ⟨version, suite⟩)
    | some length =>
      let length ← number16 length
      let first ← sum position 2
      match between? body first (← sum first length) with
      | none => .ok none
      | some extensions =>
        let version? ← loop extensionTurn (extensions.length / 4 + 1) (version, extensions)
        .ok (version?.map (⟨·, suite⟩))

def checkedParse (body : Bytes) : Checked (Option ServerHello) :=
  match between? body 0 2, body[34]? with
  | some version, some session => do
    let version := UInt16.ofNat (← number16 version)
    checkedChoice version body (← sum 35 session.toNat)
  | _, _ => .ok none

theorem checkedVersion_eq (version : UInt16) (kind : Nat) (content : Bytes) :
    checkedVersion version kind content.length content =
      .ok (if UInt16.ofNat kind = supportedVersions ∧ content.length = 2 then code content
        else version) := by
  unfold checkedVersion
  split
  · next h =>
    rw [Checked.number16_of_length _ h.2]
    rfl
  · rfl

theorem extensionTurn_eq (s : UInt16 × Bytes) :
    extensionTurn s = .ok (.inr (extendedVersion s.1 s.2)) ∨
      ∃ next, extensionTurn s = .ok (.inl next) ∧
        extendedVersion next.1 next.2 = extendedVersion s.1 s.2 ∧
          next.2.length + 4 ≤ s.2.length := by
  obtain ⟨version, bs⟩ := s
  by_cases short : bs.length < 4
  · exact .inl (by rw [extendedVersion_short short]; exact if_pos short)
  · obtain ⟨a, b, c, d, rest, rfl⟩ := Wire.exists_four short
    have small : Wire.number [c, d] < 256 ^ 2 := Wire.number_lt _
    have fits : 4 + Wire.number [c, d] < 2 ^ 33 := by omega
    have kind : slice (a :: b :: c :: d :: rest) 0 2 = .ok [a, b] :=
      Checked.slice_of_le (by decide) (by simp)
    have length : slice (a :: b :: c :: d :: rest) 2 4 = .ok [c, d] :=
      Checked.slice_of_le (by decide) (by simp)
    have content : between? (a :: b :: c :: d :: rest) 4 (4 + Wire.number [c, d]) =
        (Wire.take? (Wire.number [c, d]) rest).map (·.1) :=
      Checked.between?_eq_take? (a :: b :: c :: d :: rest) 4 (.inl (by simp))
    simp only [extensionTurn, if_neg short, kind, length, Checked.ok_bind,
      Checked.number16_of_length [a, b] rfl, Checked.number16_of_length [c, d] rfl,
      Checked.sum_of_small fits, content, extendedVersion_cons]
    cases ht : Wire.take? (Wire.number [c, d]) rest with
    | none => exact .inl rfl
    | some p =>
      obtain ⟨found, after⟩ := p
      obtain ⟨rfl, hlen⟩ := Wire.eq_append_of_take? ht
      have remainder : slice (a :: b :: c :: d :: (found ++ after)) (4 + found.length)
          (a :: b :: c :: d :: (found ++ after)).length = .ok after :=
        Checked.slice_end (a :: b :: c :: d :: found) after (by simp; omega)
      right
      rw [← hlen]
      simp only [Option.map_some, checkedVersion_eq, remainder, Checked.ok_bind]
      exact ⟨_, rfl, rfl, by simp⟩

theorem extensions_eq (version : UInt16) (bs : Bytes) :
    loop extensionTurn (bs.length / 4 + 1) (version, bs) = .ok (extendedVersion version bs) :=
  Checked.loop_eq (fun s : UInt16 × Bytes => extendedVersion s.1 s.2) (fun s => s.2.length)
    extensionTurn_eq (by dsimp only; omega)

theorem checkedChoice_eq {version : UInt16} {body : Bytes} {position : Nat} (h : position < 300) :
    checkedChoice version body position = .ok (choice? version (body.drop position)) := by
  unfold checkedChoice choice?
  rw [Checked.sum_of_small (by omega), Checked.ok_bind, Checked.between?_eq_take? _ _ (.inr (by decide))]
  cases hs : Wire.take? 2 (body.drop position) with
  | none => rfl
  | some p =>
    obtain ⟨suite, rest⟩ := p
    obtain ⟨after, two⟩ := Checked.drop_of_take? _ _ hs
    have next : rest.drop 1 = body.drop (position + 3) := by rw [← after, List.drop_drop]
    simp only [Option.map_some, Option.bind_eq_bind, Option.bind_some, Checked.ok_bind,
      Checked.number16_of_length _ two, next]
    rw [Checked.sum_of_small (by omega), Checked.ok_bind,
      Checked.sum_of_small (by omega), Checked.ok_bind,
      Checked.between?_eq_take? _ _ (.inr (by decide))]
    cases hl : Wire.take? 2 (body.drop (position + 3)) with
    | none => rfl
    | some p =>
      obtain ⟨length, rest'⟩ := p
      obtain ⟨after', two'⟩ := Checked.drop_of_take? _ _ hl
      have within : position + 3 + 2 ≤ body.length := by
        have split := congrArg List.length (Wire.eq_append_of_take? hl).1
        rw [List.length_drop, List.length_append] at split
        omega
      have small : Wire.number length < 256 ^ length.length := Wire.number_lt _
      rw [two'] at small
      simp only [Option.map_some, Checked.ok_bind, Checked.number16_of_length _ two']
      rw [Checked.sum_of_small (by omega),
        Checked.ok_bind, Checked.between?_eq_take? _ _ (.inl within), after']
      cases he : Wire.take? (Wire.number length) rest' with
      | none => rfl
      | some p =>
        obtain ⟨extensions, _⟩ := p
        simp only [Option.map_some, Option.bind_some, extensions_eq, Checked.ok_bind]
        cases extendedVersion version extensions <;> rfl

theorem checkedParse_eq (body : Bytes) : checkedParse body = .ok (parse? body) := by
  have start : between? body 0 2 = (Wire.take? 2 body).map (·.1) :=
    Checked.between?_eq_take? body 0 (n := 2) (.inl (Nat.zero_le _))
  rw [parse?_eq_choice?, checkedParse, start]
  cases h2 : Wire.take? 2 body with
  | none => rfl
  | some p =>
    obtain ⟨version, r2⟩ := p
    obtain ⟨d2, two⟩ := Checked.drop_of_take? body 0 h2
    simp only [Option.map_some, Option.bind_eq_bind, Option.bind_some]
    have session_at (tail : Bytes) (h : body.drop 34 = tail) : body[34]? = tail[0]? := by
      rw [← h, List.getElem?_drop]
    cases h32 : Wire.take? 32 r2 with
    | none =>
      have short : body.drop 34 = [] := by
        rw [Wire.take?_eq_none_iff, ← d2, List.length_drop] at h32
        exact List.drop_eq_nil_of_le (by omega)
      rw [session_at [] short]
      rfl
    | some p =>
      obtain ⟨nonce, r34⟩ := p
      rw [← d2] at h32
      obtain ⟨d34, -⟩ := Checked.drop_of_take? _ _ h32
      rw [session_at r34 d34]
      cases r34 with
      | nil => rfl
      | cons session r35 =>
        have small := session.toNat_lt
        have after : body.drop (35 + session.toNat) = r35.drop session.toNat := by
          have split : 35 + session.toNat = 34 + (session.toNat + 1) := by omega
          rw [split, ← List.drop_drop, show body.drop 34 = _ from d34]
          rfl
        have fits : 35 + session.toNat < 2 ^ 33 := by omega
        have number : Wire.number [session] = session.toNat := by simp [Wire.number]
        have field : Wire.field? 1 (session :: r35) = Wire.take? session.toNat r35 := by
          rw [← number]
          rfl
        simp only [List.getElem?_cons_zero, Checked.number16_of_length _ two, Checked.ok_bind,
          Checked.sum_of_small fits, field, Option.bind_some]
        rw [checkedChoice_eq (by omega), after]
        unfold Wire.take?
        split
        · rfl
        · next short =>
          rw [List.drop_eq_nil_of_le (by omega)]
          rfl

end ServerHello

def checkedCertificate (body : Bytes) : Checked (Option Bytes) :=
  match between? body 3 6 with
  | none => .ok none
  | some length => do
    let last ← sum 6 (← number24 length)
    .ok ((between? body 6 last).filter fun der => !der.isEmpty)

theorem checkedCertificate_eq (body : Bytes) :
    checkedCertificate body = .ok (firstCertificate body) := by
  have length : between? body 3 6 = (Wire.take? 3 (body.drop 3)).map (·.1) :=
    Checked.between?_eq_take? body 3 (n := 3) (.inr (by decide))
  have certificate : firstCertificate body =
      (Wire.field? 3 (body.drop 3)).bind fun p => if p.1.isEmpty then none else some p.1 := by
    by_cases short : body.length < 3
    · rw [firstCertificate, Wire.take?_eq_none_iff.2 short, List.drop_eq_nil_of_le (by omega)]
      rfl
    · rw [firstCertificate, Wire.take?, if_pos (by omega)]
      rfl
  rw [checkedCertificate, length, certificate, Wire.field?]
  cases hl : Wire.take? 3 (body.drop 3) with
  | none => rfl
  | some p =>
    obtain ⟨head, r6⟩ := p
    obtain ⟨d6, three⟩ := Checked.drop_of_take? _ _ hl
    have within : 6 ≤ body.length := by
      have split := congrArg List.length (Wire.eq_append_of_take? hl).1
      rw [List.length_drop, List.length_append] at split
      omega
    have small : Wire.number head < 256 ^ head.length := Wire.number_lt _
    have fits : 6 + Wire.number head < 2 ^ 33 := by
      rw [three] at small
      omega
    simp only [Option.map_some, Checked.number24_of_length _ three, Checked.ok_bind,
      Checked.sum_of_small fits, Checked.between?_eq_take? _ _ (.inl within), show body.drop 6 = r6 from d6,
      Option.bind_eq_bind, Option.bind_some]
    cases Wire.take? (Wire.number head) r6 with
    | none => rfl
    | some p => cases h : p.1 <;> simp [h, Option.filter]

end FleetPosture.Tls
