import FleetPosture.Proofs.Tls.Acceptance
import FleetPosture.Proofs.Tls.Records

/-! A legacy flight that has accepted an offer stays accepted wherever it ends, and shows the
certificate and the request among the messages that have arrived in full. -/

namespace FleetPosture.Tls

open Text (Bytes)
open Net (StreamEnd)

namespace Message

def IsCertificate (m : Message) : Prop := m.kind = 11

def IsRequest (m : Message) : Prop := m.kind = 13

instance (m : Message) : Decidable m.IsCertificate := inferInstanceAs (Decidable (_ = _))

end Message

def chain (entries : List Bytes) : Bytes := Wire.field 3 (entries.flatMap (Wire.field 3))

theorem firstCertificate_chain {first : Bytes} {others : List Bytes} (nonempty : first ≠ [])
    (fits : (chain (first :: others)).length < 256 ^ 3) :
    firstCertificate (chain (first :: others)) = some first := by
  have short : first.length < 256 ^ 3 := by
    unfold chain at fits
    rw [Wire.length_field, List.flatMap_cons, List.length_append, Wire.length_field] at fits
    omega
  have split := Wire.take?_append_of_length
    (Wire.length_bigEndian 3 ((first :: others).flatMap (Wire.field 3)).length)
    ((first :: others).flatMap (Wire.field 3))
  unfold firstCertificate chain
  rw [Wire.field, split]
  simp only [Option.bind_eq_bind, Option.bind_some]
  rw [List.flatMap_cons, Wire.field?_append short]
  exact if_neg (by simpa using nonempty)

def FlightDetails.note (d : FlightDetails) (m : Message) : FlightDetails :=
  if m.kind = 11 then { d with certificate := firstCertificate m.body }
  else if m.kind = 13 then { d with clientCertificate := true }
  else d

structure FlightDetails.Shows (d : FlightDetails) (received : List Message) : Prop where
  request : d.clientCertificate ↔ ∃ m ∈ received, m.IsRequest
  certificate : ∀ before first others after,
    received = before ++ ⟨11, chain (first :: others)⟩ :: after →
    (∀ m ∈ after, ¬ m.IsCertificate) → first ≠ [] → d.certificate = some first
  none : (∀ m ∈ received, ¬ m.IsCertificate) → d.certificate = .none

variable {o : Offer} {ending : StreamEnd} {stop : FlightEnd} {m : Message} {ms : List Message}

namespace FlightDetails

theorem note_clientCertificate (d : FlightDetails) (m : Message) :
    (d.note m).clientCertificate ↔ d.clientCertificate ∨ m.IsRequest := by
  unfold note Message.IsRequest
  split_ifs with certificate request
  · have other : m.kind ≠ 13 := by rw [certificate]; decide
    simp [other]
  · simp [request]
  · simp [request]

theorem note_certificate (d : FlightDetails) (h : ¬ m.IsCertificate) :
    (d.note m).certificate = d.certificate := by
  have other : ¬ m.kind = 11 := h
  unfold note
  rw [if_neg other]
  split_ifs <;> rfl

theorem foldl_note_clientCertificate (d : FlightDetails) (ms : List Message) :
    (ms.foldl note d).clientCertificate ↔ d.clientCertificate ∨ ∃ m ∈ ms, m.IsRequest := by
  induction ms generalizing d with
  | nil => simp
  | cons m ms ih =>
    rw [List.foldl_cons, ih, note_clientCertificate, List.exists_mem_cons_iff, or_assoc]

theorem foldl_note_certificate (d : FlightDetails) (h : ∀ m ∈ ms, ¬ m.IsCertificate) :
    (ms.foldl note d).certificate = d.certificate := by
  induction ms generalizing d with
  | nil => rfl
  | cons m ms ih =>
    obtain ⟨head, tail⟩ := List.forall_mem_cons.1 h
    rw [List.foldl_cons, ih (d.note m) tail, note_certificate d head]

theorem shows_foldl_note (fits : ∀ m ∈ ms, m.body.length < 256 ^ 3) :
    (ms.foldl note .none).Shows ms where
  request := by
    rw [foldl_note_clientCertificate]
    simp [FlightDetails.none]
  certificate := by
    rintro before first others after rfl last nonempty
    have short := fits _ (List.mem_append_right _ List.mem_cons_self)
    rw [List.foldl_append, List.foldl_cons, foldl_note_certificate _ last]
    exact firstCertificate_chain nonempty short
  none h := foldl_note_certificate .none h

end FlightDetails

theorem Flight.step_note (f : Flight) (hello : ¬ m.IsHello) (done : ¬ m.IsDone) :
    f.step o m = .ok { f with details := f.details.note m } := by
  have kind : ¬ m.kind = serverHello := hello
  unfold step certificateMessage certificateRequest FlightDetails.note
  rw [if_neg kind]
  split_ifs with certificate request last
  · rfl
  · rfl
  · exact absurd last done
  · rfl

theorem judge_note (f : Flight) (quiet : ∀ m ∈ ms, ¬ m.IsHello ∧ ¬ m.IsDone) (rest : List Message) :
    judge o ending stop f (ms ++ rest) =
      judge o ending stop { f with details := ms.foldl FlightDetails.note f.details } rest := by
  induction ms generalizing f with
  | nil => rfl
  | cons m ms ih =>
    obtain ⟨⟨hello, done⟩, tail⟩ := List.forall_mem_cons.1 quiet
    rw [List.cons_append, judge_of_step_ok (f.step_note hello done), ih _ tail]
    rfl

theorem SentHello.confirms {h : SentHello} {v : ProtocolVersion}
    (version : h.chosenVersion = v.wire) (wantDetails : Bool) :
    h.message.Confirms ⟨v, h.suite, wantDetails⟩ := by
  have parsed : ServerHello.parse? (h.body ++ []) = some ⟨h.chosenVersion, h.suite⟩ :=
    h.parse?_body_append fun _ => rfl
  rw [List.append_nil, version] at parsed
  exact ⟨rfl, parsed⟩

theorem judge_opened {h : SentHello} {v : ProtocolVersion} (version : h.chosenVersion = v.wire)
    (legacy : v ≠ .tls13) (quiet : ∀ m ∈ ms, ¬ m.IsHello ∧ ¬ m.IsDone) (rest : List Message) :
    judge ⟨v, h.suite, true⟩ ending stop .start (h.message :: ms ++ rest) =
      judge ⟨v, h.suite, true⟩ ending stop ⟨true, ms.foldl FlightDetails.note .none⟩ rest := by
  have opens : Flight.start.step ⟨v, h.suite, true⟩ h.message = .ok ⟨true, .none⟩ := by
    rw [Flight.step_confirms (h.confirms version true), if_neg (by simpa using legacy)]
    rfl
  rw [List.cons_append, judge_of_step_ok opens, judge_note _ quiet]

structure Brings (rs : List HandshakeRecord) (received : List Message) (part : Bytes) : Prop where
  content : contents rs = received.flatMap Message.encoded ++ part
  incomplete : Incomplete part
  small : (contents rs).length ≤ 262144

namespace Brings

variable {rs : List HandshakeRecord} {received : List Message} {part : Bytes}

theorem body_lt (h : Brings rs received part) : ∀ m ∈ received, m.body.length < 256 ^ 3 := by
  intro m hm
  have within : m.encoded.length ≤ (received.flatMap Message.encoded).length :=
    Wire.length_le_length_flatMap hm
  have small := h.small
  rw [h.content, List.length_append] at small
  rw [m.length_encoded] at within
  omega

theorem arrivals_eq (h : Brings rs received part) (tail : Bytes) :
    arrivals .empty (stream rs ++ tail) =
      (received ++ (arrivals ⟨part⟩ tail).1, (arrivals ⟨part⟩ tail).2) := by
  have arrived : (HandshakeBuffer.empty.push (contents rs)).messages = (received, ⟨part⟩) := by
    rw [h.content]
    exact HandshakeBuffer.messages_encoded h.body_lt h.incomplete
  have fits : (HandshakeBuffer.empty.push (contents rs)).bytes.length ≤ 262144 := h.small
  rw [arrivals_stream rfl fits, arrived]

end Brings

/-- A flight as a server delivers it, with the messages of it that arrive in full. -/
inductive Delivers (received : List Message) : Bytes → StreamEnd → Prop
  | complete {rs : List HandshakeRecord} {done : Message} (isDone : done.IsDone)
      (brings : Brings rs (received ++ [done]) []) (rest : Bytes) (ending : StreamEnd) :
      Delivers received (stream rs ++ rest) ending
  | alert {rs : List HandshakeRecord} {part : Bytes} (brings : Brings rs received part)
      (major minor high low : UInt8) (rest : Bytes) (ending : StreamEnd) :
      Delivers received (stream rs ++ 0x15 :: major :: minor :: high :: low :: rest) ending
  | broken {rs : List HandshakeRecord} {part : Bytes} (brings : Brings rs received part)
      (next : HandshakeRecord) {n : Nat} (short : n < next.bytes.length) (ending : StreamEnd) :
      Delivers received (stream rs ++ next.bytes.take n) ending

theorem Delivers.body_lt {received : List Message} {s : Bytes}
    (h : Delivers received s ending) : ∀ m ∈ received, m.body.length < 256 ^ 3 := by
  cases h with
  | complete _ brings => exact fun m hm => brings.body_lt m (List.mem_append_left _ hm)
  | alert brings => exact brings.body_lt
  | broken brings => exact brings.body_lt

/-- A legacy flight is accepted by its hello and captured as far as it has arrived, however it
ends. -/
theorem flight_captured {v : ProtocolVersion} (legacy : v ≠ .tls13) {hello : SentHello}
    (version : hello.chosenVersion = v.wire) {later : List Message}
    (quiet : ∀ m ∈ later, ¬ m.IsHello ∧ ¬ m.IsDone) {s : Bytes} {ending : StreamEnd}
    (delivered : Delivers (hello.message :: later) s ending) :
    ∃ details, attempt ⟨v, hello.suite, true⟩ (.ok (s, ending)) = .ok (.accepted details) ∧
      details.Shows later := by
  have shows : (later.foldl FlightDetails.note .none).Shows later :=
    FlightDetails.shows_foldl_note (List.forall_mem_cons.1 delivered.body_lt).2
  refine ⟨_, ?_, shows⟩
  rw [attempt_eq_judge]
  cases delivered with
  | complete isDone brings rest =>
    rw [brings.arrivals_eq, List.append_assoc, judge_opened version legacy quiet,
      List.singleton_append, judge_of_step_error (Flight.step_done isDone)]
  | alert brings major minor high low rest =>
    have read := readRecord_alert major minor high low rest
    rw [brings.arrivals_eq, arrivals_alert read, judge_opened version legacy quiet]
    rfl
  | broken brings next short =>
    have read := readRecord_take next short
    rw [brings.arrivals_eq, arrivals_cut read, judge_opened version legacy quiet]
    cases ending <;> rfl

theorem flight_captured_stalled :
    let hello := SentHello.plain 0x0303 0xc02f
    let later : List Message :=
      [⟨11, chain [[0xaa, 0xbb], [0xcc]]⟩, ⟨13, [1, 1, 0, 0]⟩]
    let rs := bytewise ((hello.message :: later).flatMap Message.encoded ++ [14, 0])
    ProtocolVersion.tls12 ≠ .tls13 ∧ hello.chosenVersion = ProtocolVersion.tls12.wire ∧
      (∀ m ∈ later, ¬ m.IsHello ∧ ¬ m.IsDone) ∧
      Delivers (hello.message :: later) (stream rs ++ [0x16, 3, 1]) .stalled ∧
      attempt ⟨.tls12, 0xc02f, true⟩ (.ok (stream rs ++ [0x16, 3, 1], .stalled)) =
        .ok (.accepted ⟨some [0xaa, 0xbb], true⟩) := by
  intro hello later rs
  have quiet : ∀ m ∈ later, ¬ m.IsHello ∧ ¬ m.IsDone := by decide
  have brings : Brings rs (hello.message :: later) [14, 0] := by
    refine ⟨contents_bytewise _, ⟨⟨14, []⟩, [0, 0], by decide, by decide, rfl⟩, ?_⟩
    rw [contents_bytewise]
    decide
  have delivered : Delivers (hello.message :: later) (stream rs ++ [0x16, 3, 1]) .stalled :=
    .broken brings ⟨1, [0], by decide, by decide⟩ (n := 3) (by decide) .stalled
  obtain ⟨⟨certificate, request⟩, accepted, shows⟩ :=
    flight_captured (v := .tls12) (by decide) rfl quiet delivered
  obtain rfl : request = true :=
    shows.request.2 ⟨⟨13, [1, 1, 0, 0]⟩, by decide, rfl⟩
  obtain rfl : certificate = some [0xaa, 0xbb] :=
    shows.certificate [] [0xaa, 0xbb] [[0xcc]] [⟨13, [1, 1, 0, 0]⟩] rfl (by decide)
      (by decide)
  exact ⟨by decide, rfl, quiet, delivered, accepted⟩

end FleetPosture.Tls
