import FleetPosture.Proofs.Tls.Probe

/-! Where the findings about a port come from. Without an accepted offer there is nothing but perhaps
an error; with one, the certificate and the request for a client certificate are those of the
unrestricted handshake if it succeeded, and otherwise those of the first flight that was accepted
under a version before TLS 1.3. An error is told only where neither shows a certificate. -/

namespace FleetPosture.Tls

open Text (Bytes)

variable {server : Server} {t : List Attempt} {readCertificate : Bytes → Option Certificate}

def Attempt.plainDetails? (a : Attempt) : Option FlightDetails :=
  match a.reply with
  | .accepted details => if a.version = .tls13 then none else some details
  | _ => none

def firstPlain? (t : List Attempt) : Option FlightDetails := t.findSome? Attempt.plainDetails?

theorem shown?_eq_firstPlain? (answered : Answered server t) : shown? t = firstPlain? t := by
  -- details are asked for until they are known, so the first flight that could show them has
  induction answered with
  | nil => rfl
  | @snoc t a before asked reply ih =>
    have wanted : a.wantDetails = ((shown? t).isNone && a.version != .tls13) :=
      congrArg Offer.wantDetails asked
    rw [shown?_concat, firstPlain?, List.findSome?_append, ← firstPlain?, ← ih]
    cases known : shown? t with
    | some details => rfl
    | none =>
      have asks : a.wantDetails = (a.version != .tls13) := by simpa [known] using wanted
      have same : a.details? = a.plainDetails? := by
        unfold Attempt.details? Attempt.plainDetails?
        rw [asks]
        by_cases newest : a.version = .tls13 <;> cases a.reply <;> simp [newest]
      simp [same]

def greetingTo (host : String) (server : Server) (t : List Attempt) : Except ProbeError Greeting :=
  if isServerName host then server.greeting (offersOf t)
  else .error (.handshake ("invalid server name: " ++ host))

def Peer.shown? (p : Peer) (host : String) (t : List Attempt) : Option Greeting :=
  if isServerName host then
    match p.handshake (sentName? host) (offersOf t) with
    | .ok h => if h.ending = .completed ∨ h.shown.leaf.isSome then some h.shown else none
    | .error _ => none
  else none

theorem Handshake.toOption_greeting (h : Handshake) :
    h.greeting.toOption = if h.ending = .completed ∨ h.shown.leaf.isSome then some h.shown else none := by
  unfold greeting
  cases h.ending with
  | completed => rfl
  | failed cause => cases h.shown.leaf.isSome <;> rfl
  | timedOut => cases h.shown.leaf.isSome <;> rfl

theorem toOption_greetingTo (p : Peer) (host : String) (endpoint : Net.Endpoint) (t : List Attempt) :
    (greetingTo host (p.knownAs host endpoint) t).toOption = p.shown? host t := by
  unfold greetingTo Peer.shown?
  split
  · unfold Peer.knownAs
    dsimp only
    cases p.handshake (sentName? host) (offersOf t) with
    | error e => rfl
    | ok h => exact h.toOption_greeting
  · rfl

/-- The certificate and the request for one come from the greeting if there is one, with the flight's
certificate for a leaf that says nothing, and from the flight otherwise. -/
def DrawnFrom (readCertificate : Bytes → Option Certificate) (flight : FlightDetails)
    (tls : TlsInfo) : Option Greeting → Prop
  | some g =>
    tls.clientCertificate = g.clientCertificate ∧
      tls.certificate =
        (g.leaf.bind readCertificate).or (flight.certificate.bind readCertificate) ∧
      tls.scanError = none
  | none =>
    tls.clientCertificate = flight.clientCertificate ∧
      tls.certificate = flight.certificate.bind readCertificate ∧
      (tls.scanError ≠ none ↔ flight.certificate = none)

theorem DrawnFrom.scanError_or_certificate {flight : FlightDetails} {tls : TlsInfo}
    {greeting : Option Greeting} (h : DrawnFrom readCertificate flight tls greeting) :
    tls.scanError = none ∨ tls.certificate = none := by
  cases greeting with
  | some g => exact .inl h.2.2
  | none =>
    obtain ⟨-, certificate, error⟩ := h
    by_cases bytes : flight.certificate = none
    · right
      rw [certificate, bytes]
      rfl
    · exact .inl (not_not.1 fun scanError => bytes (error.1 scanError))

theorem Survey.conclude_drawnFrom (s : Survey) (greeting : Except ProbeError Greeting) :
    DrawnFrom readCertificate (s.details.getD .none) (s.conclude greeting readCertificate)
      greeting.toOption := by
  cases greeting with
  | ok g => exact ⟨rfl, rfl, rfl⟩
  | error e =>
    refine ⟨rfl, rfl, ?_⟩
    change (if (s.details.getD .none).certificate.isNone then some e.message else none) ≠ none ↔ _
    rw [← Option.isNone_iff_eq_none (o := (s.details.getD .none).certificate)]
    split <;> simp [*]

structure IsBlank (tls : TlsInfo) : Prop where
  presence : tls.presence = false
  ciphers : tls.ciphers.entries = []
  certificate : tls.certificate = none
  clientCertificate : tls.clientCertificate = false

theorem isBlank_failed (error : String) : IsBlank (.failed error) := ⟨rfl, rfl, rfl, rfl⟩

theorem isBlank_absent : IsBlank .absent := ⟨rfl, rfl, rfl, rfl⟩

/-- Findings that fit together; where TLS was found, `origin` says what they come from. -/
structure Consistent (tls : TlsInfo) (origin : Prop) : Prop where
  presence : tls.presence = false ↔ tls.ciphers.entries = []
  absent : tls.presence = false → tls.certificate = none ∧ tls.clientCertificate = false
  drawn : tls.presence = true → origin
  scanError : tls.scanError = none ∨ tls.certificate = none

theorem IsBlank.consistent {tls : TlsInfo} (h : IsBlank tls) (origin : Prop) :
    Consistent tls origin where
  presence := iff_of_true h.presence h.ciphers
  absent _ := ⟨h.certificate, h.clientCertificate⟩
  drawn found := absurd (h.presence.symm.trans found) Bool.false_ne_true
  scanError := .inr h.certificate

theorem DrawnFrom.consistent {flight : FlightDetails} {tls : TlsInfo} {greeting : Option Greeting}
    (h : DrawnFrom readCertificate flight tls greeting) (present : tls.presence = true)
    (accepted : tls.ciphers.entries ≠ []) {origin : Prop} (drawn : origin) :
    Consistent tls origin where
  presence := iff_of_false (by simp [present]) accepted
  absent none := absurd (none.symm.trans present) Bool.false_ne_true
  drawn _ := drawn
  scanError := h.scanError_or_certificate

theorem survey_congr {other : Server} (same : other.reply = server.reply)
    (plan : List (ProtocolVersion × CipherSuite)) (s : Survey) :
    survey other plan s = survey server plan s := by
  induction plan generalizing s with
  | nil => rfl
  | cons pair rest ih => simp only [survey, same, ih]

theorem isBlank_or_conclude (endpoint : Net.Endpoint) (server : Server)
    (readCertificate : Bytes → Option Certificate) :
    (∃ nothing : ProbeResult, IsBlank nothing.tls ∧
      ∀ (host : String) (other : Server), other.reply = server.reply →
        probeServer host endpoint other readCertificate = nothing) ∨
    ∃ (t : List Attempt) (s : Survey), Answered server t ∧ s.Reflects t ∧
      t.map Attempt.pair = allOffers ∧ s.ciphers.entries ≠ [] ∧
      ∀ (host : String) (other : Server), other.reply = server.reply →
        probeServer host endpoint other readCertificate =
          ⟨s.conclude (greetingTo host other t) readCertificate, offersOf t⟩ := by
  obtain ⟨t, answered, reflects, outcome⟩ :=
    exists_outcome server allOffers .nil .start Alive.nil
  generalize surveyed : survey server allOffers .start = result at reflects outcome
  obtain ⟨s, ending⟩ := result
  rw [List.map_nil, List.nil_append] at outcome
  -- whatever host is named and whoever greets, the probe goes on from this one survey
  have same {other : Server} (h : other.reply = server.reply) :
      survey other allOffers .start = (s, ending) := (survey_congr h allOffers .start).trans surveyed
  cases outcome with
  | @failed _ _ _ e =>
    refine .inl ⟨⟨.failed (ProbeError.connect endpoint e).message, s.offers⟩, isBlank_failed _,
      fun host other h => ?_⟩
    rw [probeServer, same h]
  | givenUp made three silent =>
    have none : s.ciphers.entries = [] := reflects.ciphers_eq_nil_of_silent silent
    refine .inl ⟨⟨.absent, s.offers⟩, isBlank_absent, fun host other h => ?_⟩
    rw [probeServer, same h]
    simp only [none, List.isEmpty_nil, if_true]
  | finished made alive =>
    by_cases none : s.ciphers.entries = []
    · refine .inl ⟨⟨.absent, s.offers⟩, isBlank_absent, fun host other h => ?_⟩
      rw [probeServer, same h]
      simp only [none, List.isEmpty_nil, if_true]
    · refine .inr ⟨t, s, answered, reflects, made, none, fun host other h => ?_⟩
      rw [probeServer, same h]
      simp only [List.isEmpty_iff, none, if_false]
      rw [reflects.offers, greetingTo]

/-- Whatever the replies are, and whatever becomes of the unrestricted handshake, what a probe reports
fits together. -/
theorem consistent_probeHost (readCertificate : Bytes → Option Certificate)
    (resolve : String → Option Net.Address) (peerAt : Net.Endpoint → Peer) (host : String)
    (port : UInt16) :
    Consistent (probeHost resolve peerAt host port readCertificate).tls
      (∃ address t, resolve (Port.bareAddress host) = some address ∧
        Answered ((peerAt ⟨address, port⟩).knownAs host ⟨address, port⟩) t ∧
        t.map Attempt.pair = planned ∧
        (probeHost resolve peerAt host port readCertificate).offers = offersOf t ∧
        DrawnFrom readCertificate ((firstPlain? t).getD .none)
          (probeHost resolve peerAt host port readCertificate).tls
          ((peerAt ⟨address, port⟩).shown? host t)) := by
  rw [probeHost, probe]
  cases resolved : resolve (Port.bareAddress host) with
  | none => exact (isBlank_failed _).consistent _
  | some address =>
    let endpoint : Net.Endpoint := ⟨address, port⟩
    let server := (peerAt endpoint).knownAs host endpoint
    change Consistent (probeServer host endpoint server readCertificate).tls _
    rcases isBlank_or_conclude endpoint server readCertificate with
      ⟨nothing, blank, found⟩ | ⟨t, s, answered, reflects, made, accepted, conclude⟩
    · rw [found host server rfl]
      exact blank.consistent _
    · have concluded := conclude host server rfl
      have drawn : DrawnFrom readCertificate ((firstPlain? t).getD .none)
          (probeServer host endpoint server readCertificate).tls ((peerAt endpoint).shown? host t) := by
        rw [concluded, ← toOption_greetingTo _ _ endpoint, ← shown?_eq_firstPlain? answered,
          ← reflects.details]
        exact s.conclude_drawnFrom _
      have present : (probeServer host endpoint server readCertificate).tls.presence = true := by
        rw [concluded]
        exact s.conclude_presence _
      have ciphers : (probeServer host endpoint server readCertificate).tls.ciphers.entries ≠ [] := by
        rw [concluded, s.conclude_ciphers]
        exact accepted
      exact drawn.consistent present ciphers
        ⟨address, t, rfl, answered, made.trans allOffers_eq, congrArg ProbeResult.offers concluded, drawn⟩

end FleetPosture.Tls
