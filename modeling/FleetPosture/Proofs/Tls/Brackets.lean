import FleetPosture.Proofs.Net.Address
import FleetPosture.Proofs.Tls.Annotation
import FleetPosture.Tls.ClientHello

/-! An address in brackets is looked up without them, but its peer is named with them. So the hellos
carry a name, where those to the plain address carry none, and the unrestricted handshake is never
begun. -/

namespace FleetPosture.Tls

open Text (Bytes)
open Net (inBrackets)

variable {readCertificate : Bytes → Option Certificate} {a : String}

theorem sentName?_inBrackets (a : String) : sentName? (inBrackets a) = some (inBrackets a) := by
  rw [sentName?, Net.Address.parse?_inBrackets]
  rfl

theorem extensions_inBrackets (literal : (Net.Address.parse? a).isSome) (v : ProtocolVersion)
    (r : HelloRandoms) :
    ClientHello.extensions v (sentName? (inBrackets a)) r =
      ClientHello.extension 0x0000 (Wire.field 2 (0 :: Wire.field 2 (Text.utf8 (inBrackets a)))) ++
        ClientHello.extensions v (sentName? a) r := by
  rw [sentName?_inBrackets, sentName?, if_pos literal]
  simp only [ClientHello.extensions, ClientHello.serverName, List.append_assoc, List.nil_append]

def misnaming (name : String) : ProbeError := .handshake ("invalid server name: " ++ name)

def Peer.misnamed (p : Peer) (name : String) : Server where
  reply := p.reply (some name)
  greeting _ := .error (misnaming name)

theorem isServerName_of_literal (literal : (Net.Address.parse? a).isSome) : isServerName a = true := by
  rw [isServerName, literal, Bool.true_or]

theorem greetingTo_of_literal (literal : (Net.Address.parse? a).isSome) (server : Server)
    (t : List Attempt) : greetingTo a server t = server.greeting (offersOf t) :=
  if_pos (isServerName_of_literal literal)

theorem probeServer_inBrackets (literal : (Net.Address.parse? a).isSome) (p : Peer)
    (endpoint : Net.Endpoint) :
    probeServer (inBrackets a) endpoint (p.knownAs (inBrackets a) endpoint) readCertificate =
      probeServer a endpoint (p.misnamed (inBrackets a)) readCertificate := by
  have same : (p.knownAs (inBrackets a) endpoint).reply = (p.misnamed (inBrackets a)).reply :=
    congrArg p.reply (sentName?_inBrackets a)
  simp only [probeServer, survey_congr same, isServerName_inBrackets,
    isServerName_of_literal literal, if_true]
  rfl

def AddsNothing (readCertificate : Bytes → Option Certificate) (flight : FlightDetails)
    (inPlace : ProbeError) : Except ProbeError Greeting → Prop
  | .ok g =>
    (g.leaf.bind readCertificate).or (flight.certificate.bind readCertificate) =
        flight.certificate.bind readCertificate ∧
      g.clientCertificate = flight.clientCertificate ∧ flight.certificate ≠ none
  | .error e => flight.certificate = none → e.message = inPlace.message

theorem Survey.conclude_error_eq_iff (s : Survey) (e : ProbeError)
    (greeting : Except ProbeError Greeting) :
    s.conclude (.error e) readCertificate = s.conclude greeting readCertificate ↔
      AddsNothing readCertificate (s.details.getD .none) e greeting := by
  cases greeting with
  | ok g =>
    simp only [conclude, AddsNothing, TlsInfo.mk.injEq, true_and]
    refine and_congr eq_comm (and_congr eq_comm ?_)
    change (if _ then some e.message else none) = none ↔ _
    cases (s.details.getD .none).certificate <;> simp
  | error other =>
    simp only [conclude, AddsNothing, TlsInfo.mk.injEq, true_and]
    cases (s.details.getD .none).certificate <;> simp [eq_comm]

/-- The result of a probe, and that of one whose unrestricted handshake is an error instead. -/
inductive Deprived (server : Server) (readCertificate : Bytes → Option Certificate) (e : ProbeError) :
    ProbeResult → ProbeResult → Prop
  | nothing {found : ProbeResult} (presence : found.tls.presence = false) :
      Deprived server readCertificate e found found
  | surveyed {found deprived : ProbeResult} {t : List Attempt} (answered : Answered server t)
      (made : t.map Attempt.pair = planned) (offers : deprived.offers = found.offers)
      (presence : found.tls.presence = true ∧ deprived.tls.presence = true)
      (ciphers : deprived.tls.ciphers = found.tls.ciphers)
      (same : deprived.tls = found.tls ↔
        AddsNothing readCertificate ((firstPlain? t).getD .none) e (server.greeting (offersOf t))) :
      Deprived server readCertificate e found deprived

theorem deprived_probeServer (literal : (Net.Address.parse? a).isSome) {server other : Server}
    {e : ProbeError} (reply : other.reply = server.reply)
    (greeting : ∀ earlier, other.greeting earlier = .error e) (endpoint : Net.Endpoint) :
    Deprived server readCertificate e (probeServer a endpoint server readCertificate)
      (probeServer a endpoint other readCertificate) := by
  rcases isBlank_or_conclude endpoint server readCertificate with
    ⟨nothing, blank, found⟩ | ⟨t, s, answered, reflects, made, -, conclude⟩
  · rw [found a server rfl, found a other reply]
    exact .nothing blank.presence
  · rw [conclude a server rfl, conclude a other reply, greetingTo_of_literal literal,
      greetingTo_of_literal literal, greeting]
    refine .surveyed answered (made.trans allOffers_eq) rfl ⟨s.conclude_presence _, s.conclude_presence _⟩ ?_ ?_
    · exact (s.conclude_ciphers _).trans (s.conclude_ciphers _).symm
    · rw [← shown?_eq_firstPlain? answered, ← reflects.details]
      exact s.conclude_error_eq_iff e _

/-- The hellos to an address in brackets carry a name, and the unrestricted handshake is not begun. A
peer that pays no attention to names is found to be the same as under the plain address only where
that handshake would have added nothing. -/
theorem probeHost_inBrackets (literal : (Net.Address.parse? a).isSome)
    (resolve : String → Option Net.Address) (peerAt : Net.Endpoint → Peer) (port : UInt16)
    (readCertificate : Bytes → Option Certificate) :
    (∀ v r, ClientHello.extensions v (sentName? (inBrackets a)) r =
      ClientHello.extension 0x0000 (Wire.field 2 (0 :: Wire.field 2 (Text.utf8 (inBrackets a)))) ++
        ClientHello.extensions v (sentName? a) r) ∧
    probeHost resolve peerAt (inBrackets a) port readCertificate =
      probe resolve (fun e => (peerAt e).misnamed (inBrackets a)) a port readCertificate ∧
    ∀ address, resolve (Port.bareAddress a) = some address →
      (∀ name, (peerAt ⟨address, port⟩).reply name = (peerAt ⟨address, port⟩).reply none) →
      Deprived ((peerAt ⟨address, port⟩).knownAs a ⟨address, port⟩) readCertificate
        (misnaming (inBrackets a)) (probeHost resolve peerAt a port readCertificate)
        (probeHost resolve peerAt (inBrackets a) port readCertificate) := by
  have misnamed : probeHost resolve peerAt (inBrackets a) port readCertificate =
      probe resolve (fun e => (peerAt e).misnamed (inBrackets a)) a port readCertificate := by
    simp only [probeHost, probe, Net.bareAddress_inBrackets, probeServer_inBrackets literal]
  refine ⟨extensions_inBrackets literal, misnamed, ?_⟩
  intro address resolved nameless
  rw [misnamed]
  simp only [probeHost, probe, resolved]
  exact deprived_probeServer literal ((nameless _).trans (nameless _).symm) (fun _ => rfl) _

def newest : Peer where
  reply _ _ o := .ok (if o.version = .tls13 ∧ o.suite = 0x1301 then .accepted .none else .refused)
  handshake _ _ := .ok ⟨⟨some [0x30, 0x00], false⟩, .completed⟩

theorem probeHost_inBrackets_newest :
    (Net.Address.parse? "::1").isSome ∧
      Net.Address.parse? (Port.bareAddress "::1") = some (.v6 1) ∧
      Deprived (newest.knownAs "::1" ⟨.v6 1, 443⟩) X509.certificate? (misnaming (inBrackets "::1"))
        (probeHost Net.Address.parse? (fun _ => newest) "::1" 443)
        (probeHost Net.Address.parse? (fun _ => newest) (inBrackets "::1") 443) :=
  ⟨by decide +kernel, by decide +kernel,
    (probeHost_inBrackets (a := "::1") (by decide +kernel) Net.Address.parse? (fun _ => newest) 443
      X509.certificate?).2.2 (.v6 1) (by decide +kernel) fun _ => rfl⟩

theorem newest_deprived :
    (Net.Address.parse? "127.0.0.1").isSome ∧
      (probeHost Net.Address.parse? (fun _ => newest) "127.0.0.1" 443).tls.scanError = none ∧
      (probeHost Net.Address.parse? (fun _ => newest) (inBrackets "127.0.0.1") 443).tls.scanError =
        some "tls handshake failed: invalid server name: [127.0.0.1]" ∧
      sentName? "127.0.0.1" = none ∧ sentName? (inBrackets "127.0.0.1") = some "[127.0.0.1]" := by
  decide +kernel

end FleetPosture.Tls
