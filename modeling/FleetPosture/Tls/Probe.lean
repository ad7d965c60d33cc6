import FleetPosture.Tls.Exchange
import FleetPosture.Tls.ServerName
import FleetPosture.X509.Certificate

/-!
The TLS settings of an endpoint. Every suite of every version is offered on a connection of its own;
then a handshake without restrictions shows the certificate and whether the server asks for one.
A port that answers the first three offers with something other than TLS is left alone.
-/

namespace FleetPosture.Tls

open Text (Bytes)

inductive ProbeError
  | resolve (host : String)
  | connect (endpoint : Net.Endpoint) (cause : Net.ConnectError)
  | handshake (cause : String)
deriving DecidableEq, Repr

def ProbeError.message : ProbeError → String
  | resolve host => "failed to resolve " ++ host
  | connect endpoint cause => "failed to connect to " ++ endpoint.text ++ ": " ++ cause.message
  | handshake cause => "tls handshake failed: " ++ cause

structure Greeting where
  leaf : Option Bytes
  clientCertificate : Bool
deriving DecidableEq, Repr

/-- A server as a prober sees it: its reply to each offer, given the earlier offers, latest first,
and the outcome of the unrestricted handshake after all of them. -/
structure Server where
  reply : List Offer → Offer → Except Net.ConnectError Reply
  greeting : List Offer → Except ProbeError Greeting

def notTlsCutoff : Nat := 3

structure Survey where
  offers : List Offer
  ciphers : CipherTable
  details : Option FlightDetails
  sawTls : Bool

namespace Survey

def start : Survey := ⟨[], .empty, none, false⟩

def offer (s : Survey) (v : ProtocolVersion) (suite : CipherSuite) : Offer :=
  ⟨v, suite.id, s.details.isNone && v != .tls13⟩

def record (s : Survey) (suite : CipherSuite) (o : Offer) (r : Reply) : Survey :=
  match r with
  | .accepted details =>
    { offers := o :: s.offers
      ciphers := s.ciphers.alter o.version.label fun cs => cs.getD [] ++ [suite.accepted]
      details := if o.wantDetails then some details else s.details
      sawTls := true }
  | .refused => { s with offers := o :: s.offers, sawTls := true }
  | .notTls => { s with offers := o :: s.offers }

def isHopeless (s : Survey) : Bool := !s.sawTls && notTlsCutoff ≤ s.offers.length

end Survey

/-- Makes the offers in turn, until they are all made, the port turns out not to speak TLS, or a
connection fails. -/
def survey (server : Server) :
    List (ProtocolVersion × CipherSuite) → Survey → Survey × Option Net.ConnectError
  | [], s => (s, none)
  | (v, suite) :: rest, s =>
    let o := s.offer v suite
    match server.reply s.offers o with
    | .error e => (s, some e)
    | .ok r =>
      let s := s.record suite o r
      if s.isHopeless then (s, none) else survey server rest s

def allOffers : List (ProtocolVersion × CipherSuite) :=
  ProtocolVersion.probeOrder.flatMap fun v => (CipherSuite.offered v).map (v, ·)

def Survey.conclude (s : Survey) (greeting : Except ProbeError Greeting)
    (readCertificate : Bytes → Option Certificate := X509.certificate?) : TlsInfo :=
  let flight := s.details.getD .none
  let fallback := flight.certificate.bind readCertificate
  let found : TlsInfo := { TlsInfo.absent with presence := true, ciphers := s.ciphers }
  match greeting with
  | .ok g =>
    { found with
      clientCertificate := g.clientCertificate
      certificate := (g.leaf.bind readCertificate).or fallback }
  | .error e =>
    { found with
      clientCertificate := flight.clientCertificate
      certificate := fallback
      scanError := if flight.certificate.isNone then some e.message else none }

structure ProbeResult where
  tls : TlsInfo
  offers : List Offer

def probeServer (host : String) (endpoint : Net.Endpoint) (server : Server)
    (readCertificate : Bytes → Option Certificate := X509.certificate?) : ProbeResult :=
  match survey server allOffers .start with
  | (s, some e) => ⟨.failed (ProbeError.connect endpoint e).message, s.offers⟩
  | (s, none) =>
    if s.ciphers.entries.isEmpty then ⟨.absent, s.offers⟩
    else
      let greeting :=
        if isServerName host then server.greeting s.offers
        else .error (.handshake ("invalid server name: " ++ host))
      ⟨s.conclude greeting readCertificate, s.offers⟩

def probe (resolve : String → Option Net.Address) (serverAt : Net.Endpoint → Server)
    (host : String) (port : UInt16)
    (readCertificate : Bytes → Option Certificate := X509.certificate?) : ProbeResult :=
  let bare := Port.bareAddress host
  match resolve bare with
  | none => ⟨.failed (ProbeError.resolve bare).message, []⟩
  | some address =>
    probeServer host ⟨address, port⟩ (serverAt ⟨address, port⟩) readCertificate

inductive HandshakeEnd
  | completed
  | failed (cause : String)
  | timedOut
deriving DecidableEq, Repr

structure Handshake where
  shown : Greeting
  ending : HandshakeEnd
deriving DecidableEq, Repr

/-- A handshake that shows a certificate counts even if it is not completed: a server that insists on
a client certificate refuses to go on without one. -/
def Handshake.greeting (h : Handshake) : Except ProbeError Greeting :=
  match h.ending with
  | .completed => .ok h.shown
  | .failed cause => if h.shown.leaf.isSome then .ok h.shown else .error (.handshake cause)
  | .timedOut =>
    if h.shown.leaf.isSome then .ok h.shown else .error (.handshake "handshake timed out")

/-- What listens at an endpoint. Its reply to an offer and the unrestricted handshake with it depend
on the name that the client's hellos carry, and on the earlier offers. -/
structure Peer where
  reply : Option String → List Offer → Offer → Except Net.ConnectError Reply
  handshake : Option String → List Offer → Except Net.ConnectError Handshake

def Peer.knownAs (p : Peer) (host : String) (endpoint : Net.Endpoint) : Server where
  reply := p.reply (sentName? host)
  greeting earlier :=
    match p.handshake (sentName? host) earlier with
    | .error e => .error (.connect endpoint e)
    | .ok h => h.greeting

def probeHost (resolve : String → Option Net.Address) (peerAt : Net.Endpoint → Peer)
    (host : String) (port : UInt16)
    (readCertificate : Bytes → Option Certificate := X509.certificate?) : ProbeResult :=
  probe resolve (fun e => (peerAt e).knownAs host e) host port readCertificate

end FleetPosture.Tls
