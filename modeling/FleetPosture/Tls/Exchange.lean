import FleetPosture.Net.Connect
import FleetPosture.Tls.ServerHello
import FleetPosture.Tls.Suite

/-!
The verdict on one offer from what the server sends. Handshake messages are put together across
records; a ServerHello with exactly the offered version and suite accepts the offer, and up to TLS
1.2 the rest of the flight can be read for the certificate and for a certificate request.
-/

namespace FleetPosture.Tls

open Text (Bytes)
open Net (StreamEnd)

structure Message where
  kind : UInt8
  body : Bytes
deriving DecidableEq, Repr

/-- Handshake bytes that have arrived and belong to no message read yet. -/
structure HandshakeBuffer where
  bytes : Bytes
deriving DecidableEq, Repr

namespace HandshakeBuffer

def empty : HandshakeBuffer := ⟨[]⟩

def push (b : HandshakeBuffer) (bs : Bytes) : HandshakeBuffer := ⟨b.bytes ++ bs⟩

def next? (b : HandshakeBuffer) : Option (Message × HandshakeBuffer) :=
  match b.bytes with
  | kind :: h :: m :: l :: rest =>
    (Wire.take? (Wire.number [h, m, l]) rest).map fun (body, rest) => (⟨kind, body⟩, ⟨rest⟩)
  | _ => none

theorem length_of_next? {b c : HandshakeBuffer} {m : Message} (h : b.next? = some (m, c)) :
    c.bytes.length + 4 ≤ b.bytes.length := by
  unfold next? at h
  split at h
  · next kind x y z rest e =>
    obtain ⟨⟨body, after⟩, ht, hm⟩ := Option.map_eq_some_iff.1 h
    obtain ⟨rfl, -⟩ := Wire.eq_append_of_take? ht
    obtain ⟨-, rfl⟩ := Prod.mk.inj hm
    simp [e]
  · exact absurd h (by simp)

def messages (b : HandshakeBuffer) : List Message × HandshakeBuffer :=
  match _h : b.next? with
  | none => ([], b)
  | some (m, c) =>
    let (ms, d) := messages c
    (m :: ms, d)
termination_by b.bytes.length
decreasing_by have := length_of_next? _h; omega

end HandshakeBuffer

structure FlightDetails where
  certificate : Option Bytes
  clientCertificate : Bool
deriving DecidableEq, Repr

namespace FlightDetails

def none : FlightDetails := ⟨.none, false⟩

end FlightDetails

inductive Reply
  | accepted (details : FlightDetails)
  | refused
  | notTls
deriving DecidableEq, Repr

structure Offer where
  version : ProtocolVersion
  suite : UInt16
  wantDetails : Bool
deriving DecidableEq, Repr

structure Flight where
  isAccepted : Bool
  details : FlightDetails
deriving DecidableEq, Repr

namespace Flight

def start : Flight := ⟨false, .none⟩

end Flight

def serverHello : UInt8 := 2
def certificateMessage : UInt8 := 11
def certificateRequest : UInt8 := 13
def serverHelloDone : UInt8 := 14

def firstCertificate (body : Bytes) : Option Bytes := do
  let (_, rest) ← Wire.take? 3 body
  let (der, _) ← Wire.field? 3 rest
  if der.isEmpty then none else some der

def Flight.step (o : Offer) (f : Flight) (m : Message) : Except Reply Flight :=
  if m.kind = serverHello then
    match ServerHello.parse? m.body with
    | none => .error .notTls
    | some hello =>
      if hello.version ≠ o.version.code ∨ hello.suite ≠ o.suite then .error .refused
      else if !o.wantDetails ∨ o.version = .tls13 then .error (.accepted f.details)
      else .ok { f with isAccepted := true }
  else if m.kind = certificateMessage then
    .ok { f with details := { f.details with certificate := firstCertificate m.body } }
  else if m.kind = certificateRequest then
    .ok { f with details := { f.details with clientCertificate := true } }
  else if m.kind = serverHelloDone then .error (.accepted f.details)
  else .ok f

def Flight.cut (f : Flight) : StreamEnd → Reply
  | .closed => if f.isAccepted then .accepted f.details else .refused
  | .stalled => if f.isAccepted then .accepted f.details else .notTls

def maxRecord : Nat := 16384 + 2048
def maxFlight : Nat := 256 * 1024

inductive RecordRead
  | handshake (content rest : Bytes)
  | alert
  /-- No record of a kind that belongs here, or a malformed one. -/
  | foreign
  | cut
deriving DecidableEq, Repr

def readRecord : Bytes → RecordRead
  | kind :: major :: _ :: h :: l :: rest =>
    let length := Wire.number [h, l]
    if kind = 0x15 then .alert
    else if kind ≠ 0x16 ∨ major ≠ 3 ∨ length = 0 ∨ maxRecord < length then .foreign
    else
      match Wire.take? length rest with
      | some (content, rest) => .handshake content rest
      | none => .cut
  | _ => .cut

theorem length_of_readRecord {s content rest : Bytes}
    (h : readRecord s = .handshake content rest) : rest.length + 6 ≤ s.length := by
  unfold readRecord at h
  split at h
  · next kind major _ x y r =>
    dsimp only at h
    split at h
    · exact absurd h (by simp)
    · split at h
      · exact absurd h (by simp)
      · next hk =>
        split at h
        · next c r' ht =>
          obtain ⟨rfl, rfl⟩ := RecordRead.handshake.inj h
          obtain ⟨rfl, hl⟩ := Wire.eq_append_of_take? ht
          simp only [List.length_cons, List.length_append]
          omega
        · exact absurd h (by simp)
  · exact absurd h (by simp)

def exchange (o : Offer) (ending : StreamEnd) (f : Flight) (buffer : HandshakeBuffer) (s : Bytes) :
    Reply :=
  match _h : readRecord s with
  | .cut => f.cut ending
  | .alert => if f.isAccepted then .accepted f.details else .refused
  | .foreign => .notTls
  | .handshake content rest =>
    let buffer := buffer.push content
    if maxFlight < buffer.bytes.length then .notTls
    else
      let (messages, buffer) := buffer.messages
      match messages.foldlM (Flight.step o) f with
      | .error reply => reply
      | .ok f => exchange o ending f buffer rest
termination_by s.length
decreasing_by have := length_of_readRecord _h; omega

/-- The reply to an offer. Only a failure to connect is an error. -/
def attempt (o : Offer) (connection : Except Net.ConnectError (Bytes × StreamEnd)) :
    Except Net.ConnectError Reply :=
  connection.map fun (s, ending) => exchange o ending .start .empty s

end FleetPosture.Tls
