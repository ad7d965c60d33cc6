import FleetPosture.Collections
import FleetPosture.FileListing
import FleetPosture.Net.Address
import FleetPosture.Time.Timestamp
import FleetPosture.Uuid

/-!
What one scan of a fleet saw: hosts with their processes, the ports that these have open, the TLS
settings found on them, files and SSH host keys.
-/

namespace FleetPosture

inductive Transport
  | tcp
  | udp
deriving DecidableEq, Repr

namespace Transport

def name : Transport → String
  | tcp => "tcp"
  | udp => "udp"

def names : List (String × Transport) := [("tcp", tcp), ("udp", udp)]

inductive ReadError
  | unknown (spelling : String)
deriving DecidableEq, Repr

def ReadError.message : ReadError → String
  | unknown spelling => "unknown transport: " ++ spelling

def read (s : String) : Except ReadError Transport :=
  let s := String.ofList (s.toList.map Char.toLower)
  if s = "tcp" ∨ s = "tcp4" ∨ s = "tcp6" then .ok tcp
  else if s = "udp" ∨ s = "udp4" ∨ s = "udp6" then .ok udp
  else .error (.unknown s)

end Transport

inductive CipherQuality
  | acceptable
  | weak
  | broken
deriving DecidableEq, Repr

namespace CipherQuality

def name : CipherQuality → String
  | acceptable => "acceptable"
  | weak => "weak"
  | broken => "broken"

def names : List (String × CipherQuality) :=
  [("acceptable", acceptable), ("weak", weak), ("broken", broken)]

inductive ReadError
  | unknown (spelling : String)
deriving DecidableEq, Repr

def ReadError.message : ReadError → String
  | unknown spelling => "unknown cipher quality: " ++ spelling

def read (s : String) : Except ReadError CipherQuality :=
  match names.lookup s with
  | some q => .ok q
  | none => .error (.unknown s)

def isAcceptable (q : CipherQuality) : Bool := q == acceptable

end CipherQuality

structure AcceptedCipher where
  name : String
  quality : CipherQuality
deriving DecidableEq, Repr

structure Subject where
  country : String
  province : String
  locality : String
  organization : String
  commonName : String
deriving DecidableEq, Repr

namespace Subject

def text (s : Subject) : String :=
  "/C=" ++ s.country ++ "/ST=" ++ s.province ++ "/L=" ++ s.locality ++ "/O=" ++ s.organization ++
    "/CN=" ++ s.commonName

end Subject

structure Certificate where
  bits : UInt32
  expiration : Timestamp
  subject : Subject
deriving DecidableEq

/-- The accepted ciphers under each protocol version's label. -/
abbrev CipherTable := SortedMap (List AcceptedCipher)

structure TlsInfo where
  presence : Bool
  certificate : Option Certificate
  ciphers : CipherTable
  clientCertificate : Bool
  scanError : Option String
deriving DecidableEq

namespace TlsInfo

def absent : TlsInfo := ⟨false, none, .empty, false, none⟩

def failed (error : String) : TlsInfo := { absent with scanError := some error }

end TlsInfo

structure Port where
  protocol : Transport
  address : String
  number : UInt16
  /-- Empty for sockets without a state. -/
  state : String
  tls : Option TlsInfo
deriving DecidableEq

namespace Port

def listenState : String := "LISTEN"

def isListening (p : Port) : Bool := p.state == listenState

def bareAddress (address : String) : String :=
  String.ofList ((address.toList.dropWhile (· == '[')).reverse.dropWhile (· == ']')).reverse

def isLoopback (p : Port) : Bool :=
  let host := bareAddress p.address
  String.ofList (host.toList.map Char.toLower) == "localhost" ||
    ((Net.Address.parse? host).map Net.Address.isLoopback).getD false

def withTls (p : Port) (tls : TlsInfo) : Port := { p with tls := some tls }

end Port

structure HostProcess where
  commandName : String
  pid : UInt32
  user : String
  cmdline : List String
  env : List String
  ports : List Port
deriving DecidableEq

namespace HostProcess

def listeningPorts (p : HostProcess) : List Port := p.ports.filter Port.isListening

def hasPort (p : HostProcess) (number : UInt16) : Bool := p.ports.any (·.number == number)

def isPrivileged (p : HostProcess) : Bool := p.user == "root" || p.user == "0"

end HostProcess

structure HostKey where
  keyType : String
  key : String
deriving DecidableEq, Repr

structure Host where
  name : String
  address : String
  processes : List HostProcess
  files : List FileEntry
  sshKeys : List HostKey
deriving DecidableEq

namespace Host

def identityOf (name address : String) : String := if name.isEmpty then address else name

def identity (h : Host) : String := identityOf h.name h.address

end Host

structure Snapshot where
  id : Uuid
  createdAt : Timestamp
  hosts : List Host
deriving DecidableEq

end FleetPosture
