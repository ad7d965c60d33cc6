/-!
Protocol versions of TLS and of SSL before it, oldest first.
-/

namespace FleetPosture.Tls

inductive ProtocolVersion
  | ssl30
  | tls10
  | tls11
  | tls12
  | tls13
deriving DecidableEq, Repr

namespace ProtocolVersion

/-- The most commonly accepted ones first, so that a port that speaks something else shows early. -/
def probeOrder : List ProtocolVersion := [tls12, tls13, tls11, tls10, ssl30]

def label : ProtocolVersion → String
  | ssl30 => "VersionSSL30"
  | tls10 => "VersionTLS10"
  | tls11 => "VersionTLS11"
  | tls12 => "VersionTLS12"
  | tls13 => "VersionTLS13"

def code : ProtocolVersion → UInt16
  | ssl30 => 0x0300
  | tls10 => 0x0301
  | tls11 => 0x0302
  | tls12 => 0x0303
  | tls13 => 0x0304

/-- The number that a hello itself bears: the newest version is asked for in an extension. -/
def helloCode (v : ProtocolVersion) : UInt16 := min v.code 0x0303

def isAtLeast (v w : ProtocolVersion) : Bool := w.code ≤ v.code

end ProtocolVersion
end FleetPosture.Tls
