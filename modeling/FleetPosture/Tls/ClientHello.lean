import FleetPosture.Tls.Version
import FleetPosture.Wire

/-!
A ClientHello that offers one version and one cipher suite. From TLS 1.0 on it has extensions; TLS
1.3 also needs a session id and a key share, which like the nonce are random.
-/

namespace FleetPosture.Tls

open Text (Bytes)

structure HelloRandoms where
  nonce : Bytes
  sessionId : Bytes
  keyShare : Bytes

namespace HelloRandoms

def zero : HelloRandoms := ⟨List.replicate 32 0, List.replicate 32 0, List.replicate 32 0⟩

end HelloRandoms

namespace ClientHello

def x25519 : UInt16 := 0x001d

def groups : List UInt16 := [x25519, 0x0017, 0x0018, 0x0019, 0x0100, 0x0101]

def signatureAlgorithms : List UInt16 :=
  [0x0403, 0x0503, 0x0603, 0x0804, 0x0805, 0x0806, 0x0401, 0x0501, 0x0601, 0x0203, 0x0201]

def code (n : UInt16) : Bytes := Wire.bigEndian 2 n.toNat

def codes (ns : List UInt16) : Bytes := Wire.field 2 (ns.flatMap code)

def extension (kind : UInt16) (content : Bytes) : Bytes := code kind ++ Wire.field 2 content

def serverName (name : String) : Bytes :=
  extension 0x0000 (Wire.field 2 (0 :: Wire.field 2 (Text.utf8 name)))

def extensions (v : ProtocolVersion) (name : Option String) (r : HelloRandoms) : Bytes :=
  (match name with
    | some n => serverName n
    | none => []) ++
  extension 0x000a (codes groups) ++
  extension 0x000b [1, 0] ++
  (if v.isAtLeast .tls12 then extension 0x000d (codes signatureAlgorithms) else []) ++
  extension 0xff01 [0] ++
  (if v = .tls13 then
    extension 0x002b [2, 0x03, 0x04] ++
      extension 0x0033 (Wire.field 2 (code x25519 ++ Wire.field 2 r.keyShare))
  else [])

def body (v : ProtocolVersion) (suite : UInt16) (name : Option String) (r : HelloRandoms) : Bytes :=
  code v.helloCode ++ r.nonce ++ Wire.field 1 (if v = .tls13 then r.sessionId else []) ++
    codes [suite] ++ [1, 0] ++
    (if v = .ssl30 then [] else Wire.field 2 (extensions v name r))

def record (v : ProtocolVersion) (suite : UInt16) (name : Option String) (r : HelloRandoms) : Bytes :=
  0x16 :: code (if v = .ssl30 then 0x0300 else 0x0301) ++
    Wire.field 2 (1 :: Wire.field 3 (body v suite name r))

end ClientHello
end FleetPosture.Tls
