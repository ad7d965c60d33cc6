import FleetPosture.Snapshot.Basic
import FleetPosture.Tls.Version

/-!
The cipher suites that a probe offers, with a judgment of each and the versions that define it.
Authenticated encryption with ephemeral keys is acceptable; block chaining, static keys and short
tags are weak; stream ciphers, single DES, export grade, anonymous and null suites are broken.
-/

namespace FleetPosture.Tls

structure CipherSuite where
  id : UInt16
  name : String
  quality : CipherQuality
  oldest : ProtocolVersion
  newest : ProtocolVersion
deriving DecidableEq, Repr

namespace CipherSuite

def table : List CipherSuite := [
  ⟨0x1301, "TLS_AES_128_GCM_SHA256", .acceptable, .tls13, .tls13⟩,
  ⟨0x1302, "TLS_AES_256_GCM_SHA384", .acceptable, .tls13, .tls13⟩,
  ⟨0x1303, "TLS_CHACHA20_POLY1305_SHA256", .acceptable, .tls13, .tls13⟩,
  ⟨0x1304, "TLS_AES_128_CCM_SHA256", .acceptable, .tls13, .tls13⟩,
  ⟨0x1305, "TLS_AES_128_CCM_8_SHA256", .weak, .tls13, .tls13⟩,
  ⟨0xc02b, "TLS_ECDHE_ECDSA_WITH_AES_128_GCM_SHA256", .acceptable, .tls12, .tls12⟩,
  ⟨0xc02c, "TLS_ECDHE_ECDSA_WITH_AES_256_GCM_SHA384", .acceptable, .tls12, .tls12⟩,
  ⟨0xc02f, "TLS_ECDHE_RSA_WITH_AES_128_GCM_SHA256", .acceptable, .tls12, .tls12⟩,
  ⟨0xc030, "TLS_ECDHE_RSA_WITH_AES_256_GCM_SHA384", .acceptable, .tls12, .tls12⟩,
  ⟨0xcca8, "TLS_ECDHE_RSA_WITH_CHACHA20_POLY1305_SHA256", .acceptable, .tls12, .tls12⟩,
  ⟨0xcca9, "TLS_ECDHE_ECDSA_WITH_CHACHA20_POLY1305_SHA256", .acceptable, .tls12, .tls12⟩,
  ⟨0x009e, "TLS_DHE_RSA_WITH_AES_128_GCM_SHA256", .acceptable, .tls12, .tls12⟩,
  ⟨0x009f, "TLS_DHE_RSA_WITH_AES_256_GCM_SHA384", .acceptable, .tls12, .tls12⟩,
  ⟨0xccaa, "TLS_DHE_RSA_WITH_CHACHA20_POLY1305_SHA256", .acceptable, .tls12, .tls12⟩,
  ⟨0x009c, "TLS_RSA_WITH_AES_128_GCM_SHA256", .weak, .tls12, .tls12⟩,
  ⟨0x009d, "TLS_RSA_WITH_AES_256_GCM_SHA384", .weak, .tls12, .tls12⟩,
  ⟨0xc023, "TLS_ECDHE_ECDSA_WITH_AES_128_CBC_SHA256", .weak, .tls12, .tls12⟩,
  ⟨0xc024, "TLS_ECDHE_ECDSA_WITH_AES_256_CBC_SHA384", .weak, .tls12, .tls12⟩,
  ⟨0xc027, "TLS_ECDHE_RSA_WITH_AES_128_CBC_SHA256", .weak, .tls12, .tls12⟩,
  ⟨0xc028, "TLS_ECDHE_RSA_WITH_AES_256_CBC_SHA384", .weak, .tls12, .tls12⟩,
  ⟨0x0067, "TLS_DHE_RSA_WITH_AES_128_CBC_SHA256", .weak, .tls12, .tls12⟩,
  ⟨0x006b, "TLS_DHE_RSA_WITH_AES_256_CBC_SHA256", .weak, .tls12, .tls12⟩,
  ⟨0x003c, "TLS_RSA_WITH_AES_128_CBC_SHA256", .weak, .tls12, .tls12⟩,
  ⟨0x003d, "TLS_RSA_WITH_AES_256_CBC_SHA256", .weak, .tls12, .tls12⟩,
  ⟨0x003b, "TLS_RSA_WITH_NULL_SHA256", .broken, .tls12, .tls12⟩,
  ⟨0xc009, "TLS_ECDHE_ECDSA_WITH_AES_128_CBC_SHA", .weak, .tls10, .tls12⟩,
  ⟨0xc00a, "TLS_ECDHE_ECDSA_WITH_AES_256_CBC_SHA", .weak, .tls10, .tls12⟩,
  ⟨0xc013, "TLS_ECDHE_RSA_WITH_AES_128_CBC_SHA", .weak, .tls10, .tls12⟩,
  ⟨0xc014, "TLS_ECDHE_RSA_WITH_AES_256_CBC_SHA", .weak, .tls10, .tls12⟩,
  ⟨0x0033, "TLS_DHE_RSA_WITH_AES_128_CBC_SHA", .weak, .ssl30, .tls12⟩,
  ⟨0x0039, "TLS_DHE_RSA_WITH_AES_256_CBC_SHA", .weak, .ssl30, .tls12⟩,
  ⟨0x002f, "TLS_RSA_WITH_AES_128_CBC_SHA", .weak, .ssl30, .tls12⟩,
  ⟨0x0035, "TLS_RSA_WITH_AES_256_CBC_SHA", .weak, .ssl30, .tls12⟩,
  ⟨0x0041, "TLS_RSA_WITH_CAMELLIA_128_CBC_SHA", .weak, .ssl30, .tls12⟩,
  ⟨0x0084, "TLS_RSA_WITH_CAMELLIA_256_CBC_SHA", .weak, .ssl30, .tls12⟩,
  ⟨0x0096, "TLS_RSA_WITH_SEED_CBC_SHA", .weak, .ssl30, .tls12⟩,
  ⟨0xc012, "TLS_ECDHE_RSA_WITH_3DES_EDE_CBC_SHA", .weak, .tls10, .tls12⟩,
  ⟨0x0016, "TLS_DHE_RSA_WITH_3DES_EDE_CBC_SHA", .weak, .ssl30, .tls12⟩,
  ⟨0x000a, "TLS_RSA_WITH_3DES_EDE_CBC_SHA", .weak, .ssl30, .tls12⟩,
  ⟨0xc011, "TLS_ECDHE_RSA_WITH_RC4_128_SHA", .broken, .tls10, .tls12⟩,
  ⟨0xc007, "TLS_ECDHE_ECDSA_WITH_RC4_128_SHA", .broken, .tls10, .tls12⟩,
  ⟨0x0005, "TLS_RSA_WITH_RC4_128_SHA", .broken, .ssl30, .tls12⟩,
  ⟨0x0004, "TLS_RSA_WITH_RC4_128_MD5", .broken, .ssl30, .tls12⟩,
  ⟨0x0009, "TLS_RSA_WITH_DES_CBC_SHA", .broken, .ssl30, .tls11⟩,
  ⟨0x0015, "TLS_DHE_RSA_WITH_DES_CBC_SHA", .broken, .ssl30, .tls11⟩,
  ⟨0x0003, "TLS_RSA_EXPORT_WITH_RC4_40_MD5", .broken, .ssl30, .tls10⟩,
  ⟨0x0008, "TLS_RSA_EXPORT_WITH_DES40_CBC_SHA", .broken, .ssl30, .tls10⟩,
  ⟨0x0014, "TLS_DHE_RSA_EXPORT_WITH_DES40_CBC_SHA", .broken, .ssl30, .tls10⟩,
  ⟨0x0018, "TLS_DH_anon_WITH_RC4_128_MD5", .broken, .ssl30, .tls12⟩,
  ⟨0x0034, "TLS_DH_anon_WITH_AES_128_CBC_SHA", .broken, .ssl30, .tls12⟩,
  ⟨0xc018, "TLS_ECDH_anon_WITH_AES_128_CBC_SHA", .broken, .tls10, .tls12⟩,
  ⟨0xc010, "TLS_ECDHE_RSA_WITH_NULL_SHA", .broken, .tls10, .tls12⟩,
  ⟨0x0002, "TLS_RSA_WITH_NULL_SHA", .broken, .ssl30, .tls12⟩,
  ⟨0x0001, "TLS_RSA_WITH_NULL_MD5", .broken, .ssl30, .tls12⟩]

def definedIn (s : CipherSuite) (v : ProtocolVersion) : Bool :=
  v.isAtLeast s.oldest && s.newest.isAtLeast v

def offered (v : ProtocolVersion) : List CipherSuite := table.filter (·.definedIn v)

def find? (id : UInt16) : Option CipherSuite := table.find? (·.id == id)

def accepted (s : CipherSuite) : AcceptedCipher := ⟨s.name, s.quality⟩

end CipherSuite
end FleetPosture.Tls
