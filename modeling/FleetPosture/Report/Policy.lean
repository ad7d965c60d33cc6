import FleetPosture.Snapshot.Json

/-!
Which TLS settings are approved. A cipher is approved if its quality is acceptable and, where there
is a list of approved ciphers, it is on the list.
-/

namespace FleetPosture

structure TlsPolicy where
  approvedProtocols : SortedSet
  approvedCiphers : Option SortedSet
deriving DecidableEq

namespace TlsPolicy

def standard : TlsPolicy := ⟨SortedSet.ofTexts ["VersionTLS12", "VersionTLS13"], none⟩

def approvesProtocol (p : TlsPolicy) (label : String) : Bool := p.approvedProtocols.has label

def approvesCipher (p : TlsPolicy) (c : AcceptedCipher) : Bool :=
  c.quality.isAcceptable &&
    match p.approvedCiphers with
    | some list => list.has c.name
    | none => true

def set? (v : Json) : Option SortedSet := v.texts?.map SortedSet.ofTexts

/-- A field that is absent has the standard policy's value. -/
def ofJson? (v : Json) : Option TlsPolicy := do
  match ← v.record? ["approved_protocols", "approved_ciphers"] with
  | [protocols, ciphers] =>
    some ⟨← Json.defaulted? set? standard.approvedProtocols protocols, ← Json.optional? set? ciphers⟩
  | _ => none

end TlsPolicy
end FleetPosture
