import FleetPosture.Wire

/-!
What a ServerHello chose: the suite, and the version, which the supported-versions extension states
over the hello's own.
-/

namespace FleetPosture.Tls

open Text (Bytes)

structure ServerHello where
  version : UInt16
  suite : UInt16
deriving DecidableEq, Repr

namespace ServerHello

def code (bs : Bytes) : UInt16 := UInt16.ofNat (Wire.number bs)

def supportedVersions : UInt16 := 0x002b

/-- The version after a list of extensions; fewer than four bytes after the last one count for
nothing. -/
def extendedVersion (version : UInt16) (bs : Bytes) : Option UInt16 :=
  match bs with
  | a :: b :: c :: d :: rest =>
    match _h : Wire.take? (Wire.number [c, d]) rest with
    | none => none
    | some (content, after) =>
      extendedVersion
        (if code [a, b] = supportedVersions ∧ content.length = 2 then code content else version)
        after
  | _ => some version
termination_by bs.length
decreasing_by
  obtain ⟨rfl, -⟩ := Wire.eq_append_of_take? _h
  simp only [List.length_cons, List.length_append]
  omega

def parse? (body : Bytes) : Option ServerHello := do
  let (version, rest) ← Wire.take? 2 body
  let (_, rest) ← Wire.take? 32 rest
  let (_, rest) ← Wire.field? 1 rest
  let (suite, rest) ← Wire.take? 2 rest
  match Wire.take? 2 (rest.drop 1) with
  | none => some ⟨code version, code suite⟩
  | some (length, rest) =>
    let (extensions, _) ← Wire.take? (Wire.number length) rest
    some ⟨← extendedVersion (code version) extensions, code suite⟩

end ServerHello
end FleetPosture.Tls
