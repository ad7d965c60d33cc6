import FleetPosture.Snapshot.Basic
import FleetPosture.X509.Time

/-!
What a report needs from a certificate: its expiry, the size of its key and parts of its subject.
The whole certificate has to be well-formed, but bytes after the parts that a structure needs count
for nothing, and a name ends at its first malformed part.
-/

namespace FleetPosture.X509

open Text (Bytes)

structure Algorithm where
  id : Bytes
deriving DecidableEq, Repr

def algorithm : Read Algorithm :=
  within .distinguished Tag.sequence do
    let id ← objectId
    if ← Read.atEnd then pure ⟨id⟩
    else
      let _ ← element .distinguished
      pure ⟨id⟩

structure Attribute where
  kind : Bytes
  tag : Nat
  content : Bytes
deriving DecidableEq, Repr

def nameAttribute : Read Attribute :=
  within .distinguished Tag.sequence do
    let kind ← objectId
    let x ← element .distinguished
    pure ⟨kind, x.tag, x.content⟩

def nameParts : Read (List Attribute) :=
  within .distinguished Tag.set do
    let first ← nameAttribute
    pure (first :: (← Read.many nameAttribute (← get).length))

def name : Read (List Attribute) :=
  within .distinguished Tag.sequence do
    pure (← Read.many nameParts (← get).length).flatten

def Attribute.text? (a : Attribute) : Option String :=
  if [Tag.utf8String, Tag.numericString, Tag.printableString, Tag.ia5String].contains a.tag then
    (Text.utf8Decode a.content).toOption
  else none

def textOf (as : List Attribute) (kind : Bytes) : String :=
  ((as.find? (·.kind == kind)).bind Attribute.text?).getD ""

def subjectOf (as : List Attribute) : Subject where
  country := textOf as [0x55, 0x04, 0x06]
  province := textOf as [0x55, 0x04, 0x08]
  locality := textOf as [0x55, 0x04, 0x07]
  organization := textOf as [0x55, 0x04, 0x0a]
  commonName := textOf as [0x55, 0x04, 0x03]

structure PublicKey where
  algorithm : Algorithm
  bits : Bytes
deriving DecidableEq, Repr

def publicKey : Read PublicKey :=
  within .distinguished Tag.sequence do pure ⟨← algorithm, ← bitString⟩

/-- The shortest form of a number: its first byte is neither idle nor missing. -/
def isMinimal : Bytes → Bool
  | [] => false
  | 0x00 :: b :: _ => 0x80 ≤ b
  | 0xff :: b :: _ => b < 0x80
  | _ => true

def integer : Read Bytes := do
  let x ← element .distinguished
  Read.require (x.tag = Tag.integer && !x.constructed && isMinimal x.content)
  pure x.content

def rsaModulus? (key : Bytes) : Option Bytes :=
  ((within .distinguished Tag.sequence do
    let modulus ← integer
    let _ ← integer
    pure modulus) key).map (·.1)

def rsaEncryption : Algorithm := ⟨[0x2a, 0x86, 0x48, 0x86, 0xf7, 0x0d, 0x01, 0x01, 0x01]⟩
def ellipticCurve : Algorithm := ⟨[0x2a, 0x86, 0x48, 0xce, 0x3d, 0x02, 0x01]⟩

def modulusBits : Bytes → Nat
  | [] => 0
  | b :: bs => if b < 0x80 then 8 * bs.length else 0

/-- The size of a key. A point on a curve counts half of its bytes, less the first; other keys count
all of their bytes. -/
def PublicKey.size (k : PublicKey) : Nat :=
  let whole := 8 * k.bits.length
  if k.algorithm = rsaEncryption then ((rsaModulus? k.bits).map modulusBits).getD whole
  else if k.algorithm = ellipticCurve then (k.bits.length - 1) / 2 * 8
  else whole

def version : Read Unit := do
  if ← Read.atEnd then pure ()
  else
    let before ← get
    let x ← element .distinguished
    if x.tag ≠ 0 then set before
    else
      Read.require (x.tagClass = 2)
      Read.inside x.content do
        let n ← integer
        Read.require ((n.head?.any (· < 0x80)) && (n.dropWhile (· == 0)).length ≤ 4)

def uniqueId (number : Nat) : Read Unit := do
  if ← Read.atEnd then pure ()
  else
    let before ← get
    let x ← element .distinguished
    if x.tag ≠ number then set before
    else Read.require (x.tagClass = 2 && (bitStringContent x).isSome)

def extension : Read Unit :=
  within .distinguished Tag.sequence do
    let _ ← objectId
    let before ← get
    match ← Read.attempt? (element .basic) with
    | some x => if x.tag ≠ Tag.boolean ∨ x.content.length ≠ 1 then set before
    | none => pure ()
    let x ← element .distinguished
    Read.require (x.tag = Tag.octetString && !x.constructed)

def extensions : Read Unit := do
  if ← Read.atEnd then pure ()
  else
    let h ← header .distinguished
    Read.require (h.tag = 3)
    within .distinguished Tag.sequence do
      let _ ← Read.many extension (← get).length
      Read.require (← Read.atEnd)
    Read.require (← Read.atEnd)

structure Body where
  notAfter : WrittenTime
  subject : List Attribute
  key : PublicKey

def body : Read Body :=
  within .distinguished Tag.sequence do
    version
    let serial ← element .basic
    Read.require (serial.tag = Tag.integer)
    let _ ← algorithm
    let _ ← name
    let notAfter ← within .distinguished Tag.sequence do
      let _ ← time
      time
    let subject ← name
    let key ← publicKey
    uniqueId 1
    uniqueId 2
    extensions
    pure ⟨notAfter, subject, key⟩

def certificate? (der : Bytes) : Option Certificate := do
  let (b, _) ← (within .distinguished Tag.sequence do
    let b ← body
    let _ ← algorithm
    let _ ← bitString
    pure b) der
  some ⟨UInt32.ofNat b.key.size, ← b.notAfter.inUtc?, subjectOf b.subject⟩

end FleetPosture.X509
