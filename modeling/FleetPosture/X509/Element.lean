import FleetPosture.Wire

/-!
Elements of the distinguished encoding of ASN.1, and the more liberal basic encoding, in which the
length of an element may be left open and an end mark closes it.
-/

namespace FleetPosture.X509

open Text (Bytes)

inductive Encoding
  | distinguished
  | basic
deriving DecidableEq, Repr

structure Header where
  tagClass : Nat
  constructed : Bool
  tag : Nat
  /-- `none` if an end mark follows the content. -/
  length : Option Nat
deriving DecidableEq, Repr

structure Element where
  tagClass : Nat
  constructed : Bool
  tag : Nat
  content : Bytes
deriving DecidableEq, Repr

abbrev Read := StateT Bytes Option

namespace Read

def byte : Read UInt8 := fun
  | b :: bs => some (b, bs)
  | [] => none

def atEnd : Read Bool := fun bs => some (bs.isEmpty, bs)

def require (b : Bool) : Read Unit := if b then pure () else failure

/-- A value in as many bytes, or nothing more if it is not there. -/
def attempt? {α : Type} (f : Read α) : Read (Option α) := fun bs =>
  match f bs with
  | some (a, rest) => some (some a, rest)
  | none => some (none, bs)

def many {α : Type} (f : Read α) : Nat → Read (List α)
  | 0 => pure []
  | limit + 1 => do
    match ← attempt? f with
    | some a => pure (a :: (← many f limit))
    | none => pure []

def inside {α : Type} (content : Bytes) (f : Read α) : Read α := fun bs =>
  (f content).map fun (a, _) => (a, bs)

end Read

def longTag : Nat → Nat → Read Nat
  | 0, _ => failure
  | limit + 1, n => do
    let b ← Read.byte
    let n := (n * 128 + b.toNat % 128) % Nat.pow 2 32
    if b < 0x80 then pure n else longTag limit n

def longLength (width : Nat) : Read Nat := fun bs => do
  let (digits, rest) ← Wire.take? width bs
  if 8 < (digits.dropWhile (· == 0)).length then none else some (Wire.number digits, rest)

def header (e : Encoding) : Read Header := do
  let b ← Read.byte
  let constructed := b.toNat / 32 % 2 == 1
  let low := b.toNat % 32
  let tag ← if low = 31 then longTag 5 0 else pure low
  let l ← Read.byte
  let length ←
    if l < 0x80 then pure (some l.toNat)
    else if l = 0x80 then
      if e = .basic ∧ constructed then pure none else failure
    else if l = 0xff then failure
    else some <$> longLength (l.toNat - 128)
  pure ⟨b.toNat / 64, constructed, tag, length⟩

/-- The bytes of a content, and whether the element is the end mark. `depth` limits how deeply
elements without length may be nested. -/
def skipContent : Nat → Nat → Header → Bytes → Option (Bytes × Bool)
  | 0, _, _, _ => none
  | fuel + 1, depth, h, bs =>
    if depth = 0 then none
    else
      match h.length with
      | some n =>
        if n = 0 ∧ h.tag = 0 then some (bs, true)
        else (Wire.take? n bs).map fun (_, rest) => (rest, false)
      | none => do
        let (inner, rest) ← header .basic bs
        let (rest, ended) ← skipContent fuel (depth - 1) inner rest
        if ended then some (rest, false) else skipContent fuel depth h rest

def maxDepth : Nat := 50

def content (h : Header) : Read Bytes := fun bs =>
  match h.length with
  | some n => Wire.take? n bs
  | none => do
    let (rest, _) ← skipContent (bs.length + 1) maxDepth h bs
    some (bs.take (bs.length - rest.length - 2), rest)

def element (e : Encoding) : Read Element := do
  let h ← header e
  pure ⟨h.tagClass, h.constructed, h.tag, ← content h⟩

namespace Tag

def boolean : Nat := 1
def integer : Nat := 2
def bitString : Nat := 3
def octetString : Nat := 4
def objectId : Nat := 6
def utf8String : Nat := 12
def sequence : Nat := 16
def set : Nat := 17
def numericString : Nat := 18
def printableString : Nat := 19
def ia5String : Nat := 22
def utcTime : Nat := 23
def generalizedTime : Nat := 24

end Tag

def within {α : Type} (e : Encoding) (tag : Nat) (f : Read α) : Read α := do
  let x ← element e
  Read.require (x.tag = tag)
  Read.inside x.content f

def objectId : Read Bytes := do
  let x ← element .distinguished
  Read.require (x.tag = Tag.objectId && !x.constructed)
  pure x.content

def bitStringContent (x : Element) : Option Bytes :=
  match x.content with
  | [] => none
  | [unused] => if unused = 0 ∧ ¬x.constructed then some [] else none
  | unused :: bs =>
    let last := (bs.getLast?.getD 0).toNat
    if x.constructed ∨ 8 < unused.toNat ∨ last % Nat.pow 2 unused.toNat ≠ 0 then none
    else some bs

def bitString : Read Bytes := do
  let x ← element .distinguished
  Read.require (x.tag = Tag.bitString)
  match bitStringContent x with
  | some bs => pure bs
  | none => failure

end FleetPosture.X509
