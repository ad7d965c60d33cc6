import FleetPosture.Text.Numeral
import FleetPosture.Text.Pieces

/-!
Internet addresses and their text. An address of version 4 is four decimal octets without leading
zeros; one of version 6 is eight groups of up to four hexadecimal digits, of which `::` stands for
one or more zero groups, and the last two may be written as an address of version 4.
-/

namespace FleetPosture.Net

inductive Address
  | v4 (value : BitVec 32)
  | v6 (value : BitVec 128)
deriving DecidableEq, Repr

namespace Address

/-- What may be written where the usual form of addresses is strict. -/
structure Leniency where
  zeros : Bool
  /-- A double colon may stand for no group at all. -/
  noGap : Bool

def strict : Leniency := ⟨false, false⟩
def lenient : Leniency := ⟨true, true⟩

def octet? (l : Leniency) (s : List Char) : Option Nat :=
  if s.length > 3 ∨ (!l.zeros ∧ s.length > 1 ∧ s.head? = some '0') then none
  else (Text.digits? 10 s).filter (· ≤ 255)

def ofPlaces (base : Nat) (places : List Nat) : Nat := places.foldl (· * base + ·) 0

def octets? (l : Leniency) (s : List Char) : Option (List Nat) :=
  let parts := Text.pieces (· == '.') s
  if parts.length = 4 then parts.mapM (octet? l) else none

def group? (s : List Char) : Option Nat :=
  if s.length > 4 then none else Text.digits? 16 s

def groups? (l : Leniency) (tail : Bool) : List (List Char) → Option (List Nat)
  | [] => some []
  | [g] =>
    match group? g with
    | some n => some [n]
    | none =>
      if tail then
        match octets? l g with
        | some [a, b, c, d] => some [a * 256 + b, c * 256 + d]
        | _ => none
      else none
  | g :: gs => do
    let n ← group? g
    let ns ← groups? l tail gs
    some (n :: ns)

def stretch? (l : Leniency) (tail : Bool) (s : List Char) : Option (List Nat) :=
  if s.isEmpty then some [] else groups? l tail (Text.pieces (· == ':') s)

def cutGap? : List Char → Option (List Char × List Char)
  | ':' :: ':' :: r => some ([], r)
  | c :: r => (cutGap? r).map fun (a, b) => (c :: a, b)
  | [] => none

def ofText4? (l : Leniency) (s : List Char) : Option (BitVec 32) :=
  (octets? l s).map fun os => BitVec.ofNat 32 (ofPlaces 256 os)

def ofText6? (l : Leniency) (s : List Char) : Option (BitVec 128) :=
  match cutGap? s with
  | none => do
    let gs ← groups? l true (Text.pieces (· == ':') s)
    if gs.length = 8 then some (BitVec.ofNat 128 (ofPlaces 65536 gs)) else none
  | some (front, back) => do
    let fs ← stretch? l false front
    let bs ← stretch? l true back
    if fs.length + bs.length ≤ (if l.noGap then 8 else 7) then
      let zeros := List.replicate (8 - (fs.length + bs.length)) 0
      some (BitVec.ofNat 128 (ofPlaces 65536 (fs ++ zeros ++ bs)))
    else none

def ofChars? (s : List Char) : Option Address :=
  match ofText4? strict s with
  | some v => some (.v4 v)
  | none => (ofText6? strict s).map .v6

def parse? (s : String) : Option Address := ofChars? s.toList

def bits (v low width : Nat) : Nat := v / Nat.pow 2 low % Nat.pow 2 width

def groupsOf (v : BitVec 128) : List Nat := (List.range 8).map fun i => bits v.toNat (16 * (7 - i)) 16

def octetsText (n : Nat) : String :=
  Text.join "." ((List.range 4).map fun i => toString (bits n (8 * (3 - i)) 8))

def leadingZeros (gs : List Nat) : Nat := (gs.takeWhile (· == 0)).length

def longestZeros (gs : List Nat) : Nat × Nat :=
  (List.range gs.length).foldl
    (fun best i =>
      let n := leadingZeros (gs.drop i)
      if best.2 < n then (i, n) else best)
    (0, 0)

def groupsText (gs : List Nat) : String :=
  Text.join ":" (gs.map fun g => String.ofList (Nat.toDigits 16 g))

def compressed (gs : List Nat) : String :=
  let (start, length) := longestZeros gs
  if length < 2 then groupsText gs
  else groupsText (gs.take start) ++ "::" ++ groupsText (gs.drop (start + length))

/-- The shortest form. Addresses of version 4 in disguise show their octets. -/
def text : Address → String
  | .v4 v => octetsText v.toNat
  | .v6 v =>
    let gs := groupsOf v
    if gs.take 6 = [0, 0, 0, 0, 0, 0xffff] then "::ffff:" ++ octetsText v.toNat
    else compressed gs

def isLoopback : Address → Bool
  | .v4 v => bits v.toNat 24 8 == 127
  | .v6 v => v.toNat == 1

def isUnspecified : Address → Bool
  | .v4 v => v.toNat == 0
  | .v6 v => v.toNat == 0

def isLinkLocal : Address → Bool
  | .v4 v => bits v.toNat 16 16 == 0xa9fe
  | .v6 v => bits v.toNat 118 10 == 0x3fa

def isRoutable (a : Address) : Bool := !a.isLoopback && !a.isUnspecified && !a.isLinkLocal

end Address
end FleetPosture.Net
