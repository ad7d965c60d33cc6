import FleetPosture.Text.Numeral
import FleetPosture.Text.Pieces

/-!
128-bit identifiers. They are read in four spellings (32 hexadecimal digits, the same in groups of
8, 4, 4, 4 and 12 joined by hyphens, and the groups in braces or after `urn:uuid:`) and written in
groups, in lower case.
-/

namespace FleetPosture

structure Uuid where
  value : BitVec 128
deriving DecidableEq

namespace Uuid

def isHexDigit (c : Char) : Bool := (Text.digitValue? 16 c).isSome

def ofDigits? (s : List Char) : Option Uuid :=
  if s.length = 32 ∧ s.all isHexDigit then
    (Text.digits? 16 s).map fun n => ⟨BitVec.ofNat 128 n⟩
  else none

def ofGroups? (s : List Char) : Option Uuid :=
  let groups := Text.pieces (· == '-') s
  if groups.map List.length = [8, 4, 4, 4, 12] then ofDigits? groups.flatten else none

def parseChars? (s : List Char) : Option Uuid :=
  if s.length = 32 then ofDigits? s
  else if s.length = 38 ∧ s.head? = some '\x7b' ∧ s.getLast? = some '\x7d' then
    ofGroups? (s.drop 1).dropLast
  else if s.length = 45 ∧ (s.take 9).map Char.toLower = "urn:uuid:".toList then
    ofGroups? (s.drop 9)
  else ofGroups? s

def parse? (s : String) : Option Uuid := parseChars? s.toList

/-- The identifier of version 7 that begins with a time in milliseconds; 74 bits are random. -/
def ofTime (milliseconds random : Nat) : Uuid :=
  ⟨BitVec.ofNat 48 milliseconds ++ 7#4 ++ BitVec.ofNat 12 (random / Nat.pow 2 62) ++ 2#2 ++
    BitVec.ofNat 62 random⟩

def digitChars (u : Uuid) : List Char :=
  (List.range 32).map fun i => Nat.digitChar (u.value.toNat / Nat.pow 16 (31 - i) % 16)

def text (u : Uuid) : String :=
  let ds := digitChars u
  String.ofList (ds.take 8 ++ '-' :: (ds.drop 8).take 4 ++ '-' :: (ds.drop 12).take 4 ++
    '-' :: (ds.drop 16).take 4 ++ '-' :: ds.drop 20)

end Uuid
end FleetPosture
