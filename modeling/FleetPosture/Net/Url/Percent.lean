import FleetPosture.Text.Numeral
import FleetPosture.Text.Utf8

/-!
Characters that a part of a URL may not hold are written as the bytes of their UTF-8 encoding, each
as a percent sign and two hexadecimal digits.
-/

namespace FleetPosture.Net.Url

open Text (Bytes)

def percentByte (b : UInt8) : List Char :=
  ['%', (Text.hexDigit (b.toNat / 16)).toUpper, (Text.hexDigit b.toNat).toUpper]

def percentEncoded (reserved : Char → Bool) (s : List Char) : List Char :=
  s.flatMap fun c => if reserved c then (Text.utf8 c.toString).flatMap percentByte else [c]

/-- The bytes that a text denotes. A percent sign without two digits after it stands for itself. -/
def percentDecoded : List Char → Bytes
  | '%' :: a :: b :: r =>
    match Text.digits? 16 [a, b] with
    | some n => UInt8.ofNat n :: percentDecoded r
    | none => Text.utf8 "%" ++ percentDecoded (a :: b :: r)
  | c :: r => Text.utf8 c.toString ++ percentDecoded r
  | [] => []

def isControl (c : Char) : Bool := c.toNat < 0x20 || 0x7f ≤ c.toNat

def inFragment (c : Char) : Bool := isControl c || [' ', '"', '<', '>', '\x60'].contains c

def inQuery (isSpecial : Bool) (c : Char) : Bool :=
  isControl c || [' ', '"', '#', '<', '>'].contains c || (isSpecial && c == '\'')

def inPath (c : Char) : Bool := inFragment c || ['#', '?', '\x7b', '\x7d'].contains c

def inUserinfo (c : Char) : Bool :=
  inPath c || ['/', ':', ';', '=', '@', '[', '\\', ']', '^', '|'].contains c

end FleetPosture.Net.Url
