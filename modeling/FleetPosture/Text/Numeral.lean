/-!
Numbers in text. A numeral is one or more digits after at most one plus sign; leading zeros count
for nothing, and a value above the limit is no number.
-/

namespace FleetPosture.Text

def digitValue? (radix : Nat) (c : Char) : Option Nat :=
  let n := c.toNat
  let v := if 48 ≤ n ∧ n ≤ 57 then n - 48
    else if 97 ≤ n ∧ n ≤ 122 then n - 87
    else if 65 ≤ n ∧ n ≤ 90 then n - 55
    else radix
  if v < radix then some v else none

def digitsFrom? (radix : Nat) (start : Nat) (ds : List Char) : Option Nat :=
  ds.foldlM (fun n c => (digitValue? radix c).map (n * radix + ·)) start

def digits? (radix : Nat) (ds : List Char) : Option Nat :=
  if ds.isEmpty then none else digitsFrom? radix 0 ds

def numeral? (radix limit : Nat) (s : List Char) : Option Nat :=
  let ds := match s with
    | '+' :: r => r
    | _ => s
  (digits? radix ds).filter (· ≤ limit)

def maxU16 : Nat := 65535
def maxU32 : Nat := 4294967295
def maxU64 : Nat := 18446744073709551615

def uint16? (s : List Char) : Option UInt16 := (numeral? 10 maxU16 s).map UInt16.ofNat

def uint32? (s : List Char) : Option UInt32 := (numeral? 10 maxU32 s).map UInt32.ofNat

def padded (width n : Nat) : String :=
  let ds := Nat.toDigits 10 n
  String.ofList (List.replicate (width - ds.length) '0' ++ ds)

def hexDigit (n : Nat) : Char := Nat.digitChar (n % 16)

end FleetPosture.Text
