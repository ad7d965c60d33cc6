import FleetPosture.Text.Numeral

/-!
What a plain scalar stands for when its type is not said: null, a truth value, a number, or itself.
Digits after a leading zero are text, not a number.
-/

namespace FleetPosture.Yaml

def isNullWord (s : String) : Bool := ["null", "Null", "NULL", "~"].contains s

def truth? (s : String) : Option Bool :=
  if ["true", "True", "TRUE"].contains s then some true
  else if ["false", "False", "FALSE"].contains s then some false
  else none

def hasLeadingZero (s : List Char) : Bool :=
  let ds := match s with
    | '+' :: r => r
    | '-' :: r => r
    | _ => s
  match ds with
  | '0' :: r => !r.isEmpty && r.all Char.isDigit
  | _ => false

/-- Digits that a letter after a zero gives the radix of, or decimal ones. -/
def magnitude? : List Char → Option Nat
  | '0' :: 'x' :: ds => Text.digits? 16 ds
  | '0' :: 'o' :: ds => Text.digits? 8 ds
  | '0' :: 'b' :: ds => Text.digits? 2 ds
  | ds => if hasLeadingZero ds then none else Text.digits? 10 ds

def natural? : List Char → Option Nat
  | '+' :: ds => magnitude? ds
  | ds => magnitude? ds

def isWhole : List Char → Bool
  | '-' :: ds => (magnitude? ds).any (· ≤ Nat.pow 2 127)
  | s => (natural? s).any (· < Nat.pow 2 128)

structure Decimal where
  digits : Nat
  exponent : Int
deriving DecidableEq, Repr

def exponent? : List Char → Option Int
  | '+' :: ds => (Text.digits? 10 ds).map Int.ofNat
  | '-' :: ds => (Text.digits? 10 ds).map fun n => -Int.ofNat n
  | ds => (Text.digits? 10 ds).map Int.ofNat

def decimal? (s : List Char) : Option Decimal := do
  let whole := s.takeWhile Char.isDigit
  let rest := s.dropWhile Char.isDigit
  let (places, rest) := match rest with
    | '.' :: r => (r.takeWhile Char.isDigit, r.dropWhile Char.isDigit)
    | r => ([], r)
  let digits ← Text.digits? 10 (whole ++ places)
  let exponent ← match rest with
    | [] => some 0
    | c :: r => if c = 'e' ∨ c = 'E' then exponent? r else none
  some ⟨digits, exponent - places.length⟩

/-- Below the least number that no double stands for. Of the number of decimal digits and the
exponent follows the answer, unless the number has the magnitude of the bound. -/
def Decimal.isFinite (d : Decimal) : Bool :=
  let size : Int := (Nat.toDigits 10 d.digits).length + d.exponent
  let bound : Nat := Nat.pow 2 1024 - Nat.pow 2 970
  if d.digits = 0 ∨ size ≤ 308 then true
  else if 309 < size then false
  else if 0 ≤ d.exponent then d.digits * Nat.pow 10 d.exponent.toNat < bound
  else d.digits < bound * Nat.pow 10 (-d.exponent).toNat

def isReal (s : List Char) : Bool :=
  let isDecimal (ds : List Char) : Bool := (decimal? ds).any Decimal.isFinite
  let isInfinity (ds : List Char) : Bool :=
    [".inf", ".Inf", ".INF"].any fun w => w.toList == ds
  match s with
  | '+' :: ds => isDecimal ds || isInfinity ds
  | '-' :: ds => isDecimal ds || isInfinity ds
  | ds => isDecimal ds || isInfinity ds || [".nan", ".NaN", ".NAN"].any fun w => w.toList == ds

def isAmbiguous (s : String) : Bool :=
  let cs := s.toList
  cs.isEmpty || isNullWord s || (truth? s).isSome || isWhole cs || hasLeadingZero cs || isReal cs

end FleetPosture.Yaml
