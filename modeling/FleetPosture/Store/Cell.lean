import FleetPosture.Text.Numeral
import FleetPosture.Text.Pieces

/-!
The values of a database's cells. A column may prefer whole numbers or text, and a value stored in it
is turned into what the column prefers if nothing is lost.
-/

namespace FleetPosture.Store

inductive Cell
  | null
  | integer (n : Int)
  | real (numeral : String)
  | text (s : String)
deriving DecidableEq, Repr

inductive Affinity
  | integer
  | text
deriving DecidableEq, Repr

namespace Cell

def maxInteger : Int := 9223372036854775807
def minInteger : Int := -9223372036854775808

def isSpace (c : Char) : Bool := c == ' ' || (9 ≤ c.toNat && c.toNat ≤ 13)

structure Numeral where
  isNegative : Bool
  whole : List Char
  fraction : List Char
  exponent : Int

def sign (s : List Char) : Bool × List Char :=
  match s with
  | '-' :: r => (true, r)
  | '+' :: r => (false, r)
  | _ => (false, s)

def exponent? : List Char → Option Int
  | [] => some 0
  | e :: r =>
    if e = 'e' ∨ e = 'E' then
      let (isNegative, digits) := sign r
      (Text.digits? 10 digits).map fun n => if isNegative then -(n : Int) else n
    else none

def numeral? (s : List Char) : Option Numeral := do
  let (isNegative, s) := sign (Text.trimEndWhile isSpace (s.dropWhile isSpace))
  let (whole, s) := s.span Char.isDigit
  let (fraction, s) := match s with
    | '.' :: r => r.span Char.isDigit
    | _ => ([], s)
  if whole.isEmpty && fraction.isEmpty then none
  else some ⟨isNegative, whole, fraction, ← exponent? s⟩

def Numeral.whole? (n : Numeral) : Option Int :=
  let digits := (Text.digits? 10 (n.whole ++ n.fraction)).getD 0
  let scale := n.exponent - n.fraction.length
  let magnitude : Option Nat :=
    if digits = 0 then some 0
    else if 0 ≤ scale then if scale ≤ 18 then some (digits * Nat.pow 10 scale.toNat) else none
    else
      let divisor := Nat.pow 10 (min (-scale) (n.whole.length + n.fraction.length + 1)).toNat
      if digits % divisor = 0 then some (digits / divisor) else none
  magnitude.map fun m => if n.isNegative then -(m : Int) else m

def stored : Affinity → Cell → Cell
  | .text, .integer n => .text (toString n)
  | .integer, .text s =>
    match numeral? s.toList with
    | none => .text s
    | some numeral =>
      match numeral.whole? with
      | some n => if minInteger ≤ n ∧ n ≤ maxInteger then .integer n else .real s
      | none => .real s
  | _, v => v

def ofNat (n : Nat) : Cell := .integer n

def ofBool (b : Bool) : Cell := .integer (if b then 1 else 0)

def ofText? : Option String → Cell
  | some s => .text s
  | none => .null

def integer? : Cell → Option Int
  | .integer n => some n
  | _ => none

def text? : Cell → Option String
  | .text s => some s
  | _ => none

def natural? (limit : Nat) (c : Cell) : Option Nat :=
  c.integer?.bind fun n => if 0 ≤ n ∧ n ≤ limit then some n.toNat else none

/-- Any number but zero is true. -/
def bool? (c : Cell) : Option Bool := c.integer?.map (· != 0)

def optional? {α : Type} (value? : Cell → Option α) : Cell → Option (Option α)
  | .null => some none
  | c => (value? c).map some

end Cell
end FleetPosture.Store
