import FleetPosture.Json.Basic
import FleetPosture.Text.Numeral

/-!
The tokens of a JSON text. A run of letters, digits, signs and points is one token, a literal or a
numeral; strings are read with their escapes.
-/

namespace FleetPosture.Json

inductive Token
  | beginArray
  | endArray
  | beginObject
  | endObject
  | colon
  | comma
  | scalar (value : Json)
  | string (text : Option String)

/-- A string whose closing quote is still to come: its characters in reverse, the first half of a
surrogate pair that was just read, and whether every surrogate before was one of a pair. -/
structure Unfinished where
  reversed : List Char
  high : Option Nat
  paired : Bool

namespace Unfinished

def start : Unfinished := ⟨[], none, true⟩

def add (c : Char) (s : Unfinished) : Unfinished :=
  ⟨c :: s.reversed, none, s.paired && s.high.isNone⟩

def addUnit (n : Nat) (s : Unfinished) : Unfinished :=
  match s.high with
  | some h =>
    if 0xdc00 ≤ n ∧ n < 0xe000 then
      ⟨Char.ofNat (0x10000 + (h - 0xd800) * 0x400 + (n - 0xdc00)) :: s.reversed, none, s.paired⟩
    else if 0xd800 ≤ n ∧ n < 0xdc00 then ⟨s.reversed, some n, false⟩
    else ⟨Char.ofNat n :: s.reversed, none, false⟩
  | none =>
    if 0xdc00 ≤ n ∧ n < 0xe000 then ⟨s.reversed, none, false⟩
    else if 0xd800 ≤ n ∧ n < 0xdc00 then ⟨s.reversed, some n, s.paired⟩
    else ⟨Char.ofNat n :: s.reversed, none, s.paired⟩

def finish (s : Unfinished) : Option String :=
  if s.paired && s.high.isNone then some (String.ofList s.reversed.reverse) else none

end Unfinished

inductive Mode
  | between
  | word (reversed : List Char)
  | text (s : Unfinished)
  | escape (s : Unfinished)
  | code (s : Unfinished) (missing value : Nat)

def isWordChar (c : Char) : Bool := c.isAlphanum || c == '+' || c == '-' || c == '.'

def isSpace (c : Char) : Bool := c == ' ' || c == '\n' || c == '\r' || c == '\t'

def isFractionExponent (s : List Char) : Bool :=
  match s with
  | [] => true
  | '.' :: r =>
    let tail := r.dropWhile Char.isDigit
    !(r.takeWhile Char.isDigit).isEmpty && (tail.isEmpty || isExponent tail)
  | _ => isExponent s
where
  isExponent : List Char → Bool
    | e :: r =>
      (e == 'e' || e == 'E') &&
        let ds := match r with
          | '+' :: t => t
          | '-' :: t => t
          | _ => r
        !ds.isEmpty && ds.all Char.isDigit
    | [] => false

def numeral? (s : List Char) : Option Json :=
  let negative := s.head? == some '-'
  let body := if negative then s.drop 1 else s
  let whole := body.takeWhile Char.isDigit
  let tail := body.dropWhile Char.isDigit
  if whole.isEmpty || (whole.head? == some '0' && whole.length > 1) || !isFractionExponent tail then
    none
  else
    match Text.digits? 10 whole with
    | none => none
    | some n =>
      if !tail.isEmpty then some (.real (String.ofList s))
      else if negative then
        if n = 0 ∨ 9223372036854775808 < n then some (.real (String.ofList s))
        else some (.integer (-(n : Int)))
      else if n ≤ Text.maxU64 then some (.integer n)
      else some (.real (String.ofList s))

def scalar? (s : List Char) : Option Json :=
  if s = "null".toList then some .null
  else if s = "true".toList then some (.bool true)
  else if s = "false".toList then some (.bool false)
  else numeral? s

def opens (c : Char) : Option (Option Token × Mode) :=
  if isSpace c then some (none, .between)
  else if c = '[' then some (some .beginArray, .between)
  else if c = ']' then some (some .endArray, .between)
  else if c = '\x7b' then some (some .beginObject, .between)
  else if c = '\x7d' then some (some .endObject, .between)
  else if c = ':' then some (some .colon, .between)
  else if c = ',' then some (some .comma, .between)
  else if c = '"' then some (none, .text .start)
  else if isWordChar c then some (none, .word [c])
  else none

def unescape? (c : Char) : Option Char :=
  if c = '"' ∨ c = '\\' ∨ c = '/' then some c
  else if c = 'b' then some '\x08'
  else if c = 'f' then some '\x0c'
  else if c = 'n' then some '\n'
  else if c = 'r' then some '\r'
  else if c = 't' then some '\t'
  else none

/-- The tokens that the rest of the text adds, in the mode that what came before left. -/
def tokensFrom : Mode → List Char → Option (List Token)
  | .between, [] => some []
  | .word w, [] => (scalar? w.reverse).map fun v => [.scalar v]
  | .text _, [] => none
  | .escape _, [] => none
  | .code .., [] => none
  | .between, c :: cs =>
    match opens c with
    | none => none
    | some (none, m) => tokensFrom m cs
    | some (some t, m) => (tokensFrom m cs).map (t :: ·)
  | .word w, c :: cs =>
    if isWordChar c then tokensFrom (.word (c :: w)) cs
    else
      match scalar? w.reverse, opens c with
      | some v, some (none, m) => (tokensFrom m cs).map (.scalar v :: ·)
      | some v, some (some t, m) => (tokensFrom m cs).map (.scalar v :: t :: ·)
      | _, _ => none
  | .text s, c :: cs =>
    if c = '"' then (tokensFrom .between cs).map (.string s.finish :: ·)
    else if c = '\\' then tokensFrom (.escape s) cs
    else if c.toNat < 0x20 then none
    else tokensFrom (.text (s.add c)) cs
  | .escape s, c :: cs =>
    if c = 'u' then tokensFrom (.code s 4 0) cs
    else
      match unescape? c with
      | some d => tokensFrom (.text (s.add d)) cs
      | none => none
  | .code s missing value, c :: cs =>
    match Text.digitValue? 16 c with
    | none => none
    | some d =>
      if missing = 1 then tokensFrom (.text (s.addUnit (value * 16 + d))) cs
      else tokensFrom (.code s (missing - 1) (value * 16 + d)) cs

def tokens? (s : List Char) : Option (List Token) := tokensFrom .between s

end FleetPosture.Json
