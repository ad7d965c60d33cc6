import FleetPosture.Text.Numeral
import FleetPosture.Time.Calendar

/-!
Points in time as a local date and time with an offset from UTC in minutes, and their RFC 3339
text. Reading takes any ASCII character between date and time, drops digits of the fraction past
the ninth, and puts a leap second one nanosecond before the end of its minute. Reading and writing
keep the offset, which needs to be less than a day.
-/

namespace FleetPosture

namespace Time

def maxOffset : Nat := 25 * 60 + 59

def isTimestamp (year month day hour minute second nano : Nat) (offset : Int) : Bool :=
  year ≤ 9999 && isDate year month day && hour ≤ 23 && minute ≤ 59 && second ≤ 59 &&
    nano ≤ 999999999 && offset.natAbs ≤ maxOffset

end Time

structure Timestamp where
  year : Nat
  month : Nat
  day : Nat
  hour : Nat
  minute : Nat
  second : Nat
  nano : Nat
  offset : Int
  valid : Time.isTimestamp year month day hour minute second nano offset = true
deriving DecidableEq

namespace Timestamp

open Time

def ofFields? (year month day hour minute second nano : Nat) (offset : Int) : Option Timestamp :=
  if h : isTimestamp year month day hour minute second nano offset = true then
    some ⟨year, month, day, hour, minute, second, nano, offset, h⟩
  else none

/-- Whether the last second before midnight UTC that ends a month has just begun its last
nanosecond: the only place for a leap second. -/
def endsMonth (t : Timestamp) : Bool :=
  let minutes := (t.hour * 60 + t.minute : Int) - t.offset
  let (_, _, tomorrow) := ofDayNumber (dayNumber t.year t.month t.day + minutes / 1440 + 1)
  t.nano == 999999999 && t.second == 59 && minutes % 1440 == 1439 && tomorrow == 1

def digits? (count : Nat) (s : List Char) : Option (Nat × List Char) :=
  if (s.take count).length = count then (Text.digits? 10 (s.take count)).map (·, s.drop count)
  else none

def char? (c : Char) : List Char → Option (List Char)
  | x :: xs => if x = c then some xs else none
  | [] => none

def sign? : List Char → Option (Bool × List Char)
  | '+' :: r => some (false, r)
  | '-' :: r => some (true, r)
  | _ => none

def nanoOf (ds : List Char) : Nat :=
  let kept := ds.take 9
  (Text.digits? 10 (kept ++ List.replicate (9 - kept.length) '0')).getD 0

def fraction? : List Char → Option (Nat × List Char)
  | '.' :: r =>
    let ds := r.takeWhile Char.isDigit
    if ds.isEmpty then none else some (nanoOf ds, r.dropWhile Char.isDigit)
  | s => some (0, s)

def offset? (s : List Char) : Option Int :=
  if s = ['Z'] ∨ s = ['z'] then some 0
  else do
    let (negative, r) ← sign? s
    let (hours, r) ← digits? 2 r
    let r ← char? ':' r
    let (minutes, r) ← digits? 2 r
    if r ≠ [] ∨ 23 < hours ∨ 59 < minutes then none
    else
      let total : Int := (hours * 60 + minutes : Nat)
      some (if negative then -total else total)

def parseChars? (s : List Char) : Option Timestamp := do
  let (year, r) ← digits? 4 s
  let r ← char? '-' r
  let (month, r) ← digits? 2 r
  let r ← char? '-' r
  let (day, r) ← digits? 2 r
  let (separator, r) ← match r with
    | c :: r => some (c, r)
    | [] => none
  if 0x80 ≤ separator.toNat then none
  else
    let (hour, r) ← digits? 2 r
    let r ← char? ':' r
    let (minute, r) ← digits? 2 r
    let r ← char? ':' r
    let (second, r) ← digits? 2 r
    let (nano, r) ← fraction? r
    let offset ← offset? r
    if second = 60 then
      (ofFields? year month day hour minute 59 999999999 offset).filter endsMonth
    else ofFields? year month day hour minute second nano offset

def parse? (s : String) : Option Timestamp := parseChars? s.toList

def fractionText (nano : Nat) : String :=
  if nano = 0 then ""
  else
    let ds := (Text.padded 9 nano).toList
    "." ++ String.ofList (ds.reverse.dropWhile (· == '0')).reverse

def offsetText (offset : Int) : String :=
  if offset = 0 then "Z"
  else
    (if offset < 0 then "-" else "+") ++ Text.padded 2 (offset.natAbs / 60) ++ ":" ++
      Text.padded 2 (offset.natAbs % 60)

/-- The RFC 3339 text; there is none for an offset of a day or more. -/
def text? (t : Timestamp) : Option String :=
  if 24 * 60 ≤ t.offset.natAbs then none
  else
    some (Text.padded 4 t.year ++ "-" ++ Text.padded 2 t.month ++ "-" ++ Text.padded 2 t.day ++ "T" ++
      Text.padded 2 t.hour ++ ":" ++ Text.padded 2 t.minute ++ ":" ++ Text.padded 2 t.second ++
      fractionText t.nano ++ offsetText t.offset)

end Timestamp
end FleetPosture
