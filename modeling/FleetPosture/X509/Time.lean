import FleetPosture.Time.Timestamp
import FleetPosture.X509.Element

/-!
Times in certificates: two digits of the year and an optional offset, or four digits and always
UTC. Years of two digits lie between 1950 and 2049.
-/

namespace FleetPosture.X509

open Text (Bytes)

structure WrittenTime where
  year : Nat
  month : Nat
  day : Nat
  hour : Nat
  minute : Nat
  second : Nat
  offset : Int
deriving DecidableEq, Repr

def twoDigits : Read Nat := do
  let a ← Read.byte
  let b ← Read.byte
  Read.require (48 ≤ a && a ≤ 57 && 48 ≤ b && b ≤ 57)
  pure ((a.toNat - 48) * 10 + (b.toNat - 48))

/-- Two digits, or zero where fewer than two bytes are left; nothing may end here. -/
def optionalDigits : Read Nat := fun bs =>
  match bs with
  | [] => none
  | [_] => some (0, bs)
  | _ => twoDigits bs

/-- The distance from UTC at the end of a time. Below an hour it counts as ahead, whatever its
sign. -/
def zone : Read Int := do
  let sign ← Read.byte
  if sign = 0x5a then
    Read.require (← Read.atEnd)
    pure 0
  else
    Read.require (sign = 0x2b || sign = 0x2d)
    let hours ← twoDigits
    let minutes ← twoDigits
    Read.require (← Read.atEnd)
    Read.require (hours ≤ 25 && minutes ≤ 59)
    let total : Int := (hours * 60 + minutes : Nat)
    pure (if sign = 0x2d ∧ hours ≠ 0 then -total else total)

/-- The fraction of a second, up to three digits, which does not count. -/
def fraction : Read Unit := fun bs =>
  match bs with
  | 0x2e :: rest =>
    let digits := rest.takeWhile fun b => 48 ≤ b && b ≤ 57
    if digits.length ≤ 3 ∧ (¬digits.isEmpty ∨ ¬rest.isEmpty) then some ((), rest.drop digits.length)
    else none
  | _ => some ((), bs)

def isVisible (b : UInt8) : Bool := 0x20 ≤ b && b ≤ 0x7f

def shortYear : Read WrittenTime := do
  let year ← twoDigits
  let month ← twoDigits
  let day ← twoDigits
  let hour ← twoDigits
  let minute ← twoDigits
  let second ← optionalDigits
  let offset ← zone
  pure ⟨if 50 ≤ year then year + 1900 else year + 2000, month, day, hour, minute, second, offset⟩

def longYear : Read WrittenTime := do
  let century ← twoDigits
  let year ← twoDigits
  let month ← twoDigits
  let day ← twoDigits
  let hour ← twoDigits
  let minute ← optionalDigits
  let second ← optionalDigits
  fraction
  let offset ← zone
  pure ⟨century * 100 + year, month, day, hour, minute, second, offset⟩

def WrittenTime.isValid (t : WrittenTime) : Bool :=
  Time.isDate t.year t.month t.day && t.hour ≤ 23 && t.minute ≤ 59 && t.second ≤ 59

def WrittenTime.inUtc? (t : WrittenTime) : Option Timestamp :=
  let minutes : Int := t.hour * 60 + t.minute - t.offset
  let (year, month, day) := Time.ofDayNumber (Time.dayNumber t.year t.month t.day + minutes / 1440)
  let ofDay := (minutes % 1440).toNat
  if year < 0 then none
  else Timestamp.ofFields? year.toNat month day (ofDay / 60) (ofDay % 60) t.second 0 0

def writtenTime? (x : Element) : Option WrittenTime :=
  let all (f : Read WrittenTime) : Option WrittenTime := (f x.content).map (·.1)
  if !x.content.all isVisible then none
  else if x.tag = Tag.utcTime then all shortYear
  else if x.tag = Tag.generalizedTime ∧ x.content.getLast? = some 0x5a ∧ ¬x.content.contains 0x2c then
    all longYear
  else none

def time : Read WrittenTime := do
  let x ← element .distinguished
  match (writtenTime? x).filter WrittenTime.isValid with
  | some t => pure t
  | none => failure

end FleetPosture.X509
