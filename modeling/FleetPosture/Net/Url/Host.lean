import FleetPosture.Net.Address
import FleetPosture.Net.Url.Percent
import FleetPosture.Net.Url.Punycode

/-!
The host of a URL: an address of version 6 in brackets, an address of version 4 in any of the forms
that count as one, or a name. Schemes without rules of their own take any name.
-/

namespace FleetPosture.Net.Url

inductive Fault
  | noScheme
  | emptyHost
  | name
  | character
  | address4
  | address6
  | port
  | noHierarchy
deriving DecidableEq, Repr

def Fault.message : Fault → String
  | noScheme => "relative URL without a base"
  | emptyHost => "empty host"
  | name => "invalid international domain name"
  | character => "invalid domain character"
  | address4 => "invalid IPv4 address"
  | address6 => "invalid IPv6 address"
  | port => "invalid port number"
  | noHierarchy => "relative URL with a cannot-be-a-base base"

/-- A part of an address of version 4, which may be hexadecimal or octal. -/
def number4? (s : List Char) : Option Nat :=
  match s with
  | [] => none
  | '0' :: 'x' :: r => if r.isEmpty then some 0 else Text.digits? 16 r
  | '0' :: 'X' :: r => if r.isEmpty then some 0 else Text.digits? 16 r
  | '0' :: c :: r => Text.digits? 8 (c :: r)
  | r => Text.digits? 10 r

def dotted (name : List Char) : List (List Char) :=
  let parts := Text.pieces (· == '.') name
  if 1 < parts.length ∧ parts.getLast? = some [] then parts.dropLast else parts

def endsInNumber (name : List Char) : Bool :=
  match (dotted name).getLast? with
  | some part => !part.isEmpty && (part.all Char.isDigit || (number4? part).isSome)
  | none => false

/-- An address of one to four numbers, of which the last one fills all remaining octets. -/
def address4? (name : List Char) : Option Address := do
  let numbers ← (dotted name).mapM number4?
  let last ← numbers.getLast?
  let octets := numbers.dropLast
  if 3 < octets.length ∨ octets.any (255 < ·) ∨ Nat.pow 256 (4 - octets.length) ≤ last then none
  else
    some (.v4 (BitVec.ofNat 32
      (Address.ofPlaces 256 octets * Nat.pow 256 (4 - octets.length) + last)))

def address6? (s : List Char) : Option Address :=
  (Address.ofText6? Address.strict s).map .v6

def addressText : Address → String
  | .v4 v => Address.octetsText v.toNat
  | .v6 v => "[" ++ Address.compressed (Address.groupsOf v) ++ "]"

def isForbiddenInDomain (c : Char) : Bool :=
  c.toNat ≤ 0x20 || c.toNat == 0x7f ||
    ['%', '#', '/', ':', '<', '>', '?', '@', '[', '\\', ']', '^', '|'].contains c

def readDomain (s : List Char) : Except Fault (List Char) :=
  match (Text.utf8Decode (percentDecoded s)).toOption with
  | none => .error .name
  | some name =>
    let labels := (Text.pieces (· == '.') (name.toList.map Char.toLower)).map Punycode.label
    let domain := List.intercalate ['.'] labels
    if domain.isEmpty then .error .emptyHost
    else if domain.any isForbiddenInDomain then .error .name
    else .ok domain

/-- The text of an address in brackets; `none` if the host does not begin with one. -/
def bracketed? : List Char → Option (Except Fault String)
  | '[' :: r =>
    match if r.getLast? = some ']' then address6? r.dropLast else none with
    | some address => some (.ok (addressText address))
    | none => some (.error .address6)
  | _ => none

def readHost (s : List Char) : Except Fault String :=
  match bracketed? s with
  | some address => address
  | none => do
    let name ← readDomain s
    if endsInNumber name then
      match address4? name with
      | some address => .ok (addressText address)
      | none => .error .address4
    else .ok (String.ofList name)

def isForbiddenInHost (c : Char) : Bool :=
  ['\x00', '\t', '\n', '\r', ' ', '#', '/', ':', '<', '>', '?', '@', '[', '\\', ']', '^',
    '|'].contains c

def readAnyHost (s : List Char) : Except Fault String :=
  match bracketed? s with
  | some address => address
  | none =>
    if s.any isForbiddenInHost then .error .character
    else .ok (String.ofList (percentEncoded isControl s))

end FleetPosture.Net.Url
