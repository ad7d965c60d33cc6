import FleetPosture.Collections
import FleetPosture.Fleet.Target

/-!
Host lists: on each line an address, or a name and an address, with anything after a `#` left out.
A host that is listed again counts once.
-/

namespace FleetPosture.Fleet

structure BadLine where
  number : Nat
deriving DecidableEq, Repr

def BadLine.message (b : BadLine) : String :=
  "line " ++ toString b.number ++ ": expected `address` or `name address`"

namespace HostList

def entry? (line : List Char) : Option (List Target) :=
  match Text.words (line.takeWhile (· != '#')) with
  | [] => some []
  | [address] => some [.ofAddress (String.ofList address)]
  | [name, address] =>
    some [{ Target.ofAddress (String.ofList address) with job := String.ofList name }]
  | _ => none

def entries (n : Nat) : List (List Char) → Except BadLine (List Target)
  | [] => .ok []
  | line :: rest =>
    match entry? line with
    | none => .error ⟨n⟩
    | some ts => (entries (n + 1) rest).map (ts ++ ·)

def read (text : String) : Except BadLine (List Target) :=
  (entries 1 (Text.lines text.toList)).map (keepFirst id)

end HostList
end FleetPosture.Fleet
