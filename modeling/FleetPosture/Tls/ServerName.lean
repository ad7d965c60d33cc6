import FleetPosture.Net.Address

/-!
Names that a client may send to a server: host names of letters, digits, hyphens and underscores. A
host known by its address is not named to the server.
-/

namespace FleetPosture.Tls

def isLabelChar (c : Char) : Bool := c.isAlphanum || c == '-' || c == '_'

def isLabel (s : List Char) : Bool :=
  1 ≤ s.length && s.length ≤ 63 && s.all isLabelChar && s.head? != some '-' && s.getLast? != some '-'

/-- At most 253 characters in labels, with or without a point at the end; a name whose last label is
a number could be taken for an address. -/
def isHostName (s : String) : Bool :=
  let cs := s.toList
  let labels := Text.pieces (· == '.') (if cs.getLast? = some '.' then cs.dropLast else cs)
  cs.length ≤ 253 && labels.all isLabel && (labels.getLast?.any fun l => !l.all Char.isDigit)

def isServerName (s : String) : Bool := (Net.Address.parse? s).isSome || isHostName s

def sentName? (host : String) : Option String :=
  if (Net.Address.parse? host).isSome then none else some host

end FleetPosture.Tls
