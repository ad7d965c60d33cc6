import FleetPosture.Net.Network

/-!
What a fleet lists: hosts by their place in a deployment and the addresses under which each may be
reached.
-/

namespace FleetPosture.Fleet

structure Target where
  job : String
  index : Option UInt32
  instanceId : String
  addresses : List String
deriving DecidableEq, Repr

namespace Target

def ofAddress (address : String) : Target := ⟨"", none, "", [address]⟩

/-- The job and the index in it; without an index the identifier stands for it. A target without a
job has no name. -/
def name (t : Target) : String :=
  if t.job.isEmpty then ""
  else
    match t.index with
    | some i => t.job ++ "/" ++ toString i.toNat
    | none => if t.instanceId.isEmpty then t.job else t.job ++ "/" ++ t.instanceId

def identity (t : Target) : String :=
  if t.name.isEmpty then Text.join "," t.addresses else t.name

end Target

structure Endpoint where
  host : String
  port : UInt16
deriving DecidableEq, Repr

def isReachable (candidate : String) : Bool :=
  ((Net.Address.parse? candidate).map Net.Address.isRoutable).getD true

def isIn (n : Net.Network) (candidate : String) : Bool :=
  ((Net.Address.parse? candidate).map n.has).getD false

/-- The address to use of several: the first in the preferred network, or else the first reachable
one, or else the first. -/
def chooseAddress? (preferred : Option Net.Network) (candidates : List String) : Option String :=
  ((preferred.bind fun n => candidates.find? (isIn n)).or (candidates.find? isReachable)).or
    candidates.head?

end FleetPosture.Fleet
