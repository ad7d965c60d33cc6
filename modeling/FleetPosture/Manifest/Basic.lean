import FleetPosture.Snapshot.Basic

/-!
Manifests: which processes should listen on which ports, by host. An entry covers every host whose
identity begins with the entry's identity; of several that cover a host the longest counts, and of
equally long ones the last.
-/

namespace FleetPosture

structure ProcessSpec where
  command : String
  user : String
  ports : List UInt16
deriving DecidableEq, Repr

structure HostSpec where
  /-- The identity of a host, or the beginning of the identities of several. -/
  covered : String
  processes : List ProcessSpec
  ignoredPorts : List UInt16
deriving DecidableEq, Repr

structure Manifest where
  specs : List HostSpec
deriving DecidableEq, Repr

namespace HostSpec

def covers (s : HostSpec) (identity : String) : Bool :=
  s.covered.toList.isPrefixOf identity.toList

/-- The more specific of two entries, the second if they are equally long. -/
def moreSpecific (a b : HostSpec) : HostSpec :=
  if a.covered.utf8ByteSize ≤ b.covered.utf8ByteSize then b else a

end HostSpec

namespace Manifest

def portSet (ns : List UInt16) : List UInt16 := (ns.mergeSort (· ≤ ·)).eraseDups

def observedProcess? (p : HostProcess) : Option ProcessSpec :=
  let ports := portSet (p.listeningPorts.map (·.number))
  if ports.isEmpty then none else some ⟨p.commandName, p.user, ports⟩

def observedHost (h : Host) : HostSpec :=
  ⟨h.identity, h.processes.filterMap observedProcess?, []⟩

def ofSnapshot (s : Snapshot) : Manifest := ⟨s.hosts.map observedHost⟩

def specFor? (m : Manifest) (identity : String) : Option HostSpec :=
  (m.specs.filter (·.covers identity)).foldl
    (fun best s => some ((best.map (·.moreSpecific s)).getD s)) none

end Manifest
end FleetPosture
