import FleetPosture.Manifest.Basic
import FleetPosture.Report.Render

/-!
The audit of a snapshot against a manifest: hosts without an entry, processes and ports that should
not be there or are missing, and processes that run as another user.
-/

namespace FleetPosture.Manifest

inductive Finding
  | hostNotInManifest
  | unexpectedProcess (ports : List UInt16)
  | wrongUser (actual expected : String)
  | unexpectedPort (number : UInt16)
  | missingPort (number : UInt16)
  | missingProcess
deriving DecidableEq, Repr

def Finding.text : Finding → String
  | hostNotInManifest => "host not in manifest"
  | unexpectedProcess ports =>
    "unexpected process listening on " ++ String.intercalate ", " (ports.map fun n => toString n.toNat)
  | wrongUser actual expected => "runs as " ++ actual ++ ", expected " ++ expected
  | unexpectedPort n => "unexpected port " ++ toString n.toNat
  | missingPort n => "expected port " ++ toString n.toNat ++ " not listening"
  | missingProcess => "expected process not listening"

def find? (processes : List ProcessSpec) (command : String) : Option ProcessSpec :=
  processes.find? (·.command == command)

def processFindings (expected : HostSpec) (actual : ProcessSpec) : List Finding :=
  let ignored (n : UInt16) : Bool := expected.ignoredPorts.contains n
  match find? expected.processes actual.command with
  | none => if actual.ports.all ignored then [] else [.unexpectedProcess actual.ports]
  | some want =>
    (if want.user = actual.user then [] else [.wrongUser actual.user want.user]) ++
      (actual.ports.filter fun n => !want.ports.contains n && !ignored n).map .unexpectedPort ++
      (want.ports.filter fun n => !actual.ports.contains n).map .missingPort

/-- The expected processes that do not listen, though they should on a port that is not ignored. -/
def missingProcesses (expected actual : HostSpec) : List ProcessSpec :=
  expected.processes.filter fun want =>
    !want.ports.all (expected.ignoredPorts.contains ·) &&
      (find? actual.processes want.command).isNone

def hostFindings (m : Manifest) (actual : HostSpec) : List (String × Finding) :=
  match m.specFor? actual.covered with
  | none => [("", .hostNotInManifest)]
  | some expected =>
    (actual.processes.flatMap fun p => (processFindings expected p).map (p.command, ·)) ++
      (missingProcesses expected actual).map fun want => (want.command, .missingProcess)

def audit (m : Manifest) (s : Snapshot) : Report where
  title := "Manifest audit:"
  header := ["Identity", "Process", "Finding"]
  rows := (ofSnapshot s).specs.flatMap fun host =>
    (hostFindings m host).map fun (command, f) => [host.covered, command, f.text]
  note := none

end FleetPosture.Manifest
