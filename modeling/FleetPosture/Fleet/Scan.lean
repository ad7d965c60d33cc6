import FleetPosture.Collections
import FleetPosture.Fleet.Target
import FleetPosture.Inventory.Collect

/-!
The scan of a fleet. Once the way to the hosts is set up, every listed host is scanned by a program
of its own, side by side with the others: a session for its inventory, then a probe of each TCP port
that it listens on. A host that fails is left out and the failure reported. What was set up is
cleaned up at the end, whatever happened to the hosts.
-/

namespace FleetPosture.Fleet

open Remote (CommandOutput)

/-- What a scan asks of the fleet, to which `S` are the sessions. -/
inductive Request (S : Type)
  | setUp
  | listHosts
  | openSession (target : Target) (address : String)
  | runCommand (session : S) (command : String)
  | closeSession (session : S)
  | endpoint (address : String) (port : UInt16)
  | release (e : Endpoint)
  | resolve (host : String)
  | scanKeys (endpoint : Net.Endpoint)
  | probe (e : Endpoint)
  | cleanUp

abbrev Answer {S : Type} : Request S → Type
  | .setUp => Except Failure Unit
  | .listHosts => Except Failure (List Target)
  | .openSession _ _ => Except Failure S
  | .runCommand _ _ => Except Failure CommandOutput
  | .closeSession _ => Unit
  | .endpoint _ _ => Except Failure Endpoint
  | .release _ => Unit
  | .resolve _ => Except Failure (List Net.Address)
  | .scanKeys _ => Except Failure (List HostKey)
  | .probe _ => TlsInfo
  | .cleanUp => Unit

structure ScanOptions where
  sshPort : UInt16
  extraExclusions : List String
  preferredNetwork : Option Net.Network
deriving DecidableEq, Repr

structure HostFailure where
  identity : String
  cause : Failure
deriving DecidableEq, Repr

def HostFailure.message (f : HostFailure) : String := f.identity ++ ": " ++ f.cause.full

variable {S : Type}

abbrev Steps (S : Type) := Program (Answer (S := S))

def ask (r : Request S) : Steps S (Answer r) := .request r

def inSession (session : S) : (r : Inventory.Request) → Steps S (Inventory.Answer r)
  | .run command => ask (.runCommand session command)
  | .resolve host => ask (.resolve host)
  | .scanKeys endpoint => ask (.scanKeys endpoint)

def inventory (o : ScanOptions) (target : Target) (address : String) (session : S) :
    Steps S (Except Failure Host) := do
  match ← ask (.endpoint address o.sshPort) with
  | .error e => return .error (e.during "reaching the ssh port")
  | .ok e =>
    let steps := Inventory.collect o.extraExclusions target.name address e.host e.port
    let host ← steps.run.run (inSession session)
    ask (.release e)
    return host

abbrev Probed := List (UInt16 × TlsInfo)

def probePort (address : String) (number : UInt16) : Steps S TlsInfo := do
  match ← ask (.endpoint address number) with
  | .error e => return .failed e.full
  | .ok e =>
    let tls ← ask (.probe e)
    ask (.release e)
    return tls

def annotatePort (address : String) (p : Port) : StateT Probed (Steps S) Port := do
  if !p.isListening || p.protocol != .tcp then return p
  match (← get).lookup p.number with
  | some tls => return p.withTls tls
  | none =>
    let tls ← probePort (S := S) address p.number
    modify ((p.number, tls) :: ·)
    return p.withTls tls

def annotateProcess (address : String) (p : HostProcess) :
    StateT Probed (Steps S) HostProcess := do
  return { p with ports := ← p.ports.mapM (annotatePort address) }

def annotate (h : Host) : Steps S Host := do
  let (processes, _) ← (h.processes.mapM (annotateProcess h.address)).run []
  return { h with processes := processes }

def scanAddress (o : ScanOptions) (target : Target) (address : String) :
    Steps S (Except Failure Host) := do
  match ← ask (.openSession target address) with
  | .error e => return .error e
  | .ok session =>
    let host ← inventory o target address session
    ask (.closeSession session)
    match host with
    | .error e => return .error e
    | .ok host => return .ok (← annotate host)

def scanHost (o : ScanOptions) (target : Target) : Steps S (Except HostFailure Host) :=
  match chooseAddress? o.preferredNetwork target.addresses with
  | none => return .error ⟨target.identity, .of "no address to connect to"⟩
  | some address => do
    return (← scanAddress o target address).mapError (⟨target.identity, ·⟩)

inductive ScanError
  | setUp (cause : Failure)
  | enumerate (cause : Failure)
deriving DecidableEq, Repr

def ScanError.message : ScanError → String
  | setUp cause => "scan setup failed: " ++ cause.full
  | enumerate cause => "failed to enumerate hosts: " ++ cause.full

/-- The hosts that were scanned and the failures of the others, both in the order in which their
scans ended. -/
structure Findings where
  hosts : List Host
  failures : List HostFailure

def Findings.ofResults (results : List (Except HostFailure Host)) : Findings :=
  { hosts := keepFirst (fun h => (h.name, h.address)) (results.filterMap Except.toOption)
    failures := results.filterMap fun
      | .ok _ => none
      | .error f => some f }

def distinctTargets (targets : List Target) : List Target :=
  keepFirst (fun t => (t.name, t.addresses)) targets

def scanListed {m : Type → Type} [Monad m] (handle : (r : Request S) → m (Answer r))
    (schedule : List Nat) (o : ScanOptions) : m (Except ScanError Findings) := do
  match ← handle .listHosts with
  | .error e => return .error (.enumerate e)
  | .ok targets =>
    let results ← Program.interleave handle schedule ((distinctTargets targets).map (scanHost o))
    return .ok (.ofResults results)

def scan {m : Type → Type} [Monad m] (handle : (r : Request S) → m (Answer r))
    (schedule : List Nat) (o : ScanOptions) : m (Except ScanError Findings) := do
  match ← handle .setUp with
  | .error e => return .error (.setUp e)
  | .ok () =>
    let findings ← scanListed handle schedule o
    handle .cleanUp
    return findings

end FleetPosture.Fleet
