import FleetPosture.FileListing
import FleetPosture.Inventory.Command
import FleetPosture.Net.Connect
import FleetPosture.ProcessTable
import FleetPosture.Program
import FleetPosture.Remote.Ssh
import FleetPosture.Socket.Lsof
import FleetPosture.Socket.Netstat

/-!
The inventory of one host: its processes with their ports, its files and its SSH host keys. Every
step has to succeed, but a tool that only says it found nothing, or not all, has succeeded.
-/

namespace FleetPosture.Inventory

open Remote (CommandOutput)

inductive Request
  | run (command : String)
  | resolve (host : String)
  | scanKeys (endpoint : Net.Endpoint)

abbrev Answer : Request → Type
  | .run _ => Except Failure CommandOutput
  | .resolve _ => Except Failure (List Net.Address)
  | .scanKeys _ => Except Failure (List HostKey)

abbrev Steps := ExceptT Failure (Program Answer)

def during {α : Type} (activity : String) (answer : Program Answer (Except Failure α)) : Steps α :=
  .mk ((·.mapError (.during activity)) <$> answer)

def run (activity command : String) : Steps CommandOutput :=
  during activity (.request (Request.run command))

def notFound : Int := 127

def isBlank (s : String) : Bool := (Text.trim s.toList).isEmpty

/-- Besides success, exit code 1 with nothing to say means that there are no sockets. -/
def lsofWorked (o : CommandOutput) : Bool := o.isSuccess || (o.exitCode == 1 && isBlank o.stderr)

def netstatWorked (o : CommandOutput) : Bool :=
  o.exitCode != notFound && (o.isSuccess || !isBlank o.stdout)

def sockets : Steps (List Socket.Entry) := do
  let l ← run "listing sockets" lsof
  if lsofWorked l then return (Socket.Lsof.read l.stdout).entries
  let n ← run "listing sockets with netstat" netstat
  if netstatWorked n then return (Socket.Netstat.read n.stdout).entries
  throw (.of ("neither lsof nor netstat usable: " ++ Text.trimmed n.stderr))

def attachPorts (es : List Socket.Entry) : List UInt32 → List HostProcess → List HostProcess
  | _, [] => []
  | seen, p :: ps =>
    if p.pid ∈ seen then p :: attachPorts es seen ps
    else { p with ports := Socket.portsOf p.pid es } :: attachPorts es (p.pid :: seen) ps

def processes : Steps (List HostProcess) := do
  let table ← run "listing processes" processTable
  if !table.isSuccess then
    throw (.of ("process listing exited with " ++ toString table.exitCode ++ ": " ++
      Text.trimmed table.stderr))
  let es ← sockets
  return attachPorts es [] (ProcessTable.read table.stdout)

def files (extraExclusions : List String) : Steps (List FileEntry) := do
  let found ← run "listing files" (findFiles extraExclusions)
  return FileListing.read found.stdout

def resolve (host : String) : Steps Net.Address := do
  match ← during ("resolving " ++ host) (.request (Request.resolve (Port.bareAddress host))) with
  | [] => throw (Failure.of ("no address for " ++ host))
  | address :: _ => return address

def hostKeys (host : String) (port : UInt16) : Steps (List HostKey) := do
  let address ← resolve host
  during "collecting ssh host keys" (.request (Request.scanKeys ⟨address, port⟩))

def collect (extraExclusions : List String) (name address keyHost : String) (keyPort : UInt16) :
    Steps Host := do
  let ps ← processes
  let fs ← files extraExclusions
  let keys ← hostKeys keyHost keyPort
  return ⟨name, address, ps, fs, keys⟩

end FleetPosture.Inventory
