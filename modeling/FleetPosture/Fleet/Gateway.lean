import FleetPosture.Fleet.Target
import FleetPosture.Program
import FleetPosture.Remote.Ssh

/-!
Hosts behind a gateway. One ssh connection to the gateway stays up while the hosts are scanned; each
port that is dialled gets a forward of its own on that connection, from a port of the loopback
address, until the port is released. The programs here run side by side, so they reach what they
share, the connection and the open forwards, through requests.
-/

namespace FleetPosture.Fleet

open Remote (Launch SshOptions)

structure Forward where
  localPort : UInt16
  address : String
  port : UInt16
deriving DecidableEq, Repr

def loopback : String := "127.0.0.1"

/-- The forward as ssh reads it: an address with colons stands in brackets. -/
def Forward.spec (f : Forward) : String :=
  let address := if f.address.toList.contains ':' then "[" ++ f.address ++ "]" else f.address
  loopback ++ ":" ++ toString f.localPort.toNat ++ ":" ++ address ++ ":" ++ toString f.port.toNat

structure Gateway where
  host : String
  user : String
  identityFile : Option String
  control : String
deriving DecidableEq, Repr

namespace Gateway

inductive Request
  | launch (arguments : List String)
  | reservePort
  | control
  | establish (control : String)
  | takeControl
  | keep (f : Forward)
  | take (localPort : UInt16)

abbrev Answer : Request → Type
  | .launch _ => Launch
  | .reservePort => Except Failure UInt16
  | .control => Option String
  | .establish _ => Unit
  | .takeControl => Option String
  | .keep _ => Unit
  | .take _ => Option Forward

abbrev Steps := Program Answer

structure State where
  control : Option String
  forwards : List Forward
deriving DecidableEq, Repr

namespace State

def start : State := ⟨none, []⟩

def keep (s : State) (f : Forward) : State :=
  { s with forwards := f :: s.forwards.filter (·.localPort != f.localPort) }

def find? (s : State) (localPort : UInt16) : Option Forward :=
  s.forwards.find? (·.localPort == localPort)

def remove (s : State) (localPort : UInt16) : State :=
  { s with forwards := s.forwards.filter (·.localPort != localPort) }

end State

def handle {m : Type → Type} [Monad m] (launch : List String → m Launch)
    (reserve : m (Except Failure UInt16)) : (r : Request) → StateT State m (Answer r)
  | .launch arguments => launch arguments
  | .reservePort => reserve
  | .control => return (← get).control
  | .establish control => modify ({ · with control := some control })
  | .takeControl => do
    let s ← get
    set { s with control := none }
    return s.control
  | .keep f => modify (·.keep f)
  | .take localPort => do
    let s ← get
    set (s.remove localPort)
    return s.find? localPort

def connectionArguments (g : Gateway) (control : String) : List String :=
  ["-S", control, "-l", g.user] ++
    (match g.identityFile with
      | some file => ["-i", file]
      | none => []) ++
    [g.host]

def setUpArguments (g : Gateway) : List String :=
  ["-M", "-f", "-N", "-o", "BatchMode=yes", "-o", "StrictHostKeyChecking=no", "-o",
    "ControlPersist=yes"] ++ g.connectionArguments g.control

inductive Operation
  | forward
  | cancel
deriving DecidableEq, Repr

def Operation.name : Operation → String
  | forward => "forward"
  | cancel => "cancel"

def forwardArguments (g : Gateway) (control : String) (op : Operation) (f : Forward) : List String :=
  ["-O", op.name, "-L", f.spec] ++ g.connectionArguments control

def cleanUpArguments (g : Gateway) (control : String) : List String :=
  ["-O", "exit"] ++ g.connectionArguments control

def setUp (g : Gateway) : Steps (Except Failure Unit) := do
  match ← Program.request (A := Answer) (.launch g.setUpArguments) with
  | .missing => return .error ((Failure.of Launch.missingMessage).during "starting gateway ssh")
  | .finished r =>
    if r.status.isSuccess then
      Program.request (A := Answer) (.establish g.control)
      return .ok ()
    else
      return .error (.of ("gateway connection to " ++ g.host ++ " failed with " ++ r.status.text))

def changeForward (g : Gateway) (control : String) (op : Operation) (f : Forward) :
    Steps (Except Failure Unit) := do
  match ← Program.request (A := Answer) (.launch (g.forwardArguments control op f)) with
  | .missing =>
    return .error ((Failure.of Launch.missingMessage).during ("running ssh -O " ++ op.name))
  | .finished r =>
    if r.status.isSuccess then return .ok ()
    else
      return .error (.of ("ssh -O " ++ op.name ++ " " ++ f.spec ++ " via " ++ g.host ++ ": " ++
        Text.trimmed (Text.utf8Lossy r.stderr)))

def endpoint (g : Gateway) (address : String) (port : UInt16) : Steps (Except Failure Endpoint) := do
  match ← Program.request (A := Answer) .control with
  | none => return .error (.of ("gateway connection to " ++ g.host ++ " is not established"))
  | some control =>
    match ← Program.request (A := Answer) .reservePort with
    | .error e => return .error (e.during "reserving a local port")
    | .ok localPort =>
      let f : Forward := ⟨localPort, address, port⟩
      match ← g.changeForward control .forward f with
      | .error e => return .error e
      | .ok () =>
        Program.request (A := Answer) (.keep f)
        return .ok ⟨loopback, localPort⟩

def release (g : Gateway) (e : Endpoint) : Steps Unit := do
  let f ← Program.request (A := Answer) (.take e.port)
  let control ← Program.request (A := Answer) .control
  match f, control with
  | some f, some control =>
    let _ ← g.changeForward control .cancel f
    return ()
  | _, _ => return ()

def cleanUp (g : Gateway) : Steps Unit := do
  match ← Program.request (A := Answer) .takeControl with
  | none => return ()
  | some control =>
    let _ ← Program.request (A := Answer) (.launch (g.cleanUpArguments control))
    return ()

def sshOptions (g : Gateway) (control : Option String) (o : SshOptions) : SshOptions :=
  match control with
  | none => o
  | some control =>
    { o with proxyCommand := some ("ssh -S " ++ control ++ " -W %h:%p " ++ g.host) }

end Gateway
end FleetPosture.Fleet
