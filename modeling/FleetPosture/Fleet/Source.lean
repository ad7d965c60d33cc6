import FleetPosture.Fleet.Directory
import FleetPosture.Fleet.Gateway
import FleetPosture.Fleet.Scan

/-!
Where the hosts of a scan come from: a list, or a directory, whose hosts may stand behind a gateway.
All of them are reached by ssh.
-/

namespace FleetPosture.Fleet

open Remote (SshOptions SshSession)

inductive Source
  | listed (targets : List Target)
  | directory (d : Directory) (gateway : Option Gateway)
deriving DecidableEq, Repr

namespace Source

def gateway? : Source → Option Gateway
  | listed _ => none
  | directory _ g => g

inductive Request
  | gateway (r : Gateway.Request)
  | fetch (r : Net.HttpRequest)
  | resolve (host : String)
  | scanKeys (endpoint : Net.Endpoint)
  | probe (e : Endpoint)

abbrev Answer : Request → Type
  | .gateway r => Gateway.Answer r
  | .fetch _ => Except Failure Net.HttpReply
  | .resolve _ => Except Failure (List Net.Address)
  | .scanKeys _ => Except Failure (List HostKey)
  | .probe _ => TlsInfo

abbrev Steps := Program Answer

def ask (r : Request) : Steps (Answer r) := .request r

def throughGateway {α : Type} (steps : Gateway.Steps α) : Steps α :=
  steps.run fun r => ask (.gateway r)

def launch (arguments : List String) : Steps Remote.Launch := ask (.gateway (.launch arguments))

def setUp (s : Source) : Steps (Except Failure Unit) :=
  match s.gateway? with
  | none => return .ok ()
  | some g => throughGateway g.setUp

def list : Source → Steps (Except Failure (List Target))
  | listed targets => return .ok targets
  | directory d _ => d.list fun r => ask (.fetch r)

def openSession (s : Source) (o : SshOptions) (address : String) : Steps SshSession :=
  match s.gateway? with
  | none => return .new address o
  | some g => return .new address (g.sshOptions (← ask (.gateway .control)) o)

def endpoint (s : Source) (address : String) (port : UInt16) : Steps (Except Failure Endpoint) :=
  match s.gateway? with
  | none => return .ok ⟨address, port⟩
  | some g => throughGateway (g.endpoint address port)

def release (s : Source) (e : Endpoint) : Steps Unit :=
  match s.gateway? with
  | none => return ()
  | some g => throughGateway (g.release e)

def cleanUp (s : Source) : Steps Unit :=
  match s.gateway? with
  | none => return ()
  | some g => throughGateway g.cleanUp

def handle (s : Source) (o : SshOptions) :
    (r : Fleet.Request SshSession) → Steps (Fleet.Answer r)
  | .setUp => s.setUp
  | .listHosts => s.list
  | .openSession _ address => return .ok (← s.openSession o address)
  | .runCommand session command => session.run launch command
  | .closeSession _ => return ()
  | .endpoint address port => s.endpoint address port
  | .release e => s.release e
  | .resolve host => ask (.resolve host)
  | .scanKeys endpoint => ask (.scanKeys endpoint)
  | .probe e => ask (.probe e)
  | .cleanUp => s.cleanUp

end Source
end FleetPosture.Fleet
