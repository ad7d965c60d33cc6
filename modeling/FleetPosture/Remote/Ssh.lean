import FleetPosture.Failure
import FleetPosture.Remote.Launch

/-!
Commands on a host, each run by an ssh client of its own. The arguments name the host after all
options and the command after the host. Exit status 255 is the client's own failure; any other is
the command's.
-/

namespace FleetPosture.Remote

structure SshOptions where
  user : String
  identityFile : Option String
  port : UInt16
  connectTimeoutMs : Nat
  commandTimeoutMs : Nat
  useSudo : Bool
  proxyCommand : Option String
deriving DecidableEq, Repr

def SshOptions.standard : SshOptions := ⟨"root", none, 22, 10000, 600000, false, none⟩

/-- What a command wrote, and its exit code, which is -1 if a signal ended it. -/
structure CommandOutput where
  stdout : String
  stderr : String
  exitCode : Int
deriving DecidableEq, Repr

def CommandOutput.isSuccess (o : CommandOutput) : Bool := o.exitCode == 0

structure SshSession where
  address : String
  options : SshOptions
  isClosed : Bool
deriving DecidableEq, Repr

namespace SshSession

def new (address : String) (options : SshOptions) : SshSession := ⟨address, options, false⟩

def close (s : SshSession) : SshSession := { s with isClosed := true }

def remoteCommand (s : SshSession) (command : String) : String :=
  if s.options.useSudo then "sudo -n sh -c " ++ shellQuoted command else command

def optionArguments (o : SshOptions) : List String :=
  ["-o", "BatchMode=yes", "-o", "StrictHostKeyChecking=no", "-o", "UserKnownHostsFile=/dev/null",
    "-o", "LogLevel=ERROR", "-o", "ConnectTimeout=" ++ toString (max 1 (o.connectTimeoutMs / 1000)),
    "-p", toString o.port.toNat, "-l", o.user] ++
  (match o.identityFile with
    | some file => ["-i", file]
    | none => []) ++
  match o.proxyCommand with
    | some proxy => ["-o", "ProxyCommand=" ++ proxy]
    | none => []

def arguments (s : SshSession) (command : String) : List String :=
  optionArguments s.options ++ [s.address, s.remoteCommand command]

def ownFailure : Nat := 255

def exitCode : ExitStatus → Int
  | .code n => n
  | .signal _ => -1

def outcome (s : SshSession) : Launch → Except Failure CommandOutput
  | .missing => .error (.of Launch.missingMessage)
  | .finished r =>
    let stderr := Text.utf8Lossy r.stderr
    if s.options.commandTimeoutMs ≤ r.elapsedMs then
      .error (.of ("command on " ++ s.address ++ " timed out"))
    else if r.status = .code ownFailure then
      .error (.of ("ssh to " ++ s.address ++ " failed: " ++ Text.trimmed stderr))
    else .ok ⟨Text.utf8Lossy r.stdout, stderr, exitCode r.status⟩

def run {m : Type → Type} [Monad m] (launch : List String → m Launch) (s : SshSession)
    (command : String) : m (Except Failure CommandOutput) :=
  if s.isClosed then pure (.error (.of ("session to " ++ s.address ++ " already closed")))
  else do
    let result ← launch (s.arguments command)
    pure (s.outcome result)

end SshSession
end FleetPosture.Remote
