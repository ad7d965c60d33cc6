import FleetPosture.Cli.Command
import FleetPosture.Config
import FleetPosture.Fleet.HostList
import FleetPosture.Fleet.Source
import FleetPosture.Manifest.Audit
import FleetPosture.Manifest.Yaml
import FleetPosture.Report.Inventory
import FleetPosture.Report.Rules
import FleetPosture.Store.Load
import FleetPosture.Store.Save

/-!
What the commands do, on a machine with files. Settings on the command line come before those of the
configuration file. A report or an audit that finds something ends with exit code 1, as any failure
does, of which the outermost message is shown.
-/

namespace FleetPosture.Cli

open Fleet (Source Target)
open Remote (SshOptions)

structure ProbeTimeouts where
  connectMs : Nat
  handshakeMs : Nat
deriving DecidableEq, Repr

inductive Request
  | fileExists (path : String)
  | readText (path : String)
  | appendText (path text : String)
  | stamp
  | controlPath
  | scan (timeouts : ProbeTimeouts) (r : Source.Request)

abbrev Answer : Request → Type
  | .fileExists _ => Bool
  | .readText _ => Except Failure String
  | .appendText _ _ => Except Failure Unit
  | .stamp => Uuid × Timestamp
  | .controlPath => String
  | .scan _ r => Source.Answer r

abbrev Steps := ExceptT Failure (Program Answer)

structure Outcome where
  stdout : String
  isClean : Bool
deriving DecidableEq, Repr

def ask (r : Request) : Steps (Answer r) := ExceptT.lift (.request r)

def readText (activity path : String) : Steps String := do
  let answer : Except Failure String ← ask (.readText path)
  ExceptT.mk (pure (answer.mapError (.during (activity ++ path))))

def standardConfigPath : String := "fleetaudit.yaml"
def standardDatabase : String := "fleetaudit.db"

def readConfig (path : String) : Steps Config := do
  match Config.ofYaml? (← readText "reading config " path) with
  | some c => return c
  | none => throw (.of ("parsing config " ++ path))

def loadConfig : Option String → Steps Config
  | some path => readConfig path
  | none => do
    if ← ask (.fileExists standardConfigPath) then readConfig standardConfigPath
    else return .standard

def openDatabase (path : String) : Steps Store.Tables := do
  if !(← ask (.fileExists path)) then return .empty
  let text : Except Failure String ← ask (.readText path)
  match text.toOption.bind Store.ofLog? with
  | some t => return t
  | none => throw (.of "file is not a database")

def latest (database : String) : Steps Snapshot := do
  if !(← ask (.fileExists database)) then
    throw (.of ("no snapshot database at " ++ database ++ "; run `fleetaudit scan` first"))
  match Store.latest (← openDatabase database) with
  | .ok s => return s
  | .error .noData =>
    throw (.of (database ++ " holds no snapshot; run `fleetaudit scan` first"))
  | .error e => throw (.of e.message)

def sshOptions (c : ScanSettings) (a : ScanArguments) : SshOptions :=
  let standard := SshOptions.standard
  { standard with
    user := (a.user.or c.user).getD standard.user
    identityFile := a.identityFile.or c.identityFile
    port := (a.sshPort.or c.sshPort).getD standard.port
    useSudo := a.useSudo || c.useSudo
    commandTimeoutMs := (c.commandTimeoutSecs.map (· * 1000)).getD standard.commandTimeoutMs }

def probeTimeouts (c : ScanSettings) : ProbeTimeouts :=
  ⟨c.connectTimeoutMs.getD 2000, c.handshakeTimeoutMs.getD 3000⟩

def preferredNetwork (c : ScanSettings) (a : ScanArguments) : Steps (Option Net.Network) :=
  match a.network.or c.preferredNetwork with
  | none => return none
  | some text =>
    match Net.Network.parse? text with
    | some n => return some n
    | none => throw (.of ("invalid network " ++ text))

def directorySource (d : DirectorySettings) (ssh : SshOptions) : Steps Source := do
  if d.url.isEmpty || d.deployment.isEmpty then
    throw (.of "fleet directory needs both `url` and `deployment`")
  let gateway ← match d.gatewayHost with
    | none => pure none
    | some host => do
      pure (some ⟨host, d.gatewayUser.getD ssh.user, d.gatewayIdentityFile.or ssh.identityFile,
        ← ask .controlPath⟩)
  let credentials := d.username.map fun user => ⟨user, d.password⟩
  return .directory ⟨d.url, d.deployment, credentials, d.timeoutSecs.getD 30⟩ gateway

def source (directory : Option DirectorySettings) (a : ScanArguments) (ssh : SshOptions) :
    Steps Source :=
  match a.target, a.targetsFile, directory, a.deployment with
  | some target, _, _, _ => return .listed [.ofAddress target]
  | none, some file, _, _ => do
    match Fleet.HostList.read (← readText "reading " file) with
    | .ok ts => return .listed ts
    | .error e => throw (.of e.message)
  | none, none, some d, some deployment => directorySource { d with deployment } ssh
  | none, none, some d, none => directorySource d ssh
  | none, none, none, some _ => throw (.of "--deployment needs a `directory` section in the config")
  | none, none, none, none =>
    throw (.of "provide a target, --targets <file>, or a fleet directory (--deployment / config)")

def save (database : String) (s : Snapshot) : Steps Unit := do
  match Store.append (← openDatabase database) s with
  | .error e => throw (.of e.message)
  | .ok (_, line) =>
    let answer : Except Failure Unit ← ask (.appendText database line)
    ExceptT.mk (pure answer)

def scan (c : Config) (database : String) (a : ScanArguments) : Steps Outcome := do
  let ssh := sshOptions c.scan a
  let preferred ← preferredNetwork c.scan a
  let source ← source c.directory a ssh
  let timeouts := probeTimeouts c.scan
  let handle (r : Fleet.Request Remote.SshSession) : Steps (Fleet.Answer r) :=
    (source.handle ssh r).run fun r => ask (.scan timeouts r)
  match ← Fleet.scan handle [] ⟨ssh.port, c.scan.excludePaths, preferred⟩ with
  | .error e => throw (.of e.message)
  | .ok findings =>
    let (id, createdAt) ← ask .stamp
    let s : Snapshot := ⟨id, createdAt, findings.hosts⟩
    save database s
    return ⟨"snapshot " ++ id.text ++ " saved with " ++ toString s.hosts.length ++ " host(s)\n", true⟩

def runCommand (c : Config) (database : String) : Command → Steps Outcome
  | .version => return ⟨"fleetaudit 0.1.0 (core 0.1.0)\n", true⟩
  | .scan a => scan c database a
  | .report f => do
    let reports := Report.all c.tls (← latest database)
    return ⟨Report.render reports f, !Report.anyRows reports⟩
  | .manifest => return ⟨(Manifest.ofSnapshot (← latest database)).toYaml, true⟩
  | .audit file f => do
    match Manifest.ofYaml (← readText "reading " file) with
    | .error e => throw (.of e.message)
    | .ok m =>
      let findings := m.audit (← latest database)
      return ⟨Report.render [findings] f, findings.isEmpty⟩
  | .inventory f => return ⟨Report.render [Report.inventory (← latest database)] f, true⟩

def run (i : Invocation) : Steps Outcome := do
  let c ← loadConfig i.config
  runCommand c ((i.database.or c.database).getD standardDatabase) i.command

structure Result where
  stdout : String
  error : Option String
  exitCode : Nat
deriving DecidableEq, Repr

/-- What there is to show when nothing is run; texts about usage are left out. -/
def Stop.result : Stop → Result
  | .usage => ⟨"", none, 2⟩
  | .help => ⟨"", none, 0⟩
  | .version => ⟨"fleetaudit 0.1.0\n", none, 0⟩

def Result.ofOutcome : Except Failure Outcome → Result
  | .ok o => ⟨o.stdout, none, if o.isClean then 0 else 1⟩
  | .error e => ⟨"", some ("Error: " ++ e.message), 1⟩

def program (arguments : List String) : Program Answer Result :=
  match Invocation.parse arguments with
  | .error stop => return stop.result
  | .ok i => return .ofOutcome (← (run i).run)

end FleetPosture.Cli
