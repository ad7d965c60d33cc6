import FleetPosture.Cli.Options
import FleetPosture.Report.Render
import FleetPosture.Text.Numeral

/-!
The commands and the options that each of them takes. Options that all take may stand before or
after the command's name; the one after it counts.
-/

namespace FleetPosture.Cli

open Report (Format)

structure ScanArguments where
  target : Option String
  targetsFile : Option String
  deployment : Option String
  user : Option String
  identityFile : Option String
  sshPort : Option UInt16
  useSudo : Bool
  network : Option String
deriving DecidableEq, Repr

inductive Command
  | version
  | scan (a : ScanArguments)
  | report (format : Format)
  | manifest
  | audit (manifest : String) (format : Format)
  | inventory (format : Format)
deriving DecidableEq, Repr

structure Invocation where
  config : Option String
  database : Option String
  logLevel : Option String
  command : Command
deriving DecidableEq, Repr

def anyText : OptionKind := .value fun _ => true
def path : OptionKind := .value fun v => !v.isEmpty

def formats : List (String × Format) := [("table", .table), ("csv", .csv), ("json", .json)]

def format : OptionKind := .value fun v => (formats.lookup v).isSome

def port : OptionKind := .value fun v => (Text.uint16? v.toList).isSome

def commonOptions : List (String × OptionKind) :=
  [("config", path), ("database", path), ("log-level", anyText)]

def topGrammar : Grammar := ⟨commonOptions, 0, true⟩

def grammarOf? (name : String) : Option Grammar :=
  let withOptions (options : List (String × OptionKind)) (maxArguments : Nat) : Option Grammar :=
    some ⟨options ++ commonOptions, maxArguments, false⟩
  match name with
  | "version" => withOptions [] 0
  | "scan" => withOptions [("targets", path), ("deployment", anyText), ("user", anyText),
      ("identity-file", path), ("ssh-port", port), ("sudo", .flag), ("network", anyText)] 1
  | "report" => withOptions [("format", format)] 0
  | "manifest" => withOptions [] 0
  | "audit" => withOptions [("manifest", path), ("format", format)] 0
  | "show" => withOptions [("format", format)] 0
  | _ => none

def formatOf (m : Matches) : Format := ((m.get? "format").bind fun f => formats.lookup f).getD .table

def scanArguments (m : Matches) : Except Stop ScanArguments :=
  let target := m.arguments.head?
  let targetsFile := m.get? "targets"
  let deployment := m.get? "deployment"
  if [target, targetsFile, deployment].countP Option.isSome ≤ 1 then
    .ok ⟨target, targetsFile, deployment, m.get? "user", m.get? "identity-file",
      (m.get? "ssh-port").bind fun v => Text.uint16? v.toList, m.has "sudo", m.get? "network"⟩
  else .error .usage

def commandOf (name : String) (m : Matches) : Except Stop Command :=
  match name with
  | "version" => .ok .version
  | "scan" => (scanArguments m).map .scan
  | "report" => .ok (.report (formatOf m))
  | "manifest" => .ok .manifest
  | "audit" =>
    match m.get? "manifest" with
    | some file => .ok (.audit file (formatOf m))
    | none => .error .usage
  | "show" => .ok (.inventory (formatOf m))
  | _ => .error .usage

def helpStop : List String → Stop
  | [] => .help
  | [name] => if name = "help" ∨ (grammarOf? name).isSome then .help else .usage
  | _ => .usage

def Invocation.parse (arguments : List String) : Except Stop Invocation := do
  let (top, rest) ← topGrammar.read true arguments none .empty
  match rest with
  | [] => throw .usage
  | "help" :: rest => throw (helpStop rest)
  | name :: rest =>
    match grammarOf? name with
    | none => throw .usage
    | some s =>
      let (m, _) ← s.read false rest none .empty
      let option? (name : String) : Option String := (m.get? name).or (top.get? name)
      return ⟨option? "config", option? "database", option? "log-level", ← commandOf name m⟩

end FleetPosture.Cli
