import FleetPosture.Report.Policy
import FleetPosture.Text.Pieces
import FleetPosture.Yaml.Decode

/-!
The configuration file: where snapshots are kept, how hosts are reached, which TLS settings are
approved, where the fleet is listed and what is logged. Every section and field may be left out.
-/

namespace FleetPosture

open Yaml

structure ScanSettings where
  user : Option String
  identityFile : Option String
  sshPort : Option UInt16
  useSudo : Bool
  commandTimeoutSecs : Option Nat
  connectTimeoutMs : Option Nat
  handshakeTimeoutMs : Option Nat
  preferredNetwork : Option String
  excludePaths : List String
deriving DecidableEq, Repr

structure DirectorySettings where
  url : String
  deployment : String
  username : Option String
  password : Option String
  timeoutSecs : Option Nat
  gatewayHost : Option String
  gatewayUser : Option String
  gatewayIdentityFile : Option String
deriving DecidableEq, Repr

inductive LogFormat
  | pretty
  | json
  | compact
deriving DecidableEq, Repr

namespace LogFormat

def name : LogFormat → String
  | pretty => "pretty"
  | json => "json"
  | compact => "compact"

def names : List (String × LogFormat) := [pretty, json, compact].map fun f => (f.name, f)

end LogFormat

structure LogSettings where
  level : String
  format : LogFormat
  withTarget : Bool
deriving DecidableEq, Repr

structure Config where
  database : Option String
  scan : ScanSettings
  tls : TlsPolicy
  directory : Option DirectorySettings
  logging : LogSettings
deriving DecidableEq

namespace ScanSettings

def standard : ScanSettings := ⟨none, none, none, false, none, none, none, none, []⟩

def ofYaml? (p : Place) : Option ScanSettings := do
  match ← p.record? ["user", "identity_file", "ssh_port", "use_sudo", "command_timeout_secs",
      "connect_timeout_ms", "handshake_timeout_ms", "preferred_network", "exclude_paths"] with
  | [user, identityFile, sshPort, useSudo, command, connect, handshake, network, exclude] =>
    let port ← Place.optional? (Place.natural? Text.maxU16) sshPort
    some ⟨← Place.optional? Place.text? user, ← Place.optional? Place.text? identityFile,
      port.map UInt16.ofNat, ← Place.defaulted? Place.bool? false useSudo,
      ← Place.optional? (Place.natural? Text.maxU64) command,
      ← Place.optional? (Place.natural? Text.maxU64) connect,
      ← Place.optional? (Place.natural? Text.maxU64) handshake,
      ← Place.optional? Place.text? network,
      ← Place.defaulted? (Place.list? Place.text?) [] exclude⟩
  | _ => none

end ScanSettings

def DirectorySettings.ofYaml? (p : Place) : Option DirectorySettings := do
  match ← p.record? ["url", "deployment", "username", "password", "timeout_secs", "gateway_host",
      "gateway_user", "gateway_identity_file"] with
  | [url, deployment, username, password, timeout, host, user, identity] =>
    some ⟨← Place.defaulted? Place.text? "" url, ← Place.defaulted? Place.text? "" deployment,
      ← Place.optional? Place.text? username, ← Place.optional? Place.text? password,
      ← Place.optional? (Place.natural? Text.maxU64) timeout, ← Place.optional? Place.text? host,
      ← Place.optional? Place.text? user, ← Place.optional? Place.text? identity⟩
  | _ => none

def TlsPolicy.ofYaml? (p : Place) : Option TlsPolicy := do
  let set? (p : Place) : Option SortedSet := (p.list? Place.text?).map SortedSet.ofTexts
  match ← p.record? ["approved_protocols", "approved_ciphers"] with
  | [protocols, ciphers] =>
    some ⟨← Place.defaulted? set? TlsPolicy.standard.approvedProtocols protocols,
      ← Place.optional? set? ciphers⟩
  | _ => none

namespace LogSettings

def standard : LogSettings := ⟨"info", .compact, false⟩

def ofYaml? (p : Place) : Option LogSettings := do
  match ← p.record? ["level", "format", "with_target"] with
  | [level, format, withTarget] =>
    some ⟨← Place.defaulted? Place.text? standard.level level,
      ← Place.defaulted? (Place.choice? LogFormat.names) standard.format format,
      ← Place.defaulted? Place.bool? standard.withTarget withTarget⟩
  | _ => none

end LogSettings

namespace Config

def standard : Config := ⟨none, .standard, .standard, none, .standard⟩

def ofPlace? (p : Place) : Option Config := do
  match ← p.record? ["database", "scan", "tls", "directory", "logging"] with
  | [database, scan, tls, directory, logging] =>
    some ⟨← Place.optional? Place.text? database,
      ← Place.defaulted? ScanSettings.ofYaml? .standard scan,
      ← Place.defaulted? TlsPolicy.ofYaml? .standard tls,
      ← Place.optional? DirectorySettings.ofYaml? directory,
      ← Place.defaulted? LogSettings.ofYaml? .standard logging⟩
  | _ => none

/-- The configuration that a YAML text describes; a blank text leaves everything at its default. -/
def ofYaml? (text : String) : Option Config :=
  if (Text.trim text.toList).isEmpty then some standard
  else (document? text).bind ofPlace?

end Config
end FleetPosture
