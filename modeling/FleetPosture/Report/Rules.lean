import FleetPosture.Collections
import FleetPosture.Report.Policy
import FleetPosture.Report.Render

/-!
The rules that a snapshot is checked against, each a report with a row for every violation:
privileged processes that listen beyond the host, TLS settings that the policy does not approve,
files that everyone may read, and SSH host keys that hosts share.
-/

namespace FleetPosture.Report

structure Listener where
  identity : String
  number : UInt16
  command : String
deriving DecidableEq

def Listener.cells (l : Listener) : List String := [l.identity, toString l.number.toNat, l.command]

def listeningPorts (h : Host) : List (HostProcess × Port) :=
  h.processes.flatMap fun p => p.listeningPorts.map (p, ·)

def rootListeners (s : Snapshot) : List Listener :=
  keepFirst id <| s.hosts.flatMap fun h =>
    ((listeningPorts h).filter fun (p, port) => p.isPrivileged && !port.isLoopback).map
      fun (p, port) => ⟨h.identity, port.number, p.commandName⟩

def rootProcesses (s : Snapshot) : Report where
  title := "Externally-accessible processes running as root:"
  header := ["Identity", "Port", "Process Name"]
  rows := (rootListeners s).map Listener.cells
  note := none

/-- The listening ports on which TLS was found; of those that reports cannot tell apart, the
first. -/
def tlsListeners (s : Snapshot) : List (Listener × TlsInfo) :=
  keepFirst (·.1) <| s.hosts.flatMap fun h =>
    (listeningPorts h).filterMap fun (p, port) =>
      (port.tls.filter TlsInfo.presence).map fun tls =>
        (⟨h.identity, port.number, p.commandName⟩, tls)

/-- The protocol and cipher columns for one version: a row for each cipher that is not approved,
with the version beside it if that is not approved either, and a row for such a version alone if
all its ciphers are approved. -/
def versionCells (policy : TlsPolicy) (label : String) (ciphers : List AcceptedCipher) :
    List (String × String) :=
  let flagged := ciphers.filter fun c => !policy.approvesCipher c
  if policy.approvesProtocol label then flagged.map fun c => ("", c.name)
  else if flagged.isEmpty then [(label, "")]
  else flagged.map fun c => (label, c.name)

def tlsNote : String :=
  "If this is not an internal endpoint then please check with your PM and the security team " ++
    "before applying this change. This change is not backwards compatible."

def tlsViolations (policy : TlsPolicy) (s : Snapshot) : Report where
  title := "Processes using non-approved SSL/TLS settings:"
  header :=
    ["Identity", "Port", "Process Name", "Non-approved Protocol(s)", "Non-approved Cipher(s)"]
  rows := (tlsListeners s).flatMap fun (l, tls) =>
    tls.ciphers.entries.flatMap fun (label, ciphers) =>
      (versionCells policy label ciphers).map fun (protocol, cipher) =>
        l.cells ++ [protocol, cipher]
  note := some tlsNote

def worldReadableFiles (s : Snapshot) : Report where
  title := "World-readable files:"
  header := ["Identity", "Path"]
  rows := s.hosts.flatMap fun h =>
    (h.files.filter FileEntry.isWorldReadable).map fun f => [h.identity, f.path]
  note := none

def keyHolders (s : Snapshot) : SortedMap (List String) :=
  let offers := s.hosts.flatMap fun h => h.sshKeys.map fun k => (k.key, h.identity)
  offers.foldl
    (fun m offer => m.alter offer.1 fun ids =>
      let ids := ids.getD []
      if offer.2 ∈ ids then ids else ids ++ [offer.2])
    .empty

def duplicateSshKeys (s : Snapshot) : Report where
  title := "Duplicate SSH keys:"
  header := ["Identity"]
  rows := (keyHolders s).entries.flatMap fun (_, ids) =>
    if 1 < ids.length then ids.map fun id => [id] else []
  note := none

def all (policy : TlsPolicy) (s : Snapshot) : List Report :=
  [rootProcesses s, tlsViolations policy s, worldReadableFiles s, duplicateSshKeys s]

end FleetPosture.Report
