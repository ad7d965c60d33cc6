import FleetPosture.Report.Render
import FleetPosture.Snapshot.Basic

/-!
The inventory: one row for every port of every process, with a summary of its TLS settings.
-/

namespace FleetPosture

namespace TlsInfo

def certificateText (c : Certificate) : String :=
  " (size: " ++ toString c.bits.toNat ++ ", expires: " ++ c.expiration.text?.getD "" ++
    ", subject: " ++ c.subject.text ++ ")"

def versionText (label : String) (ciphers : List AcceptedCipher) : String :=
  let list := ciphers.map fun c => c.name ++ " - " ++ c.quality.name
  " (" ++ label ++ ": [" ++ String.intercalate " " list ++ "])"

/-- The error of the probe after `?`, `✗` if there is no TLS, or `✓` and what was found. -/
def summary (t : TlsInfo) : String :=
  match t.scanError with
  | some e => "? (" ++ e ++ ")"
  | none =>
    if !t.presence then "✗"
    else
      "✓" ++
        (match t.certificate with
        | some c => certificateText c
        | none => " (no certificate information found; maybe mutual tls?)") ++
        (if t.clientCertificate then " (mutual)" else "") ++
        String.join (t.ciphers.entries.map fun (label, ciphers) => versionText label ciphers)

end TlsInfo

namespace Report

def inventoryRow (h : Host) (p : HostProcess) (port : Port) : List String :=
  [h.identity, h.address, p.commandName, toString p.pid.toNat, p.user,
    toString port.number.toNat ++ "/" ++ port.protocol.name, port.state,
    (port.tls.map TlsInfo.summary).getD ""]

def inventory (s : Snapshot) : Report where
  title := "Inventory:"
  header := ["Identity", "Address", "Process", "PID", "User", "Port", "State", "TLS"]
  rows := s.hosts.flatMap fun h => h.processes.flatMap fun p => p.ports.map (inventoryRow h p)
  note := none

end Report
end FleetPosture
