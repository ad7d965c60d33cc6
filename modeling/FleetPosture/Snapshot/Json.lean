import FleetPosture.Json.Parser
import FleetPosture.Json.Printer
import FleetPosture.Snapshot.Basic

/-!
Snapshots as JSON. An optional field is left out when it is empty; a record may also be read from
the array of its fields' values in order.
-/

namespace FleetPosture

open Json

namespace Json

def uint16? (v : Json) : Option UInt16 := (v.natural? Text.maxU16).map UInt16.ofNat

def uint32? (v : Json) : Option UInt32 := (v.natural? Text.maxU32).map UInt32.ofNat

def texts? : Json → Option (List String) := list? text?

def ofTexts (xs : List String) : Json := .array (xs.map .string)

def optionalField (name : String) : Option Json → List (String × Json)
  | some v => [(name, v)]
  | none => []

end Json

namespace Transport

def ofJson? : Json → Option Transport := choice? names

def toJson (t : Transport) : Json := .string t.name

end Transport

namespace AcceptedCipher

def ofJson? (v : Json) : Option AcceptedCipher := do
  match ← v.record? ["name", "quality"] with
  | [name, quality] =>
    some ⟨← required? text? name, ← required? (choice? CipherQuality.names) quality⟩
  | _ => none

def toJson (c : AcceptedCipher) : Json :=
  .object [("name", .string c.name), ("quality", .string c.quality.name)]

end AcceptedCipher

namespace Timestamp

def ofJson? (v : Json) : Option Timestamp := v.text?.bind parse?

def toJson? (t : Timestamp) : Option Json := t.text?.map .string

end Timestamp

namespace Subject

def ofJson? (v : Json) : Option Subject := do
  match ← v.record? ["country", "province", "locality", "organization", "common_name"] with
  | [country, province, locality, organization, commonName] =>
    some ⟨← required? text? country, ← required? text? province, ← required? text? locality,
      ← required? text? organization, ← required? text? commonName⟩
  | _ => none

def toJson (s : Subject) : Json :=
  .object [("country", .string s.country), ("province", .string s.province),
    ("locality", .string s.locality), ("organization", .string s.organization),
    ("common_name", .string s.commonName)]

end Subject

namespace Certificate

def ofJson? (v : Json) : Option Certificate := do
  match ← v.record? ["bits", "expiration", "subject"] with
  | [bits, expiration, subject] =>
    some ⟨← required? uint32? bits, ← required? Timestamp.ofJson? expiration,
      ← required? Subject.ofJson? subject⟩
  | _ => none

def toJson? (c : Certificate) : Option Json := do
  some (.object [("bits", .integer c.bits.toNat), ("expiration", ← c.expiration.toJson?),
    ("subject", c.subject.toJson)])

end Certificate

namespace CipherTable

def ofJson? : Json → Option CipherTable
  | .object fields =>
    (fields.mapM fun (f : String × Json) =>
      (list? AcceptedCipher.ofJson? f.2).map fun ciphers => (f.1, ciphers)).map SortedMap.ofList
  | _ => none

def toJson (t : CipherTable) : Json :=
  .object (t.entries.map fun e => (e.1, .array (e.2.map AcceptedCipher.toJson)))

end CipherTable

namespace TlsInfo

def ofJson? (v : Json) : Option TlsInfo := do
  match ← v.record? ["presence", "certificate", "ciphers", "mutual", "scan_error"] with
  | [presence, certificate, ciphers, clientCertificate, scanError] =>
    some ⟨← required? bool? presence, ← optional? Certificate.ofJson? certificate,
      ← defaulted? CipherTable.ofJson? .empty ciphers, ← defaulted? bool? false clientCertificate,
      ← optional? text? scanError⟩
  | _ => none

def toJson? (t : TlsInfo) : Option Json := do
  let certificate ← t.certificate.mapM Certificate.toJson?
  some (.object ([("presence", .bool t.presence)] ++ optionalField "certificate" certificate ++
    [("ciphers", t.ciphers.toJson), ("mutual", .bool t.clientCertificate)] ++
    optionalField "scan_error" (t.scanError.map .string)))

end TlsInfo

namespace Port

def ofJson? (v : Json) : Option Port := do
  match ← v.record? ["protocol", "address", "number", "state", "tls"] with
  | [protocol, address, number, state, tls] =>
    some ⟨← required? Transport.ofJson? protocol, ← required? text? address,
      ← required? uint16? number, ← required? text? state, ← optional? TlsInfo.ofJson? tls⟩
  | _ => none

def toJson? (p : Port) : Option Json := do
  let tls ← p.tls.mapM TlsInfo.toJson?
  some (.object ([("protocol", p.protocol.toJson), ("address", .string p.address),
    ("number", .integer p.number.toNat), ("state", .string p.state)] ++ optionalField "tls" tls))

end Port

namespace HostProcess

def ofJson? (v : Json) : Option HostProcess := do
  match ← v.record? ["command_name", "pid", "user", "cmdline", "env", "ports"] with
  | [commandName, pid, user, cmdline, env, ports] =>
    some ⟨← required? text? commandName, ← required? uint32? pid, ← required? text? user,
      ← required? texts? cmdline, ← required? texts? env, ← required? (list? Port.ofJson?) ports⟩
  | _ => none

def toJson? (p : HostProcess) : Option Json := do
  some (.object [("command_name", .string p.commandName), ("pid", .integer p.pid.toNat),
    ("user", .string p.user), ("cmdline", ofTexts p.cmdline), ("env", ofTexts p.env),
    ("ports", .array (← p.ports.mapM Port.toJson?))])

end HostProcess

namespace FileEntry

def ofJson? (v : Json) : Option FileEntry := do
  match ← v.record? ["path", "permissions"] with
  | [path, permissions] => some ⟨← required? text? path, ← required? uint32? permissions⟩
  | _ => none

def toJson (f : FileEntry) : Json :=
  .object [("path", .string f.path), ("permissions", .integer f.permissions.toNat)]

end FileEntry

namespace HostKey

def ofJson? (v : Json) : Option HostKey := do
  match ← v.record? ["key_type", "key"] with
  | [keyType, key] => some ⟨← required? text? keyType, ← required? text? key⟩
  | _ => none

def toJson (k : HostKey) : Json := .object [("key_type", .string k.keyType), ("key", .string k.key)]

end HostKey

namespace Host

def ofJson? (v : Json) : Option Host := do
  match ← v.record? ["name", "address", "processes", "files", "ssh_keys"] with
  | [name, address, processes, files, sshKeys] =>
    some ⟨← required? text? name, ← required? text? address,
      ← required? (list? HostProcess.ofJson?) processes, ← required? (list? FileEntry.ofJson?) files,
      ← required? (list? HostKey.ofJson?) sshKeys⟩
  | _ => none

def toJson? (h : Host) : Option Json := do
  some (.object [("name", .string h.name), ("address", .string h.address),
    ("processes", .array (← h.processes.mapM HostProcess.toJson?)),
    ("files", .array (h.files.map FileEntry.toJson)),
    ("ssh_keys", .array (h.sshKeys.map HostKey.toJson))])

end Host

namespace Snapshot

def ofJson? (v : Json) : Option Snapshot := do
  match ← v.record? ["id", "created_at", "hosts"] with
  | [id, createdAt, hosts] =>
    some ⟨← required? (fun v => v.text?.bind Uuid.parse?) id,
      ← required? Timestamp.ofJson? createdAt, ← required? (list? Host.ofJson?) hosts⟩
  | _ => none

/-- There is no JSON for a snapshot with a time whose offset is a day or more. -/
def toJson? (s : Snapshot) : Option Json := do
  some (.object [("id", .string s.id.text), ("created_at", ← s.createdAt.toJson?),
    ("hosts", .array (← s.hosts.mapM Host.toJson?))])

def decode? (text : String) : Option Snapshot := (Json.parse? text).bind ofJson?

def encode? (s : Snapshot) : Option String := s.toJson?.map Json.compact

end Snapshot
end FleetPosture
