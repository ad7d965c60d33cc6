import FleetPosture.Store.Basic

/-!
Loading the snapshot that was saved last, from its rows and those that belong to them.
-/

namespace FleetPosture.Store

namespace Tables

/-- The settings in a row, without the ciphers. A certificate needs a key size and an expiration. -/
def readTls (r : TlsRow) : Except StoreError TlsInfo := do
  let presence ← decoded r.presence.bool?
  let clientCertificate ← decoded r.clientCertificate.bool?
  let scanError ← decoded (r.scanError.optional? Cell.text?)
  let bits ← decoded (r.bits.optional? (Cell.natural? Text.maxU32))
  let expiration ← decoded (r.expiration.optional? Cell.text?)
  let subject ← [r.country, r.province, r.locality, r.organization, r.commonName].mapM fun c =>
    (·.getD "") <$> decoded (c.optional? Cell.text?)
  let certificate ← match bits, expiration, subject with
    | some bits, some expiration, [country, province, locality, organization, commonName] => do
      let expiration ← decoded (Timestamp.parse? expiration)
      pure (some ⟨UInt32.ofNat bits, expiration,
        ⟨country, province, locality, organization, commonName⟩⟩)
    | _, _, _ => pure none
  return ⟨presence, certificate, .empty, clientCertificate, scanError⟩

def readCipher (r : CipherRow) : Except StoreError (String × AcceptedCipher) := do
  let version ← decoded r.version.text?
  let quality ← (CipherQuality.read (← decoded r.quality.text?)).mapError .quality
  return (version, ⟨← decoded r.name.text?, quality⟩)

def loadTls (t : Tables) (port : Int) : Except StoreError (Option TlsInfo) :=
  match t.tls.find? (·.port == port) with
  | none => .ok none
  | some r => do
    let i ← readTls r
    let ciphers ← (t.ciphers.rows.filter (·.port == port)).mapM readCipher
    return some { i with
      ciphers := ciphers.foldl
        (fun table (version, c) => table.alter version fun cs => cs.getD [] ++ [c]) .empty }

def readPort (r : PortRow) : Except StoreError (String × Port) := do
  let transport ← decoded r.transport.text?
  let address ← decoded r.address.text?
  let number ← decoded (r.number.natural? Text.maxU16)
  let state ← decoded r.state.text?
  return (transport, ⟨.tcp, address, UInt16.ofNat number, state, none⟩)

def loadPorts (t : Tables) (process : Int) : Except StoreError (List Port) := do
  let rows := t.ports.rows.filter (·.process == process)
  let read ← rows.mapM readPort
  (rows.zip read).mapM fun (row, transport, port) => do
    let protocol ← (Transport.read transport).mapError .transport
    return { port with protocol, tls := ← t.loadTls row.id }

def readTexts (json : String) : Except StoreError (List String) :=
  decoded ((Json.parse? json).bind Json.texts?)

def readProcess (r : ProcessRow) : Except StoreError (String × String × HostProcess) := do
  let commandName ← decoded r.commandName.text?
  let pid ← decoded (r.pid.natural? Text.maxU32)
  let user ← decoded r.user.text?
  let cmdline ← decoded r.cmdline.text?
  let env ← decoded r.env.text?
  return (cmdline, env, ⟨commandName, UInt32.ofNat pid, user, [], [], []⟩)

def loadProcesses (t : Tables) (host : Int) : Except StoreError (List HostProcess) := do
  let rows := t.processes.rows.filter (·.host == host)
  let read ← rows.mapM readProcess
  (rows.zip read).mapM fun (row, cmdline, env, process) => do
    return { process with
      cmdline := ← readTexts cmdline
      env := ← readTexts env
      ports := ← t.loadPorts row.id }

def readFile (r : FileRow) : Except StoreError FileEntry := do
  return ⟨← decoded r.path.text?,
    UInt32.ofNat (← decoded (r.permissions.natural? Text.maxU32))⟩

def readKey (r : KeyRow) : Except StoreError HostKey := do
  return ⟨← decoded r.keyType.text?, ← decoded r.key.text?⟩

def loadHost (t : Tables) (row : HostRow) (name address : String) : Except StoreError Host := do
  let processes ← t.loadProcesses row.id
  let files ← (t.files.rows.filter (·.host == row.id)).mapM readFile
  let keys ← (t.keys.rows.filter (·.host == row.id)).mapM readKey
  return ⟨name, address, processes, files, keys⟩

def loadHosts (t : Tables) (snapshot : Int) : Except StoreError (List Host) := do
  let rows := t.hosts.rows.filter (·.snapshot == snapshot)
  let read ← rows.mapM fun r => do return (← decoded r.name.text?, ← decoded r.address.text?)
  (rows.zip read).mapM fun (row, name, address) => t.loadHost row name address

def loadSnapshot (t : Tables) (row : SnapshotRow) : Except StoreError Snapshot := do
  let id ← decoded row.id.text?
  let createdAt ← decoded row.createdAt.text?
  match Uuid.parse? id with
  | none => throw (.malformedId row.seq)
  | some id =>
    let createdAt ← decoded (Timestamp.parse? createdAt)
    return ⟨id, createdAt, ← t.loadHosts row.seq⟩

end Tables

def latest (t : Tables) : Except StoreError Snapshot :=
  match t.snapshots.rows.getLast? with
  | none => .error .noData
  | some row => t.loadSnapshot row

end FleetPosture.Store
