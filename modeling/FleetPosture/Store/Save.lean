import FleetPosture.Store.Basic

/-!
Saving a snapshot adds its rows to all tables, or none at all if anything fails: the snapshot, then
host by host the processes with their ports, the files and the keys. A database is kept as a file of
the saved snapshots in order, each as a line of JSON; reading it saves them all again.
-/

namespace FleetPosture.Store

/-- Steps that add rows and give up all of them at an error. -/
abbrev Write := StateT Tables (Except StoreError)

namespace Write

def add {ρ : Type} [Keyed ρ] (table : Tables → Table ρ) (replace : Tables → Table ρ → Tables)
    (row : Int → ρ) : Write Int := do
  let t ← get
  match (table t).add? row with
  | none => throw .full
  | some (k, grown) =>
    set (replace t grown)
    return k

def cipher (port : Int) (version : String) (c : AcceptedCipher) : Write Unit := do
  let _ ← add (·.ciphers) (fun t x => { t with ciphers := x }) fun k =>
    ⟨k, port, .text version, .text c.name, .text c.quality.name⟩

def tls (port : Int) (i : TlsInfo) : Write Unit := do
  let expiration ← match i.certificate with
    | none => pure Cell.null
    | some c => Cell.text <$> decoded c.expiration.text?
  let ofSubject (field : Subject → String) : Cell :=
    .ofText? (i.certificate.map fun c => field c.subject)
  modify fun t => { t with
    tls := t.tls ++ [{
      port
      presence := .ofBool i.presence
      clientCertificate := .ofBool i.clientCertificate
      scanError := .ofText? i.scanError
      bits := (i.certificate.map fun c => Cell.ofNat c.bits.toNat).getD .null
      expiration
      country := ofSubject (·.country)
      province := ofSubject (·.province)
      locality := ofSubject (·.locality)
      organization := ofSubject (·.organization)
      commonName := ofSubject (·.commonName) }] }
  i.ciphers.entries.forM fun (version, ciphers) => ciphers.forM (cipher port version)

def port (process : Int) (p : Port) : Write Unit := do
  let k ← add (·.ports) (fun t x => { t with ports := x }) fun k =>
    ⟨k, process, .text p.protocol.name, .text p.address, .ofNat p.number.toNat, .text p.state⟩
  p.tls.forM (tls k)

def textsCell (xs : List String) : Cell := .text (Json.ofTexts xs).compact

def process (host : Int) (p : HostProcess) : Write Unit := do
  let k ← add (·.processes) (fun t x => { t with processes := x }) fun k =>
    ⟨k, host, .text p.commandName, .ofNat p.pid.toNat, .text p.user, textsCell p.cmdline,
      textsCell p.env⟩
  p.ports.forM (port k)

def file (host : Int) (f : FileEntry) : Write Unit := do
  let _ ← add (·.files) (fun t x => { t with files := x }) fun k =>
    ⟨k, host, .text f.path, .ofNat f.permissions.toNat⟩

def key (host : Int) (h : HostKey) : Write Unit := do
  let _ ← add (·.keys) (fun t x => { t with keys := x }) fun k =>
    ⟨k, host, .text h.keyType, .text h.key⟩

def host (snapshot : Int) (h : Host) : Write Unit := do
  let k ← add (·.hosts) (fun t x => { t with hosts := x }) fun k =>
    ⟨k, snapshot, .text h.name, .text h.address⟩
  h.processes.forM (process k)
  h.files.forM (file k)
  h.sshKeys.forM (key k)

def snapshot (s : Snapshot) : Write Int := do
  let createdAt ← decoded s.createdAt.text?
  let id := Cell.text s.id.text
  if (← get).snapshots.rows.any (·.id == id) then throw .duplicateId
  let k ← add (·.snapshots) (fun t x => { t with snapshots := x }) fun k =>
    ⟨k, id, .text createdAt, .ofNat s.hosts.length⟩
  s.hosts.forM (host k)
  return k

end Write

def save (t : Tables) (s : Snapshot) : Except StoreError (Int × Tables) := (Write.snapshot s).run t

section Log

def saveLine? (t : Tables) (line : List Char) : Option Tables := do
  let s ← Snapshot.decode? (String.ofList line)
  let (_, t) ← (save t s).toOption
  some t

/-- The database of a file's text, unless that is something else. -/
def ofLog? (text : String) : Option Tables :=
  (Text.lines text.toList).foldlM saveLine? .empty

def logLine? (s : Snapshot) : Option String := s.encode?.map (· ++ "\n")

def append (t : Tables) (s : Snapshot) : Except StoreError (Tables × String) := do
  let (_, t) ← save t s
  return (t, ← decoded (logLine? s))

end Log

end FleetPosture.Store
