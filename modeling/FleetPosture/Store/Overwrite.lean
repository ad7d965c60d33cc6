import FleetPosture.Store.Tables

/-!
Overwriting one column in all rows of a table, as far as the table's rules allow it: keys stay
distinct, rows refer to rows that exist, and no cell is null that must not be.
-/

namespace FleetPosture.Store

inductive Column (ρ : Type)
  | key (put : Int → ρ → ρ)
  | owner (put : Int → ρ → ρ)
  | cell (affinity : Affinity) (nullable unique : Bool) (put : Cell → ρ → ρ)

namespace Column

variable {ρ : Type}

def textCell (put : Cell → ρ → ρ) : Column ρ := cell .text false false put
def integerCell (put : Cell → ρ → ρ) : Column ρ := cell .integer false false put

def overwrite (rows : List ρ) (value : Cell) : Column ρ → Option (List ρ)
  | key put => do
    if rows.isEmpty then return []
    let k ← (value.stored .integer).integer?
    if 1 < rows.length then none else some (rows.map (put k))
  | owner put => do
    if rows.isEmpty then return []
    let k ← (value.stored .integer).integer?
    some (rows.map (put k))
  | cell affinity nullable unique put =>
    let v := value.stored affinity
    if rows.isEmpty then some []
    else if v = .null ∧ !nullable then none
    else if unique ∧ 1 < rows.length then none
    else some (rows.map (put v))

end Column

def rowKeyNames : List String := ["rowid", "oid", "_rowid_"]

def columnsWith {ρ : Type} (name : String) (put : Int → ρ → ρ) (others : List (String × Column ρ)) :
    List (String × Column ρ) :=
  (name, .key put) :: others ++ rowKeyNames.map (·, .key put)

open Column

def snapshotColumns : List (String × Column SnapshotRow) :=
  columnsWith "seq" (fun k r => { r with seq := k })
    [("snapshot_id", cell .text false true fun v r => { r with id := v }),
      ("created_at", textCell fun v r => { r with createdAt := v }),
      ("host_count", integerCell fun v r => { r with hostCount := v })]

def hostColumns : List (String × Column HostRow) :=
  columnsWith "host_id" (fun k r => { r with id := k })
    [("seq", owner fun k r => { r with snapshot := k }),
      ("name", textCell fun v r => { r with name := v }),
      ("address", textCell fun v r => { r with address := v })]

def processColumns : List (String × Column ProcessRow) :=
  columnsWith "process_id" (fun k r => { r with id := k })
    [("host_id", owner fun k r => { r with host := k }),
      ("command_name", textCell fun v r => { r with commandName := v }),
      ("pid", integerCell fun v r => { r with pid := v }),
      ("user", textCell fun v r => { r with user := v }),
      ("cmdline_json", textCell fun v r => { r with cmdline := v }),
      ("env_json", textCell fun v r => { r with env := v })]

def portColumns : List (String × Column PortRow) :=
  columnsWith "port_id" (fun k r => { r with id := k })
    [("process_id", owner fun k r => { r with process := k }),
      ("transport", textCell fun v r => { r with transport := v }),
      ("address", textCell fun v r => { r with address := v }),
      ("port", integerCell fun v r => { r with number := v }),
      ("state", textCell fun v r => { r with state := v })]

def tlsColumns : List (String × Column TlsRow) :=
  columnsWith "port_id" (fun k r => { r with port := k })
    [("presence", integerCell fun v r => { r with presence := v }),
      ("mutual", integerCell fun v r => { r with clientCertificate := v }),
      ("scan_error", cell .text true false fun v r => { r with scanError := v }),
      ("cert_bits", cell .integer true false fun v r => { r with bits := v }),
      ("cert_expiration", cell .text true false fun v r => { r with expiration := v }),
      ("cert_country", cell .text true false fun v r => { r with country := v }),
      ("cert_province", cell .text true false fun v r => { r with province := v }),
      ("cert_locality", cell .text true false fun v r => { r with locality := v }),
      ("cert_org", cell .text true false fun v r => { r with organization := v }),
      ("cert_cn", cell .text true false fun v r => { r with commonName := v })]

def cipherColumns : List (String × Column CipherRow) :=
  columnsWith "cipher_id" (fun k r => { r with id := k })
    [("port_id", owner fun k r => { r with port := k }),
      ("version", textCell fun v r => { r with version := v }),
      ("name", textCell fun v r => { r with name := v }),
      ("quality", textCell fun v r => { r with quality := v })]

def fileColumns : List (String × Column FileRow) :=
  columnsWith "file_id" (fun k r => { r with id := k })
    [("host_id", owner fun k r => { r with host := k }),
      ("path", textCell fun v r => { r with path := v }),
      ("permissions", integerCell fun v r => { r with permissions := v })]

def keyColumns : List (String × Column KeyRow) :=
  columnsWith "key_id" (fun k r => { r with id := k })
    [("host_id", owner fun k r => { r with host := k }),
      ("key_type", textCell fun v r => { r with keyType := v }),
      ("key", textCell fun v r => { r with key := v })]

namespace Tables

def isConsistent (t : Tables) : Bool :=
  let within {ρ σ : Type} [Keyed σ] (owner : ρ → Int) (rows : List ρ) (owners : List σ) : Bool :=
    rows.all fun r => owners.any fun o => Keyed.key o == owner r
  within HostRow.snapshot t.hosts.rows t.snapshots.rows &&
    within ProcessRow.host t.processes.rows t.hosts.rows &&
    within PortRow.process t.ports.rows t.processes.rows &&
    within TlsRow.port t.tls t.ports.rows &&
    within CipherRow.port t.ciphers.rows t.tls &&
    within FileRow.host t.files.rows t.hosts.rows &&
    within KeyRow.host t.keys.rows t.hosts.rows

/-- Overwrites a column of the rows of one table. Names of columns are in any case. -/
def overwriteRows {ρ : Type} (columns : List (String × Column ρ)) (rows : List ρ)
    (put : List ρ → Tables) (column : String) (value : Cell) : Option (Nat × Tables) := do
  let c ← columns.lookup column.toLower
  let rows ← c.overwrite rows value
  let t := put rows
  if t.isConsistent then some (rows.length, t) else none

def overwrite (t : Tables) (table column : String) (value : Cell) : Option (Nat × Tables) :=
  match table.toLower with
  | "snapshots" => overwriteRows snapshotColumns t.snapshots.rows
    (fun rows => { t with snapshots.rows := rows }) column value
  | "hosts" => overwriteRows hostColumns t.hosts.rows
    (fun rows => { t with hosts.rows := rows }) column value
  | "processes" => overwriteRows processColumns t.processes.rows
    (fun rows => { t with processes.rows := rows }) column value
  | "ports" => overwriteRows portColumns t.ports.rows
    (fun rows => { t with ports.rows := rows }) column value
  | "tls_informations" => overwriteRows tlsColumns t.tls
    (fun rows => { t with tls := rows }) column value
  | "tls_ciphers" => overwriteRows cipherColumns t.ciphers.rows
    (fun rows => { t with ciphers.rows := rows }) column value
  | "files" => overwriteRows fileColumns t.files.rows
    (fun rows => { t with files.rows := rows }) column value
  | "ssh_keys" => overwriteRows keyColumns t.keys.rows
    (fun rows => { t with keys.rows := rows }) column value
  | _ => none

end Tables
end FleetPosture.Store
