import FleetPosture.Store.Cell

/-!
The tables of the snapshot database. Rows are numbered by their key, stand in its order, and refer to
the row that they belong to by its key. A new row gets a key above all that were ever given.
-/

namespace FleetPosture.Store

class Keyed (ρ : Type) where
  key : ρ → Int

structure Table (ρ : Type) where
  rows : List ρ
  lastKey : Int
deriving DecidableEq, Repr

namespace Table

variable {ρ : Type}

def empty : Table ρ := ⟨[], 0⟩

def nextKey? [Keyed ρ] (t : Table ρ) : Option Int :=
  let last := max t.lastKey ((t.rows.getLast?.map Keyed.key).getD 0)
  if last < Cell.maxInteger then some (last + 1) else none

def add? [Keyed ρ] (t : Table ρ) (row : Int → ρ) : Option (Int × Table ρ) :=
  t.nextKey?.map fun k => (k, ⟨t.rows ++ [row k], k⟩)

end Table

structure SnapshotRow where
  seq : Int
  id : Cell
  createdAt : Cell
  hostCount : Cell
deriving DecidableEq, Repr

structure HostRow where
  id : Int
  snapshot : Int
  name : Cell
  address : Cell
deriving DecidableEq, Repr

structure ProcessRow where
  id : Int
  host : Int
  commandName : Cell
  pid : Cell
  user : Cell
  cmdline : Cell
  env : Cell
deriving DecidableEq, Repr

structure PortRow where
  id : Int
  process : Int
  transport : Cell
  address : Cell
  number : Cell
  state : Cell
deriving DecidableEq, Repr

/-- The TLS settings of a port, whose key is the row's own. -/
structure TlsRow where
  port : Int
  presence : Cell
  clientCertificate : Cell
  scanError : Cell
  bits : Cell
  expiration : Cell
  country : Cell
  province : Cell
  locality : Cell
  organization : Cell
  commonName : Cell
deriving DecidableEq, Repr

structure CipherRow where
  id : Int
  port : Int
  version : Cell
  name : Cell
  quality : Cell
deriving DecidableEq, Repr

structure FileRow where
  id : Int
  host : Int
  path : Cell
  permissions : Cell
deriving DecidableEq, Repr

structure KeyRow where
  id : Int
  host : Int
  keyType : Cell
  key : Cell
deriving DecidableEq, Repr

instance : Keyed SnapshotRow := ⟨SnapshotRow.seq⟩
instance : Keyed HostRow := ⟨HostRow.id⟩
instance : Keyed ProcessRow := ⟨ProcessRow.id⟩
instance : Keyed PortRow := ⟨PortRow.id⟩
instance : Keyed TlsRow := ⟨TlsRow.port⟩
instance : Keyed CipherRow := ⟨CipherRow.id⟩
instance : Keyed FileRow := ⟨FileRow.id⟩
instance : Keyed KeyRow := ⟨KeyRow.id⟩

structure Tables where
  snapshots : Table SnapshotRow
  hosts : Table HostRow
  processes : Table ProcessRow
  ports : Table PortRow
  tls : List TlsRow
  ciphers : Table CipherRow
  files : Table FileRow
  keys : Table KeyRow
deriving DecidableEq, Repr

namespace Tables

def empty : Tables := ⟨.empty, .empty, .empty, .empty, [], .empty, .empty, .empty⟩

def names : List String :=
  ["snapshots", "hosts", "processes", "ports", "tls_informations", "tls_ciphers", "files",
    "ssh_keys", "sqlite_sequence"]

def tableExists (name : String) : Bool := names.contains name

def snapshotCount (t : Tables) : Nat := t.snapshots.rows.length

end Tables
end FleetPosture.Store
