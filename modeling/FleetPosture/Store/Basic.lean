import FleetPosture.Snapshot.Json
import FleetPosture.Store.Tables

/-!
What can go wrong when snapshots are stored and loaded.
-/

namespace FleetPosture.Store

inductive StoreError
  | noData
  | duplicateId
  | full
  | malformedId (seq : Int)
  | transport (cause : Transport.ReadError)
  | quality (cause : CipherQuality.ReadError)
  | undecodable
deriving DecidableEq, Repr

namespace StoreError

def cause : StoreError → String
  | noData => "no snapshot has been saved yet"
  | duplicateId => "UNIQUE constraint failed: snapshots.snapshot_id"
  | full => "database or disk is full"
  | malformedId seq => "snapshot " ++ toString seq ++ " has a malformed id"
  | transport e => e.message
  | quality e => e.message
  | undecodable => "a stored value cannot be read"

def message : StoreError → String
  | noData => noData.cause
  | e => "snapshot store error: " ++ e.cause

end StoreError

def decoded {α : Type} : Option α → Except StoreError α
  | some a => .ok a
  | none => .error .undecodable

end FleetPosture.Store
