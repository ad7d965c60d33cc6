import FleetPosture.Snapshot.Basic
import FleetPosture.Text.Pieces
import FleetPosture.Text.Quoted

/-!
Sockets as the tools of a host list them: the process that owns each, and the local end, written
`host:port` with the host in brackets if it has colons of its own. Reading a listing leaves out what
it cannot read and says why.
-/

namespace FleetPosture.Socket

inductive ReadError
  | missingField (field : String)
  | unsupportedProtocol (name : String)
  | address (text : String)
  | number (text : String)
deriving DecidableEq, Repr

def ReadError.message : ReadError → String
  | missingField field => "missing field: " ++ field
  | unsupportedProtocol name => "unsupported protocol: " ++ name
  | address text => "failed to split address " ++ Text.quoted text
  | number text => "invalid number " ++ Text.quoted text

structure Entry where
  pid : UInt32
  command : String
  port : Port
deriving DecidableEq

/-- The host and the text of the port: after the closing bracket of a host in brackets, and
otherwise after the last colon. -/
def cutEndpoint? : List Char → Option (List Char × List Char)
  | '[' :: r => do
    let (host, tail) ← Text.cutFirst? ']' r
    match tail with
    | ':' :: port => some (host, port)
    | _ => none
  | s => Text.cutLast? ':' s

def splitEndpoint (s : List Char) : Except ReadError (String × UInt16) :=
  match cutEndpoint? s with
  | none => .error (.address (String.ofList s))
  | some (host, port) =>
    if host.isEmpty then .error (.address (String.ofList s))
    else
      match Text.uint16? port with
      | none => .error (.number (String.ofList port))
      | some n => .ok (String.ofList host, n)

abbrev Listing := List (Except ReadError Entry)

namespace Listing

def entries (l : Listing) : List Entry := l.filterMap fun
  | .ok e => some e
  | .error _ => none

def skipped (l : Listing) : List ReadError := l.filterMap fun
  | .ok _ => none
  | .error e => some e

end Listing

def portsOf (pid : UInt32) (es : List Entry) : List Port :=
  (es.filter (·.pid == pid)).map (·.port)

def portsByPid (es : List Entry) : List (UInt32 × List Port) :=
  ((es.map (·.pid)).eraseDups.mergeSort (· ≤ ·)).map fun pid => (pid, portsOf pid es)

end FleetPosture.Socket
