import FleetPosture.Net.Address

/-!
Endpoints of connections, why connecting to one fails, and how a connection ends.
-/

namespace FleetPosture.Net

structure Endpoint where
  address : Address
  port : UInt16
deriving DecidableEq, Repr

def Endpoint.text (e : Endpoint) : String :=
  let port := ":" ++ toString e.port.toNat
  match e.address with
  | .v4 _ => e.address.text ++ port
  | .v6 _ => "[" ++ e.address.text ++ "]" ++ port

inductive ConnectError
  | refused
  | networkUnreachable
  | timedOut
deriving DecidableEq, Repr

def ConnectError.message : ConnectError → String
  | refused => "Connection refused (os error 111)"
  | networkUnreachable => "Network is unreachable (os error 101)"
  | timedOut => "timed out"

/-- How the bytes from a peer end: with the end of the stream, or with nothing more until the time
is up. -/
inductive StreamEnd
  | closed
  | stalled
deriving DecidableEq, Repr

end FleetPosture.Net
